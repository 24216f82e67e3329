import KBucket.Proof.Exchange
import KBucket.Proof.Vote
import KBucket.RankExchange

/-!
# What becomes of a vote

The ranking is an exchange in the sense of `Lib.Exchange`, as the comments are
(`step_exchanged`). It differs from them in two ways: a receipt empties the list on display, and
an empty ranking leaves it as it is. What follows about whole runs is the same: no vote is lost or
doubled (`votes_conserved`), and once nothing is under way the ranking is the server's with every
vote of this user in it, so that no bucket in it can be voted on again (`quiet_knows_votes`). A
run can only end in a trap where a cell is asked for that the emptied list does not have, or a
request is lost (`runs_iff_covered`).

The server's promises are hypotheses, each where it is used. `RankServer.Readable` is in both
results. `RankServer.Stays` is in the second alone: a server whose ranking becomes empty leaves
the list as it was, which is right for `votes_conserved` and not for a list that should have
caught up. `Counts`, that the server shows a comment where this user has voted, is asked only for
what the buttons do.
-/

namespace KBucket

open Lib

namespace RankListView

/-- The request for the ranking. -/
def rankRequest (defaults : UserDefaults) : HttpRequest where
  url := ContextUtils.KBUCKET_RANK_LIST_URL
  post := true
  id := ConstHTTP.RANK_LIST
  data := "pageNm=1&nickname=" ++ UserDefault.read defaults ContextUtils.KEY_USER_NICKNAME

/-- A refusal is told to the user, and changes neither the list nor what is asked for. -/
theorem onHttpReceive_refused [Platform] {v : RankListView} {data : Option Json} (id : Int)
    (hread : Returns (Json.isValid data)) :
    ∃ t, v.onHttpReceive ConstHTTP.HTTP_FAIL id data = .ok t ∧ t.requests = v.requests ∧
      t.mBucketDataList = v.mBucketDataList := by
  obtain ⟨isValid, hvalid⟩ := hread
  have hfail : ¬ (ConstHTTP.HTTP_FAIL = ConstHTTP.HTTP_OK ∧ isValid = true) := by
    intro h
    exact absurd h.1 (by decide)
  unfold onHttpReceive
  simp only [hvalid, ok_bind, if_neg hfail]
  split
  · exact ⟨_, rfl, rfl, rfl⟩
  · split
    · exact ⟨_, rfl, rfl, rfl⟩
    · exact ⟨_, rfl, rfl, rfl⟩

end RankListView

namespace RankExchange

open RankListView RankScreen

variable {server : RankServer} {s t : RankExchange} {e : Event}

/-! ## The ranking as an exchange -/

/-- The list on display. -/
abbrev list (s : RankExchange) : List BucketRank := s.screen.view.mBucketDataList

/-- The body of the vote that an event sends: a button on a bucket that is not shown as voted. -/
def sentBody (s : RankExchange) : Event → Option String
  | .press row button =>
    match s.screen.table.shown row with
    | some (_, bucket) =>
      if s.screen.view.getCommentCount bucket.mIdx = true then none
      else some (vote s.screen.view.defaults bucket.mIdx button.gbn).data
    | none => none
  | _ => none

def isRefusal : Event → Bool
  | .refuse _ => true
  | _ => false

/-- The list after a ranking has arrived: an empty one leaves it as it is. -/
def shownAfter (server : RankServer) (shown : List BucketRank) (posted : List Post) :
    List BucketRank :=
  if server.ranking posted = [] then shown else server.ranking posted

theorem shownAfter_eq (server : RankServer) (shown : List BucketRank) (posted : List Post) :
    shownAfter server shown posted = shown ∨
      shownAfter server shown posted = server.ranking posted := by
  unfold shownAfter
  split
  · exact .inl rfl
  · exact .inr rfl

theorem shownAfter_nil (server : RankServer) (posted : List Post) :
    shownAfter server [] posted = server.ranking posted := by
  unfold shownAfter
  split
  · next h => exact h.symm
  · rfl

/-- The list is emptied on a receipt. -/
def board (server : RankServer) : Board String Post (List BucketRank) where
  entry body := ⟨true, body⟩
  own := Post.mine
  blank := []
  view := server.ranking
  onReceipt _ := []
  onList := shownAfter server
  own_entry := Post.mine_own
  onReceipt_eq _ := .inr rfl
  onList_eq := shownAfter_eq server
  onList_blank := shownAfter_nil server

theorem board_follows (hstays : server.Stays) : (board server).Follows := by
  intro posted more
  show shownAfter server (server.ranking posted) (posted ++ more) = server.ranking (posted ++ more)
  unfold shownAfter
  split
  · next h =>
    by_contra hne
    refine hstays posted more (fun hnil => hne ?_) h
    rw [hnil, h]
  · rfl

theorem isBoard (server : RankServer) : IsBoard (board server) := ⟨rfl, rfl⟩

def exchanged (s : RankExchange) : Exchange String Post (List BucketRank) :=
  exchange ConstHTTP.RANK_UPDATE_COMMENT s.requests s.posted s.replies s.list

/-- What an event is in the exchange. -/
def eventExchanged (s : RankExchange) : Event → Exchange.Event String Post
  | .reload | .cell _ | .lose _ => .idle
  | .press row button =>
    match s.sentBody (.press row button) with
    | some body => .post body
    | none => .idle
  | .other body => .other ⟨false, body⟩
  | .take i => .take i
  | .refuse i => .refuse i
  | .deliver i => .deliver i

theorem entry_exchanged (server : RankServer) (s : RankExchange) (e : Event) :
    ((s.eventExchanged e).entry (board server)).map Post.body = s.sentBody e := by
  cases e with
  | press row button =>
    rw [eventExchanged]
    cases s.sentBody (.press row button) <;> rfl
  | _ => rfl

theorem foreign_exchanged (server : RankServer) (s : RankExchange) (e : Event) :
    (s.eventExchanged e).Foreign (board server) := by
  intro p hp
  cases e with
  | other body => cases hp; rfl
  | press row button =>
    rw [eventExchanged] at hp
    split at hp <;> cases hp
  | _ => cases hp

theorem isRefusal_exchanged (s : RankExchange) (e : Event) :
    (s.eventExchanged e).isRefusal = isRefusal e := by
  cases e with
  | press row button =>
    rw [eventExchanged]
    split <;> rfl
  | _ => rfl

/-! ## One event -/

/-- The table has been at work, and nothing else. -/
structure Untouched (s t : RankScreen) : Prop where
  requests : t.view.requests = s.view.requests
  list : t.view.mBucketDataList = s.view.mBucketDataList

theorem untouched_reload [Platform] {s t : RankScreen} (h : RankScreen.step s .reload = .ok t) :
    Untouched s t := by
  simp only [RankScreen.step] at h
  split at h
  · cases h
    exact ⟨rfl, rfl⟩
  · cases h
    exact ⟨rfl, rfl⟩

theorem untouched_cell [Platform] {s t : RankScreen} {row : Nat}
    (h : RankScreen.step s (.cell row) = .ok t) :
    Untouched s t := by
  by_cases hrow : row < s.table.rows
  · obtain ⟨cell, bucket, -, -, rfl⟩ := step_cell hrow h
    exact ⟨rfl, rfl⟩
  · simp only [RankScreen.step, dif_neg hrow] at h
    cases h
    exact ⟨rfl, rfl⟩

theorem exchanged_of_untouched {screen : RankScreen} (h : Untouched s.screen screen) :
    s.exchanged = exchanged { s with screen } := by
  show exchange _ s.screen.view.requests _ _ s.screen.view.mBucketDataList
    = exchange _ screen.view.requests _ _ screen.view.mBucketDataList
  rw [h.requests, h.list]

theorem onScreen_eq_ok [Platform] {event : RankScreen.Event} (h : s.onScreen event = .ok t) :
    ∃ screen, s.screen.step event = .ok screen ∧ t = { s with screen } := by
  obtain ⟨screen, hscreen, h⟩ := bind_eq_ok.mp h
  cases h
  exact ⟨screen, hscreen, rfl⟩

/-- A press sends its vote, or none. -/
theorem press_exchanged [Platform] (hn : s.screen.Numbered) {row : Nat} {button : RankButton}
    (h : s.onScreen (.press row button) = .ok t) :
    s.exchanged.step (board server) (s.eventExchanged (.press row button)) = t.exchanged := by
  obtain ⟨screen, hscreen, rfl⟩ := onScreen_eq_ok h
  cases hshown : s.screen.table.shown row with
  | none =>
    simp only [RankScreen.step, hshown] at hscreen
    cases hscreen
    rw [eventExchanged, sentBody, hshown]
    rfl
  | some c =>
    obtain ⟨cell, bucket⟩ := c
    rw [step_press hn hshown] at hscreen
    cases hscreen
    rw [eventExchanged, sentBody, hshown]
    unfold pressed
    by_cases hcount : s.screen.view.getCommentCount bucket.mIdx = true
    · simp only [if_pos hcount]
      rfl
    · simp only [if_neg hcount]
      exact exchange.step_post (q := vote s.screen.view.defaults bucket.mIdx button.gbn) rfl rfl

/-- Every answer goes through, and is received as the board says. -/
theorem response_exchanged [Platform] (hserver : server.Readable) (s : RankExchange) (r : Reply) :
    ∃ t, s.onScreen (s.response server r) = .ok t ∧
      Exchange.receive (board server) s.exchanged r.exchanged = t.exchanged := by
  have hscreen : ∀ {type id : Int} {data : Option Json} {view : RankListView},
      s.screen.view.onHttpReceive type id data = .ok view →
      s.onScreen (.response type id data) = .ok { s with screen := { s.screen with view } } := by
    intro type id data view hview
    simp only [onScreen, RankScreen.step, hview]
    rfl
  cases r with
  | inserted =>
    have hid : ConstHTTP.RANK_LIST ≠ ConstHTTP.RANK_UPDATE_COMMENT := by decide
    refine ⟨_, hscreen (onHttpReceive_acknowledged hserver.receipt_valid), ?_⟩
    exact exchange.receive_receipt (q := rankRequest s.screen.view.defaults) hid
  | listed count =>
    exact ⟨_, hscreen (onHttpReceive_listed (hserver.answer_lists _)), rfl⟩
  | refused id =>
    obtain ⟨view, hview, hrequests, hlist⟩ :=
      onHttpReceive_refused (v := s.screen.view) id hserver.refusal_reads
    refine ⟨_, hscreen hview, ?_⟩
    show exchange _ s.screen.view.requests _ _ s.screen.view.mBucketDataList
      = exchange _ view.requests _ _ view.mBucketDataList
    rw [hrequests, hlist]

/-- **An event that does not end the process is an event of the exchange.** -/
theorem step_exchanged [Platform] (hserver : server.Readable) (hn : s.screen.Numbered)
    (h : step server s e = .ok t) :
    s.exchanged.step (board server) (s.eventExchanged e) = t.exchanged := by
  cases e with
  | reload =>
    obtain ⟨screen, hscreen, rfl⟩ := onScreen_eq_ok h
    exact exchanged_of_untouched (untouched_reload hscreen)
  | cell row =>
    obtain ⟨screen, hscreen, rfl⟩ := onScreen_eq_ok h
    exact exchanged_of_untouched (untouched_cell hscreen)
  | press row button => exact press_exchanged hn h
  | other body =>
    cases h
    rfl
  | take i =>
    cases hrequest : s.requests[i]? with
    | none =>
      simp only [step, hrequest] at h
      cases h
      exact (exchange.step_of_no_request hrequest).1
    | some request =>
      simp only [step, hrequest] at h
      cases h
      by_cases hid : request.id = ConstHTTP.RANK_UPDATE_COMMENT
      · rw [serve, if_pos hid]
        exact exchange.step_take_post (isBoard server) hrequest hid
      · rw [serve, if_neg hid]
        exact exchange.step_take_refresh hrequest hid
  | refuse i =>
    cases hrequest : s.requests[i]? with
    | none =>
      simp only [step, hrequest] at h
      cases h
      exact (exchange.step_of_no_request hrequest).2
    | some request =>
      simp only [step, hrequest] at h
      cases h
      exact exchange.step_refuse hrequest
  | lose i =>
    cases hrequest : s.requests[i]? with
    | none =>
      simp only [step, hrequest] at h
      cases h
      rfl
    | some request =>
      simp only [step, hrequest] at h
      cases h
  | deliver i =>
    cases hreply : s.replies[i]? with
    | none =>
      simp only [step, hreply] at h
      cases h
      exact exchange.step_of_no_reply hreply
    | some r =>
      simp only [step, hreply] at h
      obtain ⟨u, hu, hreceive⟩ :=
        response_exchanged hserver { s with replies := s.replies.eraseIdx i } r
      cases h.symm.trans hu
      exact (exchange.step_deliver hreply).trans hreceive

theorem numbered_step [Platform] (hn : s.screen.Numbered) (h : step server s e = .ok t) :
    t.screen.Numbered := by
  have hscreen : ∀ {u : RankExchange} {event}, u.screen = s.screen → u.onScreen event = .ok t →
      t.screen.Numbered := by
    intro u event hu h
    obtain ⟨screen, hstep, rfl⟩ := onScreen_eq_ok h
    rw [hu] at hstep
    exact RankScreen.numbered_step hn hstep
  cases e with
  | reload => exact hscreen rfl h
  | cell row => exact hscreen rfl h
  | press row button => exact hscreen rfl h
  | other body => cases h; exact hn
  | take i =>
    simp only [step] at h
    split at h
    · cases h
      unfold serve
      split <;> exact ⟨hn.fits, hn.shown⟩
    · cases h; exact hn
  | refuse i =>
    simp only [step] at h
    split at h
    · cases h
      exact ⟨hn.fits, hn.shown⟩
    · cases h; exact hn
  | lose i =>
    simp only [step] at h
    split at h
    · cases h
    · cases h; exact hn
  | deliver i =>
    simp only [step] at h
    split at h
    · exact hscreen (u := { s with replies := s.replies.eraseIdx i }) rfl h
    · cases h; exact hn

/-! ## Traps -/

/-- A cell is asked for only if the list has its row, and no request is lost. -/
def Covered (s : RankExchange) : Event → Prop
  | .cell row => row < s.screen.table.rows → row < s.list.length
  | .lose i => s.requests[i]? = none
  | _ => True

theorem cell_ok_iff [Platform] {row : Nat} :
    (∃ t, s.onScreen (.cell row) = .ok t) ↔ s.Covered (.cell row) := by
  simp only [onScreen, RankScreen.step, Covered]
  by_cases hrow : row < s.screen.table.rows
  · by_cases hlen : row < s.list.length
    · refine iff_of_true ?_ fun _ => hlen
      simp only [dif_pos hrow, RankListView.cellForRowAt, arrayGet_ofNat hlen]
      exact ⟨_, rfl⟩
    · refine iff_of_false ?_ fun h => hlen (h hrow)
      simp only [dif_pos hrow, RankListView.cellForRowAt,
        arrayGet_outOfRange (Nat.le_of_not_lt hlen)]
      rintro ⟨t, h⟩
      cases h
  · refine iff_of_true ?_ fun h => absurd h hrow
    simp only [dif_neg hrow]
    exact ⟨_, rfl⟩

theorem press_ok [Platform] (hn : s.screen.Numbered) (row : Nat) (button : RankButton) :
    ∃ t, s.onScreen (.press row button) = .ok t := by
  cases hshown : s.screen.table.shown row with
  | none =>
    simp only [onScreen, RankScreen.step, hshown]
    exact ⟨_, rfl⟩
  | some c =>
    rw [onScreen, step_press hn hshown]
    exact ⟨_, rfl⟩

theorem reload_ok [Platform] (s : RankExchange) : ∃ t, s.onScreen .reload = .ok t := by
  simp only [onScreen, RankScreen.step]
  split
  · exact ⟨_, rfl⟩
  · exact ⟨_, rfl⟩

theorem step_ok_iff [Platform] (hserver : server.Readable) (hn : s.screen.Numbered) :
    (∃ t, step server s e = .ok t) ↔ s.Covered e := by
  cases e with
  | reload => exact iff_of_true (reload_ok s) trivial
  | cell row => exact cell_ok_iff
  | press row button => exact iff_of_true (press_ok hn row button) trivial
  | other body => exact iff_of_true ⟨_, rfl⟩ trivial
  | take i =>
    refine iff_of_true ?_ trivial
    simp only [step]
    split
    · exact ⟨_, rfl⟩
    · exact ⟨_, rfl⟩
  | refuse i =>
    refine iff_of_true ?_ trivial
    simp only [step]
    split
    · exact ⟨_, rfl⟩
    · exact ⟨_, rfl⟩
  | lose i =>
    simp only [step, Covered]
    cases s.requests[i]? with
    | none => exact iff_of_true ⟨_, rfl⟩ rfl
    | some request =>
      refine iff_of_false ?_ fun h => (by cases h)
      rintro ⟨t, h⟩
      cases h
  | deliver i =>
    refine iff_of_true ?_ trivial
    simp only [step]
    split
    · next r _ =>
      obtain ⟨t, ht, -⟩ := response_exchanged hserver { s with replies := s.replies.eraseIdx i } r
      exact ⟨t, ht⟩
    · exact ⟨_, rfl⟩

/-- No answer, reload or press ends a run. -/
theorem runs_iff_covered [Platform] (hserver : server.Readable) (hn : s.screen.Numbered)
    {events : List Event} :
    (∃ t, Runs (step server) s events t) ↔ Guarded (step server) Covered s events := by
  refine exists_runs_iff (I := fun s => s.screen.Numbered) ?_ ?_ hn
  · intro s e t _ hs hstep
    exact numbered_step hs hstep
  · intro s e _ hs
    exact step_ok_iff hserver hs

/-! ## Whole runs -/

/-- The bodies of this user's votes that the server has. -/
def mine (s : RankExchange) : List String := Post.bodies s.posted

/-- Those that are on their way to it. -/
def waiting (s : RankExchange) : List String :=
  HttpRequest.bodies ConstHTTP.RANK_UPDATE_COMMENT s.requests

/-- The votes that the events send, in order. -/
abbrev votes [Platform] (server : RankServer) (s : RankExchange)
    (events : List Event) : List String :=
  trace (step server) sentBody s events

variable {defaults : UserDefaults} {isConnect : Bool} {posted : List Post} {events : List Event}

theorem numbered_opened [Platform] (defaults : UserDefaults) (isConnect : Bool)
    (posted : List Post) :
    (opened defaults isConnect posted).screen.Numbered := numbered_load defaults isConnect

theorem list_opened (defaults : UserDefaults) (isConnect : Bool) (posted : List Post) :
    (opened defaults isConnect posted).list = [] := by
  cases isConnect <;> rfl

theorem waiting_opened (defaults : UserDefaults) (isConnect : Bool) (posted : List Post) :
    (opened defaults isConnect posted).waiting = [] := by
  cases isConnect <;> rfl

theorem conserves_of_runs [Platform] (hserver : server.Readable) (hn : s.screen.Numbered)
    (hrun : Runs (step server) s events t) :
    ∃ lost, (t.mine ++ t.waiting ++ lost).Perm (s.mine ++ s.waiting ++ votes server s events) ∧
      lost.length ≤ events.countP isRefusal := by
  refine Runs.conserves (I := fun s => s.screen.Numbered) (fun s => s.mine ++ s.waiting) ?_
    hrun hn
  intro s e t hs hstep
  refine ⟨numbered_step hs hstep, ?_⟩
  obtain ⟨lost, hperm, hlen⟩ := exchange.bodies_conserved (x := s.exchanged)
    (foreign_exchanged server s e)
  rw [step_exchanged hserver hs hstep, entry_exchanged] at hperm
  refine ⟨lost, ?_, by rwa [isRefusal_exchanged] at hlen⟩
  rwa [exchanged, exchanged, exchange.held_bodies (isBoard server),
    exchange.held_bodies (isBoard server)] at hperm

theorem snapshots_of_runs [Platform] (hserver : server.Readable)
    (hrun : Runs (step server) (opened defaults isConnect posted) events t) :
    Exchange.Snapshots (board server) t.exchanged := by
  have hstart := numbered_opened defaults isConnect posted
  have hnone : ∀ n, .listed n ∉ (opened defaults isConnect posted).exchanged.replies := by
    intro n hn
    cases hn
  refine (hrun.invariant (G := fun _ _ => True)
    (I := fun s => s.screen.Numbered ∧ Exchange.Snapshots (board server) s.exchanged) ?_
    ⟨hstart, .inl (list_opened _ _ _), fun n hn => absurd hn (hnone n)⟩
    (Guarded.of_forall fun _ _ _ => trivial)).2
  intro s e t hs _ hstep
  refine ⟨numbered_step hs.1 hstep, ?_⟩
  rw [← step_exchanged hserver hs.1 hstep]
  exact hs.2.moves (Exchange.moves _ _ _)

/-- **No vote is lost or doubled, and the list on display is always the server's**, whatever the
    order of requests and answers. A run goes through exactly when no cell is asked for a row that
    the list no longer has, and no request is lost. Then every vote that was sent has been taken
    by the server once, or waits, or is among the refused ones, of which there are no more than
    refusals; and the list is empty or the server's ranking as it was after some number of
    votes.

    `hserver` is there because an answer that cannot be read ends the process, and because the
    screen asks for the ranking on a valid receipt only. Which comment a vote carries and how the
    server counts it is not said here. -/
theorem votes_conserved [Platform] {server : RankServer} (hserver : server.Readable)
    (defaults : UserDefaults) (isConnect : Bool) (posted : List Post) (events : List Event) :
    ((∃ t, Runs (step server) (opened defaults isConnect posted) events t) ↔
        Guarded (step server) Covered (opened defaults isConnect posted) events) ∧
      ∀ t, Runs (step server) (opened defaults isConnect posted) events t →
        (t.list = [] ∨ ∃ n ≤ t.posted.length, t.list = server.ranking (t.posted.take n)) ∧
        ∃ lost, (t.mine ++ t.waiting ++ lost).Perm
            (Post.bodies posted ++ votes server (opened defaults isConnect posted) events) ∧
          lost.length ≤ events.countP isRefusal := by
  have hstart := numbered_opened defaults isConnect posted
  refine ⟨runs_iff_covered hserver hstart, ?_⟩
  intro t hrun
  refine ⟨(snapshots_of_runs hserver hrun).shown, ?_⟩
  have hconserved := conserves_of_runs hserver hstart hrun
  rwa [waiting_opened, List.append_nil] at hconserved

/-! ## When nothing is under way any more -/

/-- A bucket shows a comment to a user once the server has taken a vote of theirs on it. -/
def Counts (server : RankServer) (defaults : UserDefaults) : Prop :=
  ∀ posted idx comment, ⟨true, (vote defaults idx comment).data⟩ ∈ posted →
    ∀ bucket ∈ server.ranking posted, bucket.mIdx = idx → bucket.mComment ≠ 0

/-- No earlier ranking is under way when a ranking is delivered. -/
def InOrder (s : RankExchange) : Event → Prop
  | .deliver i =>
    ∀ n, s.replies[i]? = some (.listed n) → ∀ r ∈ s.replies.take i, ∀ m, r ≠ .listed m
  | _ => True

theorem inOrder_exchanged (h : InOrder s e) :
    Exchange.InOrder s.exchanged (s.eventExchanged e) := by
  cases e with
  | deliver i => exact exchange.inOrder h
  | press row button =>
    rw [eventExchanged]
    split <;> trivial
  | _ => trivial

theorem current_opened (defaults : UserDefaults) (posted : List Post) :
    Exchange.Current (board server) (opened defaults true posted).exchanged :=
  Exchange.current_of_refresh rfl rfl (List.mem_singleton.mpr rfl)

/-- Deliveries in order never let the list fall behind. -/
theorem current_of_runs [Platform] (hserver : server.Readable) (hstays : server.Stays)
    (hn : s.screen.Numbered) (hs : Exchange.Current (board server) s.exchanged)
    (hrefuse : ∀ e ∈ events, isRefusal e = false)
    (horder : Guarded (step server) InOrder s events) (hrun : Runs (step server) s events t) :
    Exchange.Current (board server) t.exchanged := by
  have hguard := EachStep.and horder (Guarded.of_forall fun e he _ => hrefuse e he :
    Guarded (step server) (fun _ e => isRefusal e = false) _ _)
  refine (Runs.invariant
    (I := fun s => s.screen.Numbered ∧ Exchange.Current (board server) s.exchanged) ?_ hrun
    ⟨hn, hs⟩ hguard).2
  intro s e t hs hg hstep
  refine ⟨numbered_step hs.1 hstep, ?_⟩
  rw [← step_exchanged hserver hs.1 hstep]
  refine hs.2.moves (board_follows hstays) (Exchange.moves _ _ _) (foreign_exchanged server s e)
    (inOrder_exchanged hg.1) ?_
  rw [isRefusal_exchanged]
  exact hg.2

/-- A bucket that the list shows as voted gets no second vote. -/
theorem sentBody_eq_none {row : Nat} {button : RankButton} {cell : RankCustomCell}
    {bucket : BucketRank} (hshown : s.screen.table.shown row = some (cell, bucket))
    (hcount : s.screen.view.getCommentCount bucket.mIdx = true) :
    s.sentBody (.press row button) = none := by
  rw [sentBody, hshown]
  exact if_pos hcount

/-- **When nothing is under way any more, the ranking knows every vote of this user**, if rankings
    were delivered in the order in which the server made them and no request was refused: it is
    the server's as of some moment by which it had each vote that was sent as often as it was
    sent, and after which it took none of this user's. If the server shows a comment on what was
    voted on (`Counts`), then a button on a bucket of the ranking that was voted on sends nothing.

    `hstays` is there because the screen passes over an empty ranking and keeps the one that it
    has, and without `horder` an older ranking can replace a newer one. `Counts` is asked for the
    buttons only: the screen knows of a vote no more than the server shows of it. The screen is
    one that was opened while the network is reached, since it asks for nothing otherwise. -/
theorem quiet_knows_votes [Platform] (hserver : server.Readable) (hstays : server.Stays)
    (hrefuse : ∀ i, .refuse i ∉ events)
    (horder : Guarded (step server) InOrder (opened defaults true posted) events)
    (hrun : Runs (step server) (opened defaults true posted) events t)
    (hquiet : t.requests = [] ∧ t.replies = []) :
    ∃ n, t.list = server.ranking (t.posted.take n) ∧
      (∀ p ∈ t.posted.drop n, p.mine = false) ∧
      (Post.bodies (t.posted.take n)).Perm
        (Post.bodies posted ++ votes server (opened defaults true posted) events) ∧
      (Counts server defaults →
        ∀ row button cell bucket comment, t.screen.table.shown row = some (cell, bucket) →
          bucket.mIdx ∈ t.list.map BucketRank.mIdx →
          (vote defaults bucket.mIdx comment).data
            ∈ votes server (opened defaults true posted) events →
          t.sentBody (.press row button) = none) := by
  have hstart := numbered_opened defaults true posted
  have haccepts : ∀ e ∈ events, isRefusal e = false := by
    intro e he
    cases e with
    | refuse i => exact absurd he (hrefuse i)
    | _ => rfl
  have hcurrent :=
    current_of_runs hserver hstays hstart (current_opened defaults posted) haccepts horder hrun
  obtain ⟨lost, hperm, hlen⟩ := conserves_of_runs hserver hstart hrun
  have hlost : lost = [] := by
    have hzero : events.countP isRefusal = 0 :=
      List.countP_eq_zero.mpr fun e he => by simp [haccepts e he]
    exact List.eq_nil_of_length_eq_zero (by omega)
  have hwaiting : t.waiting = [] := by
    rw [waiting, hquiet.1]
    rfl
  rw [hwaiting, hlost, List.append_nil, List.append_nil] at hperm
  obtain ⟨n, hshown, hfresh⟩ := hcurrent.quiet (by rw [exchanged, exchange, hquiet.1]; rfl)
    (by rw [exchanged, exchange, hquiet.2]; rfl)
  have hbodies : (Post.bodies (t.posted.take n)).Perm
      (Post.bodies posted ++ votes server (opened defaults true posted) events) := by
    rw [waiting_opened, List.append_nil] at hperm
    rw [@Post.bodies_take t.posted n hfresh]
    exact hperm
  refine ⟨n, hshown, hfresh, hbodies, ?_⟩
  intro hcounts row button cell bucket comment hcell hlisted hvoted
  have hposted : ⟨true, (vote defaults bucket.mIdx comment).data⟩ ∈ t.posted.take n :=
    Post.mem_of_bodies (hbodies.mem_iff.mpr (List.mem_append_right _ hvoted))
  obtain ⟨b, hb, hidx⟩ := List.mem_map.mp hlisted
  refine sentBody_eq_none hcell (getCommentCount_iff.mpr ⟨b, hb, hidx, ?_⟩)
  rw [list, show t.screen.view.mBucketDataList = _ from hshown] at hb
  exact hcounts _ _ _ hposted b hb hidx

/-! ## A vote on the bucket 7 -/

/-- The bucket 7 as a server lists it, with the vote `best` once it has been cast. -/
def ranked (voted : Bool) : BucketRank :=
  { mCategoryCode := 1, mContent := "travel", mIdx := 7
    mBestCnt := if voted then 1 else 0, mComment := if voted then 3 else 0 }

def rankedItem (voted : Bool) : Json :=
  .obj [("categoryCode", .int 1), ("content", .str "travel"), ("idx", .int 7),
    ("bestCnt", .int (ranked voted).mBestCnt), ("goodCnt", .int 0), ("ssoCnt", .int 0),
    ("comment", .int (ranked voted).mComment)]

theorem bucketRank_rankedItem (voted : Bool) :
    RankListView.bucketRank (rankedItem voted) = .ok (ranked voted) := by
  cases voted with
  | false => rfl
  | true => rfl

theorem lists_ranked (voted : Bool) : Json.Lists "bucketList" RankListView.bucketRank
    (some (.obj [("isValid", .bool true), ("bucketList", .arr [rankedItem voted])]))
    [ranked voted] := by
  refine ⟨rfl, _, _, rfl, rfl, ?_⟩
  rw [List.mapM_cons, bucketRank_rankedItem]
  rfl

def travelServer : RankServer where
  ranking posted := [ranked (posted.any Post.mine)]
  answer posted :=
    .obj [("isValid", .bool true), ("bucketList", .arr [rankedItem (posted.any Post.mine)])]
  receipt := .obj [("isValid", .bool true)]
  refusal := none

theorem readable_travelServer : travelServer.Readable where
  answer_lists _ := lists_ranked _
  receipt_valid := rfl
  refusal_reads := isValid_none_returns

theorem stays_travelServer : travelServer.Stays := fun _ _ _ => List.cons_ne_nil _ _

theorem counts_travelServer (defaults : UserDefaults) : Counts travelServer defaults := by
  intro posted idx comment hmem bucket hbucket _
  have hany : posted.any Post.mine = true := List.any_eq_true.mpr ⟨_, hmem, rfl⟩
  cases List.mem_singleton.mp hbucket
  rw [hany]
  decide

/-- The ranking arrives, the bucket 7 is voted on, and the ranking arrives again. -/
def oneVote : List Event :=
  [.take 0, .deliver 0, .reload, .cell 0, .press 0 .btBest, .take 0, .deliver 0, .take 0,
    .deliver 0, .reload, .cell 0]

abbrev travel : RankExchange := opened (fun _ => none) true []

theorem runs_oneVote : ∃ t, Runs (step travelServer) travel oneVote t ∧
    (t.requests = [] ∧ t.replies = []) ∧ t.list = [ranked true] ∧
      ∃ cell, t.screen.table.shown 0 = some (cell, ranked true) :=
  ⟨_, .cons rfl (.cons rfl (.cons rfl (.cons rfl (.cons rfl (.cons rfl (.cons rfl (.cons rfl
    (.cons rfl (.cons rfl (.single rfl)))))))))), ⟨rfl, rfl⟩, rfl, _, rfl⟩

theorem votes_oneVote : votes travelServer travel oneVote = ["idx=7&comment=3&nickname="] := rfl

theorem votes_conserved_travel : ∃ t, Runs (step travelServer) travel oneVote t ∧
    ∃ lost, (t.mine ++ t.waiting ++ lost).Perm ["idx=7&comment=3&nickname="] ∧
      lost.length ≤ 0 := by
  obtain ⟨t, hrun, -⟩ := runs_oneVote
  obtain ⟨-, lost, hperm, hlen⟩ := (votes_conserved readable_travelServer _ _ _ _).2 t hrun
  rw [votes_oneVote] at hperm
  exact ⟨t, hrun, lost, hperm, hlen⟩

/-- After the vote no button on the bucket sends another. -/
theorem quiet_knows_votes_travel : ∃ t, Runs (step travelServer) travel oneVote t ∧
    t.sentBody (.press 0 .btGood) = none ∧
      ∃ n, (Post.bodies (t.posted.take n)).Perm ["idx=7&comment=3&nickname="] := by
  have hrefuse : ∀ i, Event.refuse i ∉ oneVote := by simp [oneVote]
  have horder : Guarded (step travelServer) InOrder travel oneVote := by
    refine Guarded.of_forall fun e he s => ?_
    simp only [oneVote, List.mem_cons, List.not_mem_nil, or_false] at he
    rcases he with rfl | rfl | rfl | rfl | rfl | rfl | rfl | rfl | rfl | rfl | rfl
    all_goals first | trivial | exact fun n _ r hr => absurd hr (by simp)
  obtain ⟨t, hrun, hquiet, hlist, cell, hshown⟩ := runs_oneVote
  obtain ⟨n, -, -, hbodies, hvoted⟩ := quiet_knows_votes readable_travelServer stays_travelServer
    hrefuse horder hrun hquiet
  have hnone := hvoted (counts_travelServer fun _ => none)
  rw [votes_oneVote] at hbodies
  refine ⟨t, hrun, hnone 0 .btGood cell (ranked true) 3 hshown ?_ ?_, n, hbodies⟩
  · rw [hlist]
    exact List.mem_singleton.mpr rfl
  · rw [votes_oneVote]
    exact List.mem_singleton.mpr rfl

end RankExchange
end KBucket
