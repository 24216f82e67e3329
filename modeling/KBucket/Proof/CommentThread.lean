import KBucket.Proof.CommentList
import KBucket.Proof.Exchange

/-!
# Comments under way

A thread of comments is an exchange in the sense of `Lib.Exchange`: the screen posts comments, and
shows a list as it arrives (`step_exchanged`). Two results about whole runs follow, whatever the
order in which requests are taken and answers delivered. Every comment that was sent is taken by
the server once, waits or was refused, and the list on display is the server's list as it was
after some number of comments (`thread_conserved`). And if lists are delivered in the order in
which the server made them, then once nothing is under way the list contains every comment of
this screen (`quiet_shows_mine`).

The server is a parameter, and what is asked of it is said in the statements. Its answers can be
read (`CommentServer.Readable`), as one that cannot be ends the process (`Proof.Answer`). How it
makes its list of the comments is not asked, so that "the list contains a comment" can only mean
that the list is the server's as of a moment when it had the comment. Comments are counted, and
not only looked for: two that read the same are two (`Perm`), and after that moment none of this
screen's is left to come.

A lost request ends the process, so `thread_conserved` is about runs without one. That is a
condition on the events, and not an assumption on the network: every other run ends there.
-/

namespace KBucket

open Lib

namespace ShareDetailForm

variable {Image : Type}

/-- The body of a comment: its parameters in the order in which Swift happens to run through
    them. -/
def commentBody (hash : HashOrder) (mUserNickname text idx : String) : String :=
  StringUtils.postText (sender hash mUserNickname text idx).rows

def insertRequest (body : String) : HttpRequest where
  url := ContextUtils.INSERT_COMMENT_URL
  post := true
  id := ConstHTTP.INSERT_COMMENT
  data := body

/-- The request for the comments on the bucket. -/
def listRequest (idx : String) : HttpRequest where
  url := ContextUtils.KBUCKET_COMMENT_URL
  post := true
  id := ConstHTTP.COMMENT_LIST
  data := "idx=" ++ idx ++ "&"

theorem handleMessage_load (v : ShareDetailView) (obj : String) :
    v.handleMessage .LOAD_COMMENT_LIST obj = .ok (v.send (listRequest v.idx)) := by
  have hdata : StringUtils.getHTTPPostSendData (ShareDetailView.commentSender v.idx)
      = .ok ("idx=" ++ v.idx ++ "&") := by
    rw [StringUtils.getHTTPPostSendData_eq, Except.ok.injEq, ← String.toList_inj]
    simp [StringUtils.postText, ShareDetailView.commentSender, Table.singleton]
  unfold ShareDetailView.handleMessage
  rw [hdata]
  rfl

/-- What the button makes of a text. -/
def commentText (swift : StringUtils.Characters) (text : String) : String :=
  StringUtils.replacingOccurrences swift text " " ""

theorem onClick_blank {swift : StringUtils.Characters} (hash : HashOrder)
    {v : ShareDetailForm Image} (h : commentText swift v.etComment = "") :
    v.onClick swift hash = .ok v := by
  unfold onClick
  rw [show StringUtils.replacingOccurrences swift v.etComment " " "" = "" from h]
  rfl

theorem onClick_sent {swift : StringUtils.Characters} (hash : HashOrder) {v : ShareDetailForm Image}
    (h : commentText swift v.etComment ≠ "") :
    v.onClick swift hash = .ok { v with
      view := v.view.send (insertRequest
        (commentBody hash v.mUserNickname (commentText swift v.etComment) v.view.idx))
      etComment := "" } := by
  have hlen : (commentText swift v.etComment).length > 0 :=
    Nat.pos_of_ne_zero fun hzero => h (String.length_eq_zero_iff.mp hzero)
  unfold onClick
  simp only [commentText] at hlen
  rw [if_pos hlen, StringUtils.getHTTPPostSendData_eq]
  rfl

end ShareDetailForm

namespace CommentThread

open ShareDetailForm

variable {Image : Type} {swift : StringUtils.Characters} {hash : HashOrder}
  {server : CommentServer} {s t : CommentThread Image} {e : Event}

/-! ## One event -/

/-- The list on display. -/
abbrev list (s : CommentThread Image) : List Comment := s.form.view.mCommentList

/-- The body of the comment that an event sends. -/
def sentBody (swift : StringUtils.Characters) (hash : HashOrder) (mUserNickname idx : String) :
    Event → Option String
  | .send text =>
    if commentText swift text = "" then none
    else some (commentBody hash mUserNickname (commentText swift text) idx)
  | _ => none

def isRefusal : Event → Bool
  | .refuse _ => true
  | _ => false

/-- Who the screen writes as, and on which bucket. -/
structure SameScreen (s t : CommentThread Image) : Prop where
  mUserNickname : t.form.mUserNickname = s.form.mUserNickname
  idx : t.form.view.idx = s.form.view.idx

/-- A refusal is told to the user, and changes neither the list nor what is asked for. -/
theorem receive_refused [Platform] (hserver : server.Readable) (s : CommentThread Image)
    (id : Int) : ∃ view, receive server s (.refused id) = .ok view ∧ view.requests = s.requests ∧
      view.mCommentList = s.list ∧ view.idx = s.form.view.idx := by
  obtain ⟨isValid, hvalid⟩ := hserver.refusal_reads
  have hfail : ¬ (ConstHTTP.HTTP_FAIL = ConstHTTP.HTTP_OK ∧ isValid = true) := by
    intro h
    exact absurd h.1 (by decide)
  unfold receive ShareDetailView.onHttpReceive
  simp only [hvalid, ok_bind]
  split
  · exact ⟨_, rfl, rfl, rfl, rfl⟩
  · split
    · exact ⟨_, rfl, rfl, rfl, rfl⟩
    · exact ⟨_, rfl, rfl, rfl, rfl⟩

theorem receive_inserted [Platform] (hserver : server.Readable) (s : CommentThread Image) :
    receive server s .inserted
      = .ok (s.form.view.send (listRequest s.form.view.idx)) := by
  obtain ⟨isValid, hvalid⟩ := hserver.receipt_reads
  unfold receive ShareDetailView.onHttpReceive
  simp only [hvalid, ok_bind]
  rw [if_neg (by decide), if_pos trivial, if_pos trivial, handleMessage_load]

theorem receive_listed [Platform] (hserver : server.Readable) (s : CommentThread Image)
    (count : Nat) :
    receive server s (.listed count)
      = .ok (s.form.view.listed (server.comments (s.posted.take count))) :=
  ShareDetailView.onHttpReceive_listed (hserver.answer_lists _)

/-! ## The thread as an exchange -/

/-- The screen shows a list as it arrives, and leaves it on a receipt. -/
def board (server : CommentServer) : Board String Post (List Comment) where
  entry body := ⟨true, body⟩
  own := Post.mine
  blank := []
  view := server.comments
  onReceipt := id
  onList _ := server.comments
  own_entry := Post.mine_own
  onReceipt_eq _ := .inl rfl
  onList_eq _ _ := .inr rfl
  onList_blank _ := rfl

theorem board_follows (server : CommentServer) : (board server).Follows := fun _ _ => rfl

theorem isBoard (server : CommentServer) : IsBoard (board server) := ⟨rfl, rfl⟩

def exchanged (s : CommentThread Image) : Exchange String Post (List Comment) :=
  exchange ConstHTTP.INSERT_COMMENT s.requests s.posted s.replies s.list

/-- What an event of the thread is in the exchange. -/
def Event.exchanged (swift : StringUtils.Characters) (hash : HashOrder)
    (mUserNickname idx : String) : Event → Exchange.Event String Post
  | .send text =>
    if commentText swift text = "" then .idle
    else .post (commentBody hash mUserNickname (commentText swift text) idx)
  | .other body => .other ⟨false, body⟩
  | .take i => .take i
  | .refuse i => .refuse i
  | .lose _ => .idle
  | .deliver i => .deliver i

theorem entry_exchanged (server : CommentServer) (mUserNickname idx : String) (e : Event) :
    ((e.exchanged swift hash mUserNickname idx).entry (board server)).map Post.body
      = sentBody swift hash mUserNickname idx e := by
  cases e with
  | send text =>
    rw [Event.exchanged, sentBody]
    split <;> rfl
  | _ => rfl

theorem foreign_exchanged (server : CommentServer) (mUserNickname idx : String) (e : Event) :
    (e.exchanged swift hash mUserNickname idx).Foreign (board server) := by
  intro p hp
  cases e with
  | other body => cases hp; rfl
  | send text =>
    rw [Event.exchanged] at hp
    split at hp <;> cases hp
  | _ => cases hp

theorem isRefusal_exchanged (mUserNickname idx : String) (e : Event) :
    (e.exchanged swift hash mUserNickname idx).isRefusal = isRefusal e := by
  cases e with
  | send text =>
    rw [Event.exchanged]
    split <;> rfl
  | _ => rfl

/-- **One event of any kind, lost requests excepted, goes through**, and is an event of the
    exchange. -/
theorem step_exchanged [Platform] (swift : StringUtils.Characters) (hash : HashOrder)
    (hserver : server.Readable) (s : CommentThread Image) (hlose : ∀ i, e ≠ .lose i) :
    ∃ t, step swift hash server s e = .ok t ∧
      s.exchanged.step (board server)
        (e.exchanged swift hash s.form.mUserNickname s.form.view.idx) = t.exchanged ∧
      SameScreen s t := by
  cases e with
  | send text =>
    by_cases hblank : commentText swift text = ""
    · have hclick := onClick_blank hash (v := { s.form with etComment := text }) hblank
      have hstep : step swift hash server s (.send text)
          = .ok { s with form := { s.form with etComment := text } } := by
        simp only [step, hclick]
        rfl
      exact ⟨_, hstep, by rw [Event.exchanged, if_pos hblank]; rfl, rfl, rfl⟩
    · have hclick := onClick_sent hash (v := { s.form with etComment := text }) hblank
      let body := commentBody hash s.form.mUserNickname (commentText swift text) s.form.view.idx
      have hstep : step swift hash server s (.send text) = .ok { s with form := { s.form with
          view := s.form.view.send (insertRequest body), etComment := "" } } := by
        simp only [step, hclick]
        rfl
      refine ⟨_, hstep, ?_, rfl, rfl⟩
      rw [Event.exchanged, if_neg hblank]
      exact exchange.step_post (q := insertRequest body) rfl rfl
  | other body => exact ⟨_, rfl, rfl, rfl, rfl⟩
  | take i =>
    cases hrequest : s.requests[i]? with
    | none =>
      exact ⟨s, by simp only [step, hrequest], (exchange.step_of_no_request hrequest).1, rfl, rfl⟩
    | some request =>
      refine ⟨(s.taken i).serve request, by simp only [step, hrequest], ?_, ?_⟩
      · by_cases hid : request.id = ConstHTTP.INSERT_COMMENT
        · rw [serve, if_pos hid]
          exact exchange.step_take_post (isBoard server) hrequest hid
        · rw [serve, if_neg hid]
          exact exchange.step_take_refresh hrequest hid
      · unfold serve
        split <;> exact ⟨rfl, rfl⟩
  | refuse i =>
    cases hrequest : s.requests[i]? with
    | none =>
      exact ⟨s, by simp only [step, hrequest], (exchange.step_of_no_request hrequest).2, rfl, rfl⟩
    | some request =>
      exact ⟨(s.taken i).reply (.refused request.id), by simp only [step, hrequest],
        exchange.step_refuse hrequest, rfl, rfl⟩
  | lose i => exact absurd rfl (hlose i)
  | deliver i =>
    cases hreply : s.replies[i]? with
    | none => exact ⟨s, by simp only [step, hreply], exchange.step_of_no_reply hreply, rfl, rfl⟩
    | some r =>
      have hdeliver := @exchange.step_deliver _ (board server) ConstHTTP.INSERT_COMMENT s.requests
        s.posted s.replies s.list i r hreply
      cases r with
      | inserted =>
        have hstep : step swift hash server s (.deliver i)
            = .ok (withView { s with replies := s.replies.eraseIdx i }
                (s.form.view.send (listRequest s.form.view.idx))) := by
          simp only [step, hreply, receive_inserted hserver]
          rfl
        refine ⟨_, hstep, hdeliver.trans ?_, rfl, rfl⟩
        have hid : ConstHTTP.COMMENT_LIST ≠ ConstHTTP.INSERT_COMMENT := by decide
        exact exchange.receive_receipt (q := listRequest s.form.view.idx) hid
      | listed count =>
        have hstep : step swift hash server s (.deliver i)
            = .ok (withView { s with replies := s.replies.eraseIdx i }
                (s.form.view.listed (server.comments (s.posted.take count)))) := by
          simp only [step, hreply, receive_listed hserver]
          rfl
        exact ⟨_, hstep, hdeliver, rfl, rfl⟩
      | refused id =>
        obtain ⟨view, hview, hrequests, hlist, hidx⟩ := receive_refused hserver s id
        have hstep : step swift hash server s (.deliver i)
            = .ok (withView { s with replies := s.replies.eraseIdx i } view) := by
          simp only [step, hreply, hview]
          rfl
        refine ⟨_, hstep, hdeliver.trans ?_, rfl, hidx⟩
        show exchange ConstHTTP.INSERT_COMMENT s.requests s.posted _ s.list
          = exchange ConstHTTP.INSERT_COMMENT view.requests s.posted _ view.mCommentList
        rw [hrequests, hlist]
        rfl

/-- An event that does not end the process is an event of the exchange. -/
theorem exchanged_of_step [Platform] (hserver : server.Readable)
    (h : step swift hash server s e = .ok t) :
    s.exchanged.step (board server)
        (e.exchanged swift hash s.form.mUserNickname s.form.view.idx) = t.exchanged ∧
      SameScreen s t := by
  by_cases hlose : ∃ i, e = .lose i
  · obtain ⟨i, rfl⟩ := hlose
    cases hrequest : s.requests[i]? with
    | none =>
      simp only [step, hrequest] at h
      cases h
      exact ⟨rfl, rfl, rfl⟩
    | some request =>
      simp only [step, hrequest] at h
      cases h
  · obtain ⟨u, hu, hmoved⟩ := step_exchanged swift hash hserver s fun i hi => hlose ⟨i, hi⟩
    rw [h] at hu
    cases hu
    exact hmoved

/-! ## No comment is lost or doubled -/

/-- The bodies of this screen's comments that the server has. -/
def mine (s : CommentThread Image) : List String :=
  (s.posted.filter Post.mine).map Post.body

/-- Those that are on their way to it. -/
def waiting (s : CommentThread Image) : List String :=
  (s.requests.filter fun r => decide (r.id = ConstHTTP.INSERT_COMMENT)).map HttpRequest.data

/-! ## A screen that has been opened -/

theorem viewDidLoad_eq {codec : ImageCodec Image} {download : String → Option Data}
    {nophoto : Option Image} {defaults : UserDefaults} {mBucket : ShareDetail}
    {form : ShareDetailForm Image}
    (h : viewDidLoad codec download nophoto defaults mBucket = .ok form) :
    form.view.requests = [listRequest mBucket.idx] ∧ form.view.mCommentList = [] ∧
      form.mUserNickname = UserDefault.read defaults ContextUtils.KEY_USER_NICKNAME ∧
      form.view.idx = mBucket.idx := by
  unfold viewDidLoad at h
  simp only [handleMessage_load, ok_bind] at h
  obtain ⟨v, hv, h⟩ := bind_eq_ok.mp h
  cases h
  unfold setImage at hv
  split at hv
  · obtain ⟨data, -, hv⟩ := bind_eq_ok.mp hv
    cases hv
    exact ⟨rfl, rfl, rfl, rfl⟩
  · cases hv
    exact ⟨rfl, rfl, rfl, rfl⟩

/-- The screen when it has been opened, and the server as it is then. -/
def opened (form : ShareDetailForm Image) (posted : List Post) : CommentThread Image where
  form := form
  posted := posted

/-- Without lost requests every run goes through. -/
theorem runs_of_ne_lose [Platform] (swift : StringUtils.Characters) (hash : HashOrder)
    (hserver : server.Readable) {events : List Event} (hlose : ∀ i, .lose i ∉ events)
    (s : CommentThread Image) :
    ∃ t, Runs (step swift hash server) s events t := by
  induction events generalizing s with
  | nil => exact ⟨s, .nil s⟩
  | cons e es ih =>
    have hfirst : ∀ i, e ≠ .lose i := by
      rintro i rfl
      exact hlose i (by simp)
    obtain ⟨u, hstep, -⟩ := step_exchanged swift hash hserver s hfirst
    obtain ⟨t, hrun⟩ := ih (fun i hi => hlose i (List.mem_cons_of_mem _ hi)) u
    exact ⟨t, .cons hstep hrun⟩

/-- What is true of the exchange in every state, is true of it at the end of a run. -/
theorem invariant_of_runs [Platform] (hserver : server.Readable)
    {P : Exchange String Post (List Comment) → Prop}
    (hkeep : ∀ {x y : Exchange String Post (List Comment)} {e},
      P x → Exchange.Moves (board server) x e y → P y)
    {events : List Event} (hs : P s.exchanged) (hrun : Runs (step swift hash server) s events t) :
    P t.exchanged := by
  refine hrun.invariant (I := fun s => P s.exchanged) (G := fun _ _ => True) ?_ hs
    (Guarded.of_forall fun _ _ _ => trivial)
  intro s e t hs _ hstep
  rw [← (exchanged_of_step hserver hstep).1]
  exact hkeep hs (Exchange.moves _ _ _)

theorem conserves_of_runs [Platform] (hserver : server.Readable) {events : List Event}
    (hrun : Runs (step swift hash server) s events t) :
    ∃ lost, (t.mine ++ t.waiting ++ lost).Perm (s.mine ++ s.waiting ++
        events.filterMap (sentBody swift hash s.form.mUserNickname s.form.view.idx)) ∧
      lost.length ≤ events.countP isRefusal := by
  rw [← hrun.trace_eq]
  refine Runs.conserves (I := SameScreen s) (fun s => s.mine ++ s.waiting) ?_ hrun ⟨rfl, rfl⟩
  intro u e v hu hstep
  obtain ⟨hmoved, hsame⟩ := exchanged_of_step hserver hstep
  refine ⟨⟨hsame.1.trans hu.1, hsame.2.trans hu.2⟩, ?_⟩
  rw [hu.1, hu.2] at hmoved
  obtain ⟨lost, hperm, hlen⟩ := exchange.bodies_conserved (x := u.exchanged)
    (foreign_exchanged server s.form.mUserNickname s.form.view.idx e)
  rw [hmoved, entry_exchanged] at hperm
  refine ⟨lost, ?_, by rwa [isRefusal_exchanged] at hlen⟩
  rwa [exchanged, exchanged, exchange.held_bodies (isBoard server),
    exchange.held_bodies (isBoard server)] at hperm

theorem conserves_of_opened [Platform] (hserver : server.Readable) {codec : ImageCodec Image}
    {download : String → Option Data} {nophoto : Option Image} {defaults : UserDefaults}
    {mBucket : ShareDetail} {form : ShareDetailForm Image}
    (hload : viewDidLoad codec download nophoto defaults mBucket = .ok form) {posted : List Post}
    {events : List Event} (hrun : Runs (step swift hash server) (opened form posted) events t) :
    ∃ lost, (t.mine ++ t.waiting ++ lost).Perm ((opened form posted).mine ++ events.filterMap
        (sentBody swift hash (UserDefault.read defaults ContextUtils.KEY_USER_NICKNAME)
          mBucket.idx)) ∧
      lost.length ≤ events.countP isRefusal := by
  obtain ⟨hrequests, -, hnick, hidx⟩ := viewDidLoad_eq hload
  have hwaiting : (opened form posted).waiting = [] := by
    rw [waiting, requests, opened, hrequests]
    rfl
  obtain ⟨lost, hperm, hlen⟩ := conserves_of_runs hserver hrun
  rw [hwaiting, List.append_nil] at hperm
  refine ⟨lost, ?_, hlen⟩
  rw [← hnick, ← hidx]
  exact hperm

/-- **No comment is lost or doubled, and the list on display is always the server's**, whatever
    the order of requests and answers: every run in which no request is lost goes through; every
    comment that was sent has been taken by the server once, or waits, or is among the refused
    ones, of which there are no more than refusals; and the list is empty or the server's as it
    was after some number of comments.

    `hserver` and `hlose` are there because an answer that cannot be read, and a request that is
    lost, end the process. What the server makes of a comment is its own affair: of
    `server.comments` nothing is asked but that its lists can be read. -/
theorem thread_conserved [Platform] (swift : StringUtils.Characters) (hash : HashOrder)
    {server : CommentServer} (hserver : server.Readable) {codec : ImageCodec Image}
    {download : String → Option Data} {nophoto : Option Image} {defaults : UserDefaults}
    {mBucket : ShareDetail} {form : ShareDetailForm Image}
    (hload : viewDidLoad codec download nophoto defaults mBucket = .ok form) (posted : List Post)
    {events : List Event} (hlose : ∀ i, .lose i ∉ events) :
    ∃ t, Runs (step swift hash server) (opened form posted) events t ∧
      (t.list = [] ∨ ∃ n ≤ t.posted.length, t.list = server.comments (t.posted.take n)) ∧
      ∃ lost, (t.mine ++ t.waiting ++ lost).Perm ((opened form posted).mine ++ events.filterMap
          (sentBody swift hash (UserDefault.read defaults ContextUtils.KEY_USER_NICKNAME)
            mBucket.idx)) ∧
        lost.length ≤ events.countP isRefusal := by
  obtain ⟨-, hlist, -, -⟩ := viewDidLoad_eq hload
  have hstart : Exchange.Snapshots (board server) (opened form posted).exchanged :=
    ⟨.inl hlist, fun n hn => by cases hn⟩
  obtain ⟨t, hrun⟩ := runs_of_ne_lose swift hash hserver hlose (opened form posted)
  have hsnapshots := invariant_of_runs hserver (fun hs h => hs.moves h) hstart hrun
  exact ⟨t, hrun, hsnapshots.shown, conserves_of_opened hserver hload hrun⟩

/-! ## When nothing is under way any more -/

/-- No earlier list is under way when a list is delivered. -/
def InOrder (s : CommentThread Image) : Event → Prop
  | .deliver i => ∀ n, s.replies[i]? = some (.listed n) → ∀ r ∈ s.replies.take i, ∀ m, r ≠ .listed m
  | _ => True

theorem inOrder_exchanged {mUserNickname idx : String} (h : InOrder s e) :
    Exchange.InOrder s.exchanged (e.exchanged swift hash mUserNickname idx) := by
  cases e with
  | deliver i => exact exchange.inOrder h
  | send text =>
    rw [Event.exchanged]
    split <;> trivial
  | _ => trivial

/-- **When nothing is under way any more, the list has every comment of this screen**, if lists
    were delivered in the order in which the server made them and no request was refused: it is
    the server's as of some moment by which it had taken each comment that was sent as often as
    it was sent, and after which it took none of this screen's.

    Without `horder` an older list can replace a newer one, and a comment that was refused is on
    no list; `hserver` is there for the answers that end the process. -/
theorem quiet_shows_mine [Platform] (hserver : server.Readable) {codec : ImageCodec Image}
    {download : String → Option Data} {nophoto : Option Image} {defaults : UserDefaults}
    {mBucket : ShareDetail} {form : ShareDetailForm Image}
    (hload : viewDidLoad codec download nophoto defaults mBucket = .ok form) (posted : List Post)
    {events : List Event} (hrefuse : ∀ i, .refuse i ∉ events)
    (horder : Guarded (step swift hash server) InOrder (opened form posted) events)
    (hrun : Runs (step swift hash server) (opened form posted) events t)
    (hquiet : t.requests = [] ∧ t.replies = []) :
    ∃ n, t.list = server.comments (t.posted.take n) ∧
      (∀ p ∈ t.posted.drop n, p.mine = false) ∧
      (Post.bodies (t.posted.take n)).Perm (Post.bodies posted ++ events.filterMap
        (sentBody swift hash (UserDefault.read defaults ContextUtils.KEY_USER_NICKNAME)
          mBucket.idx)) := by
  obtain ⟨hrequests, hlist, -, -⟩ := viewDidLoad_eq hload
  have hstart : Exchange.Current (board server) (opened form posted).exchanged := by
    refine Exchange.current_of_refresh hlist rfl ?_
    show .refresh ∈ form.view.requests.map (HttpRequest.exchanged ConstHTTP.INSERT_COMMENT)
    rw [hrequests]
    exact List.mem_singleton.mpr rfl
  have haccepts : ∀ e ∈ events, isRefusal e = false := by
    intro e he
    cases e with
    | refuse i => exact absurd he (hrefuse i)
    | _ => rfl
  have hguard := EachStep.and horder (Guarded.of_forall fun e he _ => haccepts e he :
    Guarded (step swift hash server) (fun _ e => isRefusal e = false) _ _)
  have hcurrent : Exchange.Current (board server) t.exchanged := by
    refine Runs.invariant (I := fun s => Exchange.Current (board server) s.exchanged) ?_ hrun
      hstart hguard
    intro s e t hs hg hstep
    rw [← (exchanged_of_step hserver hstep).1]
    refine hs.moves (board_follows server) (Exchange.moves _ _ _) (foreign_exchanged server _ _ e)
      (inOrder_exchanged hg.1) ?_
    rw [isRefusal_exchanged]
    exact hg.2
  obtain ⟨lost, hperm, hlen⟩ := conserves_of_opened hserver hload hrun
  have hlost : lost = [] := by
    have hzero : events.countP isRefusal = 0 :=
      List.countP_eq_zero.mpr fun e he => by simp [haccepts e he]
    exact List.eq_nil_of_length_eq_zero (by omega)
  have hwaiting : t.waiting = [] := by
    rw [waiting, hquiet.1]
    rfl
  rw [hwaiting, hlost, List.append_nil, List.append_nil] at hperm
  obtain ⟨n, hshown, hfresh⟩ := hcurrent.quiet (by rw [exchanged, exchange, hquiet.1]; rfl)
    (by rw [exchanged, exchange, hquiet.2]; rfl)
  refine ⟨n, hshown, hfresh, ?_⟩
  rw [@Post.bodies_take t.posted n hfresh]
  exact hperm

/-! ## A comment on the bucket 3 -/

/-- What a server makes of the comment `hi` of `kiki` on the bucket 3. -/
def kikiComment (post : Post) : Comment :=
  if post.body = "NICKNAME=kiki&CONTENT=hi&BUCKET_NO=3&" then
    { mContent := "hi", mDate := "24-05-01", mNickName := "kiki", mIdx := 1, mBucketNo := 3 }
  else {}

def kikiItem (post : Post) : Json :=
  .obj [("nickName", .str (kikiComment post).mNickName),
    ("createDt", .str (kikiComment post).mDate),
    ("content", .str (kikiComment post).mContent), ("idx", .int (kikiComment post).mIdx),
    ("bucketNo", .int (kikiComment post).mBucketNo)]

theorem comment_kikiItem (post : Post) :
    ShareDetailView.comment (kikiItem post) = .ok (kikiComment post) := by
  unfold kikiItem kikiComment
  split <;> rfl

def kikiServer : CommentServer where
  comments posted := posted.map kikiComment
  answer posted := .obj [("isValid", .bool true), ("CommentVOList", .arr (posted.map kikiItem))]
  receipt := .obj [("isValid", .bool true)]
  refusal := none

theorem readable_kikiServer : kikiServer.Readable where
  answer_lists posted := by
    refine ⟨rfl, _, _, rfl, rfl, ?_⟩
    rw [List.mapM_map]
    refine mapM_eq_ok.mpr ?_
    refine List.forall₂_map_right_iff.mpr ?_
    exact List.forall₂_same.mpr fun post _ => comment_kikiItem post
  receipt_reads := ⟨true, rfl⟩
  refusal_reads := isValid_none_returns

def kikiDefaults : UserDefaults :=
  UserDefault.write (fun _ => none) ContextUtils.KEY_USER_NICKNAME "kiki"

def bucketThree : ShareDetail where
  idx := "3"
  mIdx := 3
  mContent := "Paris"
  mDate := "24-05-01"
  mImageURl := "N"

/-- The list arrives, a comment is sent and taken, and the list arrives again. -/
def oneComment : List Event :=
  [.take 0, .deliver 0, .send "h i", .take 0, .deliver 0, .take 0, .deliver 0]

def threeForm : ShareDetailForm Data where
  view := { idx := "3", requests := [listRequest "3"] }
  mBucket := bucketThree
  mUserNickname := "kiki"
  mEtShareContent := "Paris"
  mBtShareDate := "24-05-01"

theorem viewDidLoad_three :
    viewDidLoad plainCodec (fun _ => none) none kikiDefaults bucketThree = .ok threeForm := by
  unfold viewDidLoad
  simp only [handleMessage_load]
  rfl

theorem runs_oneComment : ∃ t : CommentThread Data,
    Runs (step StringUtils.eachScalar .asWritten kikiServer) (opened threeForm []) oneComment t ∧
      t.requests = [] ∧ t.replies = [] :=
  ⟨_, .cons rfl (.cons rfl (.cons rfl (.cons rfl (.cons rfl (.cons rfl (.single rfl)))))), rfl, rfl⟩

theorem sent_oneComment : oneComment.filterMap
    (sentBody StringUtils.eachScalar .asWritten "kiki" "3")
      = ["NICKNAME=kiki&CONTENT=hi&BUCKET_NO=3&"] := by decide

theorem thread_conserved_three : ∃ t : CommentThread Data,
    Runs (step StringUtils.eachScalar .asWritten kikiServer) (opened threeForm []) oneComment t ∧
      ∃ lost, (t.mine ++ t.waiting ++ lost).Perm
        ["NICKNAME=kiki&CONTENT=hi&BUCKET_NO=3&"] ∧ lost.length ≤ 0 := by
  have hlose : ∀ i, Event.lose i ∉ oneComment := by simp [oneComment]
  obtain ⟨t, hrun, -, lost, hperm, hlen⟩ := thread_conserved StringUtils.eachScalar .asWritten
    readable_kikiServer viewDidLoad_three [] hlose
  exact ⟨t, hrun, lost, sent_oneComment ▸ hperm, hlen⟩

theorem quiet_shows_mine_three : ∃ t : CommentThread Data,
    Runs (step StringUtils.eachScalar .asWritten kikiServer) (opened threeForm []) oneComment t ∧
      ∃ n, t.list = (t.posted.take n).map kikiComment ∧
        (Post.bodies (t.posted.take n)).Perm ["NICKNAME=kiki&CONTENT=hi&BUCKET_NO=3&"] := by
  have hrefuse : ∀ i, Event.refuse i ∉ oneComment := by simp [oneComment]
  have horder : Guarded (step StringUtils.eachScalar .asWritten kikiServer) InOrder
      (opened threeForm []) oneComment := by
    refine Guarded.of_forall fun e he s => ?_
    simp only [oneComment, List.mem_cons, List.not_mem_nil, or_false] at he
    rcases he with rfl | rfl | rfl | rfl | rfl | rfl | rfl
    all_goals first | trivial | exact fun n _ r hr => absurd hr (by simp)
  obtain ⟨t, hrun, hquiet⟩ := runs_oneComment
  obtain ⟨n, hlist, -, hbodies⟩ :=
    quiet_shows_mine readable_kikiServer viewDidLoad_three [] hrefuse horder hrun hquiet
  exact ⟨t, hrun, n, hlist, sent_oneComment ▸ hbodies⟩

end CommentThread
end KBucket
