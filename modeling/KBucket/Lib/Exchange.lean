import KBucket.Lib.Run
import Mathlib.Data.List.Perm.Basic

/-!
# Post and refresh

A client posts items to a server, which keeps a log of what it takes and serves any number of
clients. A post is answered by a receipt, on which the client asks for the log again; a request
for the log is answered by the log as it is when the request is taken. What the client shows is
what it made of the last answer. Requests are taken in any order and answers are delivered in any
order. The server may also refuse a request.

Three things are said of an exchange, each of one step, so that the inductions over runs are
those of `Lib.Run`:

* the client's items are conserved (`conserves`): each is in the log, or waits, or was refused;
* what is shown is a view of the log as it was at some moment (`Snapshots`);
* if logs are delivered in the order in which the server made them, and the client shows a longer
  log when it receives one (`Board.Follows`), then what is shown does not fall behind (`Current`):
  either it has every item of the client that the server has, or something is still under way
  that will bring them. Once nothing is under way, it has them (`Current.quiet`).
-/

namespace Lib

/-- What the server logs of an item that the client posts, and how the client shows a log: what
    it makes of a receipt, and of a log that it receives. -/
structure Board (β π δ : Type*) where
  entry : β → π
  own : π → Bool
  blank : δ
  view : List π → δ
  onReceipt : δ → δ
  onList : δ → List π → δ
  own_entry : ∀ b, own (entry b) = true
  onReceipt_eq : ∀ d, onReceipt d = d ∨ onReceipt d = blank
  onList_eq : ∀ d log, onList d log = d ∨ onList d log = view log
  onList_blank : ∀ log, onList blank log = view log

/-- A client that shows a log shows a longer one when it receives it. A client need not: it may
    ignore what it cannot use. -/
def Board.Follows {β π δ : Type*} (board : Board β π δ) : Prop :=
  ∀ log more, board.onList (board.view log) (log ++ more) = board.view (log ++ more)

namespace Exchange

inductive Request (β : Type*) where
  | post (b : β)
  | refresh

/-- An answer under way: a receipt, the log as it was after so many items, or a refusal. -/
inductive Reply where
  | receipt
  | listed (count : Nat)
  | refused

inductive Event (β π : Type*) where
  | idle
  | post (b : β)
  | other (p : π)
  | take (i : Nat)
  | refuse (i : Nat)
  | deliver (i : Nat)

end Exchange

/-- The client's requests and the server's answers that are under way, the log, and what the
    client shows. -/
structure Exchange (β π δ : Type*) where
  requests : List (Exchange.Request β)
  log : List π
  replies : List Exchange.Reply
  shown : δ

namespace Exchange

variable {β π δ : Type*} (board : Board β π δ)

def serve (s : Exchange β π δ) : Request β → Exchange β π δ
  | .post b => { s with log := s.log ++ [board.entry b], replies := s.replies ++ [.receipt] }
  | .refresh => { s with replies := s.replies ++ [.listed s.log.length] }

def receive (s : Exchange β π δ) : Reply → Exchange β π δ
  | .receipt =>
    { s with requests := s.requests ++ [.refresh], shown := board.onReceipt s.shown }
  | .listed count => { s with shown := board.onList s.shown (s.log.take count) }
  | .refused => s

def step (s : Exchange β π δ) : Event β π → Exchange β π δ
  | .idle => s
  | .post b => { s with requests := s.requests ++ [.post b] }
  | .other p => { s with log := s.log ++ [p] }
  | .take i =>
    match s.requests[i]? with
    | some r => serve board { s with requests := s.requests.eraseIdx i } r
    | none => s
  | .refuse i =>
    match s.requests[i]? with
    | some _ => { s with requests := s.requests.eraseIdx i, replies := s.replies ++ [.refused] }
    | none => s
  | .deliver i =>
    match s.replies[i]? with
    | some r => receive board { s with replies := s.replies.eraseIdx i } r
    | none => s

variable {board} {s : Exchange β π δ}

/-- What an event does. -/
inductive Moves (board : Board β π δ) (s : Exchange β π δ) : Event β π → Exchange β π δ → Prop
  | idle : Moves board s .idle s
  | post (b : β) : Moves board s (.post b) { s with requests := s.requests ++ [.post b] }
  | other (p : π) : Moves board s (.other p) { s with log := s.log ++ [p] }
  | took (i : Nat) (r : Request β) : s.requests[i]? = some r →
      Moves board s (.take i) (serve board { s with requests := s.requests.eraseIdx i } r)
  | refused (i : Nat) (r : Request β) : s.requests[i]? = some r →
      Moves board s (.refuse i)
        { s with requests := s.requests.eraseIdx i, replies := s.replies ++ [.refused] }
  | delivered (i : Nat) (r : Reply) : s.replies[i]? = some r →
      Moves board s (.deliver i) (receive board { s with replies := s.replies.eraseIdx i } r)
  | nothing (e : Event β π) : (∃ i, e = .take i ∨ e = .refuse i ∨ e = .deliver i) →
      Moves board s e s

theorem moves (board : Board β π δ) (s : Exchange β π δ) (e : Event β π) :
    Moves board s e (step board s e) := by
  cases e with
  | idle => exact .idle
  | post b => exact .post b
  | other p => exact .other p
  | take i =>
    cases h : s.requests[i]? with
    | none => rw [step, h]; exact .nothing _ ⟨i, .inl rfl⟩
    | some r => rw [step, h]; exact .took i r h
  | refuse i =>
    cases h : s.requests[i]? with
    | none => rw [step, h]; exact .nothing _ ⟨i, .inr (.inl rfl)⟩
    | some r => rw [step, h]; exact .refused i r h
  | deliver i =>
    cases h : s.replies[i]? with
    | none => rw [step, h]; exact .nothing _ ⟨i, .inr (.inr rfl)⟩
    | some r => rw [step, h]; exact .delivered i r h

/-! ## Nothing of the client's is lost or doubled -/

/-- What the server will log of a request. -/
def Request.entry (board : Board β π δ) : Request β → Option π
  | .post b => some (board.entry b)
  | .refresh => none

/-- What the server will log of an item that is posted by the event. -/
def Event.entry (board : Board β π δ) : Event β π → Option π
  | .post b => some (board.entry b)
  | .idle | .other _ | .take _ | .refuse _ | .deliver _ => none

def Event.isRefusal : Event β π → Bool
  | .refuse _ => true
  | _ => false

/-- An item that someone else posts is not the client's. -/
def Event.Foreign (board : Board β π δ) (e : Event β π) : Prop :=
  ∀ p, e = .other p → board.own p = false

/-- The client's items that the server has. -/
def mine (board : Board β π δ) (s : Exchange β π δ) : List π := s.log.filter board.own

/-- Those that are on their way to it. -/
def waiting (board : Board β π δ) (s : Exchange β π δ) : List π :=
  s.requests.filterMap (Request.entry board)

/-- Both. -/
def held (board : Board β π δ) (s : Exchange β π δ) : List π := s.mine board ++ s.waiting board

theorem perm_eraseIdx {α : Type*} {xs : List α} {i : Nat} {x : α} (h : xs[i]? = some x) :
    xs.Perm (x :: xs.eraseIdx i) := by
  obtain ⟨hi, rfl⟩ := List.getElem?_eq_some_iff.mp h
  exact (List.getElem_cons_eraseIdx_perm hi).symm

/-- A request that is taken or refused is one of those that waited. -/
theorem waiting_perm (board : Board β π δ) {i : Nat} {r : Request β}
    (h : s.requests[i]? = some r) :
    (s.waiting board).Perm
      ((r.entry board).toList ++ (s.requests.eraseIdx i).filterMap (Request.entry board)) := by
  have hperm := (perm_eraseIdx h).filterMap (Request.entry board)
  rw [List.filterMap_cons] at hperm
  unfold waiting
  cases hr : r.entry board with
  | none => rwa [hr] at hperm
  | some p => rwa [hr] at hperm

/-- A request that is served is no longer waiting, and its item is in the log. -/
theorem held_serve (board : Board β π δ) (s : Exchange β π δ) (r : Request β) :
    (held board (serve board s r)).Perm (held board s ++ (r.entry board).toList) := by
  cases r with
  | post b =>
    have hmine : mine board (serve board s (.post b)) = s.mine board ++ [board.entry b] := by
      simp [mine, serve, board.own_entry]
    rw [held, hmine, held, Request.entry, Option.toList_some, List.append_assoc, List.append_assoc]
    exact List.perm_append_comm.append_left _
  | refresh => rw [Request.entry, Option.toList_none, List.append_nil]; rfl

/-- An answer brings no item, and neither does what the client then asks for. -/
theorem held_receive (board : Board β π δ) (s : Exchange β π δ) (r : Reply) :
    held board (receive board s r) = held board s := by
  cases r with
  | receipt => simp [held, mine, waiting, receive, Request.entry]
  | listed count => rfl
  | refused => rfl

/-- **An item is sent, or moves on, or is refused.** -/
theorem conserves {t : Exchange β π δ} {e : Event β π} (h : Moves board s e t)
    (hforeign : e.Foreign board) :
    ∃ lost, (held board t ++ lost).Perm (held board s ++ (e.entry board).toList) ∧
      lost.length ≤ if e.isRefusal then 1 else 0 := by
  cases h with
  | idle => exact ⟨[], by simp [Event.entry], by simp⟩
  | post b =>
    refine ⟨[], ?_, by simp⟩
    simp [held, mine, waiting, Request.entry, Event.entry]
  | other p =>
    refine ⟨[], ?_, by simp⟩
    simp [held, mine, waiting, Event.entry, hforeign p rfl]
  | took i r hr =>
    refine ⟨[], ?_, by simp⟩
    have hserve := held_serve board { s with requests := s.requests.eraseIdx i } r
    rw [List.append_nil, Event.entry, Option.toList_none, List.append_nil]
    refine hserve.trans ?_
    rw [held, held, List.append_assoc]
    exact ((waiting_perm board hr).trans List.perm_append_comm).symm.append_left _
  | refused i r hr =>
    refine ⟨(r.entry board).toList, ?_, ?_⟩
    · rw [Event.entry, Option.toList_none, List.append_nil, held, held, List.append_assoc]
      exact ((waiting_perm board hr).trans List.perm_append_comm).symm.append_left _
    · cases r <;> simp [Request.entry, Event.isRefusal]
  | delivered i r hr =>
    refine ⟨[], ?_, by simp⟩
    rw [held_receive]
    simp [Event.entry, held, mine, waiting]
  | nothing _ he =>
    obtain ⟨i, rfl | rfl | rfl⟩ := he <;> exact ⟨[], by simp [Event.entry], by simp⟩

/-! ## What is shown was the log once -/

/-- What is shown, once it is something, and the logs under way are the log after some number of
    its items. -/
structure Snapshots (board : Board β π δ) (s : Exchange β π δ) : Prop where
  shown : s.shown = board.blank ∨
    ∃ n ≤ s.log.length, s.shown = board.view (s.log.take n)
  listed : ∀ n, .listed n ∈ s.replies → n ≤ s.log.length

/-- A longer log has the same beginnings. -/
theorem Snapshots.of_append {t : Exchange β π δ} (hs : Snapshots board s) {items : List π}
    (hlog : t.log = s.log ++ items) (hshown : t.shown = s.shown)
    (hlisted : ∀ n, .listed n ∈ t.replies → .listed n ∈ s.replies ∨ n = s.log.length) :
    Snapshots board t := by
  have hlen : s.log.length ≤ t.log.length := by simp [hlog]
  constructor
  · refine hs.shown.imp (fun h => hshown.trans h) fun ⟨n, hn, h⟩ => ⟨n, Nat.le_trans hn hlen, ?_⟩
    rw [hshown, h, hlog, List.take_append_of_le_length hn]
  · intro n hn
    rcases hlisted n hn with hold | rfl
    · exact Nat.le_trans (hs.listed n hold) hlen
    · exact hlen

theorem Snapshots.serve (hs : Snapshots board s) (r : Request β) :
    Snapshots board (serve board s r) := by
  cases r with
  | post b =>
    refine hs.of_append rfl rfl fun n hn => .inl ?_
    simpa [Exchange.serve] using hn
  | refresh =>
    refine hs.of_append (List.append_nil _).symm rfl fun n hn => ?_
    simpa [Exchange.serve] using hn

theorem Snapshots.receive (hs : Snapshots board s) {r : Reply}
    (hr : ∀ n, r = .listed n → n ≤ s.log.length) : Snapshots board (receive board s r) := by
  cases r with
  | receipt =>
    refine ⟨?_, hs.listed⟩
    rcases board.onReceipt_eq s.shown with h | h
    · simp only [Exchange.receive, h]
      exact hs.shown
    · exact .inl h
  | listed count =>
    refine ⟨?_, hs.listed⟩
    rcases board.onList_eq s.shown (s.log.take count) with h | h
    · simp only [Exchange.receive, h]
      exact hs.shown
    · exact .inr ⟨count, hr count rfl, h⟩
  | refused => exact hs

theorem Snapshots.moves {t : Exchange β π δ} {e : Event β π} (hs : Snapshots board s)
    (h : Moves board s e t) : Snapshots board t := by
  cases h with
  | idle => exact hs
  | post b => exact ⟨hs.shown, hs.listed⟩
  | other p => exact hs.of_append rfl rfl fun n hn => .inl hn
  | took i r _ =>
    exact Snapshots.serve (s := { s with requests := s.requests.eraseIdx i })
      ⟨hs.shown, hs.listed⟩ r
  | refused i r _ =>
    refine ⟨hs.shown, fun n hn => hs.listed n ?_⟩
    simpa using hn
  | delivered i r hr =>
    refine Snapshots.receive (s := { s with replies := s.replies.eraseIdx i })
      ⟨hs.shown, fun n hn => ?_⟩ fun n hn => ?_
    · exact hs.listed n (List.mem_of_mem_eraseIdx hn)
    · exact hs.listed n (hn ▸ List.mem_of_getElem? hr)
  | nothing _ _ => exact hs

/-! ## What is shown does not fall behind -/

/-- The items after the first `n` are other clients'. -/
def Fresh (board : Board β π δ) (s : Exchange β π δ) (n : Nat) : Prop :=
  ∀ p ∈ s.log.drop n, board.own p = false

/-- Something under way will bring a log with every item of the client. -/
def News (board : Board β π δ) (s : Exchange β π δ) : Prop :=
  .receipt ∈ s.replies ∨ .refresh ∈ s.requests ∨ ∃ n, .listed n ∈ s.replies ∧ Fresh board s n

/-- What is shown is the log after its first `n` items, and no log under way is shorter. -/
structure Shows (board : Board β π δ) (s : Exchange β π δ) (n : Nat) : Prop where
  le : n ≤ s.log.length
  shown : s.shown = board.view (s.log.take n)
  least : ∀ m, .listed m ∈ s.replies → n ≤ m

/-- Earlier logs are under way before later ones. -/
def Ordered (replies : List Reply) : Prop :=
  replies.Pairwise fun r r' => ∀ m n, r = .listed m → r' = .listed n → m ≤ n

/-- No earlier log is under way when a log is delivered. -/
def InOrder (s : Exchange β π δ) : Event β π → Prop
  | .deliver i =>
    ∀ n, s.replies[i]? = some (.listed n) → ∀ r ∈ s.replies.take i, ∀ m, r ≠ .listed m
  | _ => True

/-- What keeps the client from falling behind. -/
structure Current (board : Board β π δ) (s : Exchange β π δ) : Prop where
  listed : ∀ n, .listed n ∈ s.replies → n ≤ s.log.length
  ordered : Ordered s.replies
  shown : s.shown = board.blank ∨ ∃ n, Shows board s n
  current : News board s ∨ ∃ n, Shows board s n ∧ Fresh board s n

theorem Fresh.mono {m n : Nat} (h : Fresh board s m) (hmn : m ≤ n) : Fresh board s n :=
  fun p hp => h p (List.drop_subset_drop_left _ hmn hp)

theorem fresh_length (board : Board β π δ) (s : Exchange β π δ) : Fresh board s s.log.length := by
  intro p hp
  rw [List.drop_length] at hp
  cases hp

theorem Fresh.append {t : Exchange β π δ} {n : Nat} (h : Fresh board s n)
    (hn : n ≤ s.log.length) {items : List π} (hlog : t.log = s.log ++ items)
    (hother : ∀ p ∈ items, board.own p = false) : Fresh board t n := by
  intro p hp
  rw [hlog, List.drop_append_of_le_length hn, List.mem_append] at hp
  rcases hp with hp | hp
  · exact h p hp
  · exact hother p hp

theorem Shows.append {t : Exchange β π δ} {n : Nat} (h : Shows board s n) {items : List π}
    (hlog : t.log = s.log ++ items) (hshown : t.shown = s.shown)
    (hleast : ∀ m, .listed m ∈ t.replies → n ≤ m) : Shows board t n := by
  refine ⟨?_, ?_, hleast⟩
  · rw [hlog, List.length_append]
    exact Nat.le_trans h.le (Nat.le_add_right _ _)
  · rw [hshown, h.shown, hlog, List.take_append_of_le_length h.le]

theorem Ordered.append {replies : List Reply} (h : Ordered replies) {r : Reply}
    (hlast : ∀ m n, .listed m ∈ replies → r = .listed n → m ≤ n) : Ordered (replies ++ [r]) := by
  refine List.pairwise_append.mpr ⟨h, List.pairwise_singleton _ _, ?_⟩
  rintro r' hr' x hx m n rfl hr
  rw [List.mem_singleton] at hx
  subst hx
  exact hlast m n hr' hr

/-- What is left after a delivery. -/
theorem mem_of_delivered {i : Nat} {r r' : Reply} (h : s.replies[i]? = some r)
    (hr' : r' ∈ s.replies) : r' = r ∨ r' ∈ s.replies.eraseIdx i :=
  List.mem_cons.mp ((perm_eraseIdx h).mem_iff.mp hr')

/-- In order, the log that is delivered is the shortest. -/
theorem le_of_inOrder (h : Ordered s.replies) {i n : Nat} (hi : s.replies[i]? = some (.listed n))
    (horder : InOrder s (.deliver i : Event β π)) {m : Nat}
    (hm : .listed m ∈ s.replies.eraseIdx i) : n ≤ m := by
  obtain ⟨hlt, hget⟩ := List.getElem?_eq_some_iff.mp hi
  have hsplit : s.replies = s.replies.take i ++ .listed n :: s.replies.drop (i + 1) := by
    rw [← hget, List.getElem_cons_drop, List.take_append_drop]
  rw [List.eraseIdx_eq_take_drop_succ, List.mem_append] at hm
  rcases hm with hbefore | hafter
  · exact absurd rfl (horder n hi _ hbefore m)
  · rw [Ordered, hsplit, List.pairwise_append] at h
    exact (List.pairwise_cons.mp h.2.1).1 _ hafter n m rfl rfl

/-- An event that loses no news, brings no log, and leaves what is shown. -/
theorem Current.keep {t : Exchange β π δ} (hs : Current board s)
    (hrequests : ∀ r ∈ s.requests, r ∈ t.requests)
    (hreplies : ∀ r ∈ s.replies, r ≠ .refused → r ∈ t.replies)
    (hsub : t.replies.Sublist s.replies) {items : List π} (hlog : t.log = s.log ++ items)
    (hother : ∀ p ∈ items, board.own p = false) (hshown : t.shown = s.shown) :
    Current board t := by
  have hshows : ∀ n, Shows board s n → Shows board t n := fun n h =>
    h.append hlog hshown fun m hm => h.least m (hsub.mem hm)
  refine ⟨fun n hn => ?_, hs.ordered.sublist hsub, ?_, ?_⟩
  · rw [hlog, List.length_append]
    exact Nat.le_trans (hs.listed n (hsub.mem hn)) (Nat.le_add_right _ _)
  · exact hs.shown.imp (fun h => hshown.trans h) fun ⟨n, h⟩ => ⟨n, hshows n h⟩
  · rcases hs.current with (hreceipt | hrefresh | ⟨n, hn, hfresh⟩) | ⟨n, h, hfresh⟩
    · exact .inl (.inl (hreplies _ hreceipt fun h => by cases h))
    · exact .inl (.inr (.inl (hrequests _ hrefresh)))
    · refine .inl (.inr (.inr ⟨n, hreplies _ hn fun h => (by cases h), ?_⟩))
      exact hfresh.append (hs.listed n hn) hlog hother
    · exact .inr ⟨n, hshows n h, hfresh.append h.le hlog hother⟩

/-- A log that is delivered in order is shown. -/
theorem Current.shows (hs : Current board s) (hfollows : board.Follows) {i n : Nat}
    (hreply : s.replies[i]? = some (.listed n))
    (horder : InOrder s (.deliver i : Event β π)) :
    Shows board (receive board { s with replies := s.replies.eraseIdx i } (.listed n)) n := by
  have hmem := List.mem_of_getElem? hreply
  refine ⟨hs.listed n hmem, ?_, fun m hm => le_of_inOrder hs.ordered hreply horder hm⟩
  show board.onList s.shown (s.log.take n) = board.view (s.log.take n)
  rcases hs.shown with hblank | ⟨k, hk⟩
  · rw [hblank, board.onList_blank]
  · have hsplit : s.log.take n = s.log.take k ++ (s.log.take n).drop k := by
      conv_lhs => rw [← List.take_append_drop k (s.log.take n), List.take_take,
        Nat.min_eq_left (hk.least n hmem)]
    rw [hk.shown, hsplit, hfollows]

/-- What arrives brings the news, or leaves them under way. -/
theorem Current.receive (hs : Current board s) (hfollows : board.Follows) {i : Nat} {r : Reply}
    (hreply : s.replies[i]? = some r) (horder : InOrder s (.deliver i : Event β π)) :
    Current board (receive board { s with replies := s.replies.eraseIdx i } r) := by
  have hsub := List.eraseIdx_sublist s.replies i
  cases r with
  | receipt =>
    refine ⟨fun n hn => hs.listed n (hsub.mem hn), hs.ordered.sublist hsub, ?_, ?_⟩
    · show board.onReceipt s.shown = board.blank ∨ _
      rcases board.onReceipt_eq s.shown with h | h
      · refine hs.shown.imp (fun hblank => h.trans hblank) fun ⟨n, hn⟩ => ⟨n, hn.le, ?_, ?_⟩
        · exact h.trans hn.shown
        · exact fun m hm => hn.least m (hsub.mem hm)
      · exact .inl h
    · exact .inl (.inr (.inl (List.mem_append_right _ (List.mem_singleton.mpr rfl))))
  | listed n =>
    have hshows := hs.shows hfollows hreply horder
    refine ⟨fun m hm => hs.listed m (hsub.mem hm), hs.ordered.sublist hsub, .inr ⟨n, hshows⟩, ?_⟩
    rcases hs.current with (hreceipt | hrefresh | ⟨m, hm, hfresh⟩) | ⟨k, hk, hfresh⟩
    · exact .inl (.inl ((mem_of_delivered hreply hreceipt).resolve_left fun h => by cases h))
    · exact .inl (.inr (.inl hrefresh))
    · rcases mem_of_delivered hreply hm with h | h
      · cases h
        exact .inr ⟨n, hshows, hfresh⟩
      · exact .inl (.inr (.inr ⟨m, h, hfresh⟩))
    · exact .inr ⟨n, hshows, hfresh.mono (hk.least n (List.mem_of_getElem? hreply))⟩
  | refused =>
    refine hs.keep (fun r hr => hr) (fun r hr hne => ?_) hsub (List.append_nil _).symm
      (by simp) rfl
    exact (mem_of_delivered hreply hr).resolve_left hne

/-- A request that is taken brings news. -/
theorem Current.serve (hs : Current board s) (i : Nat) (r : Request β) :
    Current board (serve board { s with requests := s.requests.eraseIdx i } r) := by
  cases r with
  | post b =>
    have hlisted : ∀ n, .listed n ∈ s.replies ++ [.receipt] → .listed n ∈ s.replies := by
      intro n hn
      simpa using hn
    refine ⟨fun n hn => ?_, ?_, ?_, .inl (.inl ?_)⟩
    · show n ≤ (s.log ++ [board.entry b]).length
      rw [List.length_append]
      exact Nat.le_trans (hs.listed n (hlisted n hn)) (Nat.le_add_right _ _)
    · exact hs.ordered.append fun m n _ h => by cases h
    · refine hs.shown.imp id fun ⟨n, hn⟩ => ⟨n, hn.append rfl rfl fun m hm => ?_⟩
      exact hn.least m (hlisted m hm)
    · exact List.mem_append_right _ (List.mem_singleton.mpr rfl)
  | refresh =>
    have hlisted : ∀ n, .listed n ∈ s.replies ++ [.listed s.log.length] →
        .listed n ∈ s.replies ∨ n = s.log.length := by
      intro n hn
      simpa using hn
    refine ⟨fun n hn => ?_, ?_, ?_, .inl (.inr (.inr ⟨s.log.length, ?_, ?_⟩))⟩
    · rcases hlisted n hn with h | rfl
      · exact hs.listed n h
      · exact Nat.le_refl _
    · refine hs.ordered.append fun m n hm h => ?_
      cases h
      exact hs.listed m hm
    · refine hs.shown.imp id fun ⟨n, hn⟩ => ⟨n, hn.le, hn.shown, fun m hm => ?_⟩
      rcases hlisted m hm with h | rfl
      · exact hn.least m h
      · exact hn.le
    · exact List.mem_append_right _ (List.mem_singleton.mpr rfl)
    · exact fresh_length board s

/-- **Deliveries in order never let what is shown fall behind.** -/
theorem Current.moves {t : Exchange β π δ} {e : Event β π} (hs : Current board s)
    (hfollows : board.Follows) (h : Moves board s e t) (hforeign : e.Foreign board)
    (horder : InOrder s e) (haccept : e.isRefusal = false) : Current board t := by
  cases h with
  | idle => exact hs
  | post b =>
    exact hs.keep (fun r hr => List.mem_append_left _ hr) (fun r hr _ => hr)
      (List.Sublist.refl _) (List.append_nil _).symm (by simp) rfl
  | other p =>
    refine hs.keep (fun r hr => hr) (fun r hr _ => hr) (List.Sublist.refl _) rfl ?_ rfl
    intro q hq
    rw [List.mem_singleton] at hq
    exact hq ▸ hforeign p rfl
  | took i r _ => exact hs.serve i r
  | refused i r _ => cases haccept
  | delivered i r hr => exact hs.receive hfollows hr horder
  | nothing _ _ => exact hs

/-- A client that has shown nothing and has asked for the log. -/
theorem current_of_refresh (hshown : s.shown = board.blank) (hreplies : s.replies = [])
    (hrefresh : .refresh ∈ s.requests) : Current board s := by
  have hnone : ∀ r, r ∉ s.replies := by simp [hreplies]
  refine ⟨fun n hn => absurd hn (hnone _), ?_, .inl hshown, .inl (.inr (.inl hrefresh))⟩
  rw [hreplies]
  exact List.Pairwise.nil

/-- **When nothing is under way any more, what is shown has every item of the client** that the
    server has: those that are not in it are other clients'. -/
theorem Current.quiet (hs : Current board s) (hrequests : s.requests = [])
    (hreplies : s.replies = []) :
    ∃ n, s.shown = board.view (s.log.take n) ∧ Fresh board s n := by
  rcases hs.current with (h | h | ⟨n, h, -⟩) | ⟨n, hn, hfresh⟩
  · rw [hreplies] at h
    cases h
  · rw [hrequests] at h
    cases h
  · rw [hreplies] at h
    cases h
  · exact ⟨n, hn.shown, hfresh⟩

end Exchange
end Lib
