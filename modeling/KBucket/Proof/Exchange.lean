import KBucket.CommentThread
import KBucket.Lib.Exchange

/-!
# Requests and answers as an exchange

The screens that post something to the server and then ask for its list again are clients of
`Lib.Exchange`. Here their requests, the server's log and its answers are read as such: a request
is a post when it has the action id of one, and its item is its body.

Nothing here is about one of the two screens alone. They differ in what they make of an answer,
and that part is in `Proof.CommentThread` and `Proof.RankExchange`. Bodies are counted and not only
looked for (`Post.bodies`), so that two posts that read the same are two.
-/

namespace KBucket

open Lib

variable {δ : Type}

def HttpRequest.exchanged (postId : Int) (r : HttpRequest) : Exchange.Request String :=
  if r.id = postId then .post r.data else .refresh

def Reply.exchanged : Reply → Exchange.Reply
  | .inserted => .receipt
  | .listed count => .listed count
  | .refused _ => .refused

/-- What could not be read at all counts as an answer that is not valid. -/
theorem isValid_none_returns : Returns (Json.isValid none) := ⟨false, rfl⟩

namespace Post

theorem mine_own (body : String) : mine ⟨true, body⟩ = true := rfl

/-- The bodies that the server has taken from this screen. -/
def bodies (posted : List Post) : List String := (posted.filter Post.mine).map Post.body

theorem mem_of_bodies {posted : List Post} {body : String} (h : body ∈ bodies posted) :
    ⟨true, body⟩ ∈ posted := by
  obtain ⟨p, hp, rfl⟩ := List.mem_map.mp h
  obtain ⟨hp, hmine⟩ := List.mem_filter.mp hp
  rwa [← hmine]

/-- Posts after which there are only those of others. -/
theorem bodies_take {posted : List Post} {n : Nat} (h : ∀ p ∈ posted.drop n, p.mine = false) :
    bodies (posted.take n) = bodies posted := by
  have hnone : (posted.drop n).filter Post.mine = [] :=
    List.filter_eq_nil_iff.mpr fun p hp => by simp [h p hp]
  conv_rhs => rw [bodies, ← List.take_append_drop n posted, List.filter_append, hnone,
    List.append_nil]
  rfl

end Post

namespace HttpRequest

/-- The bodies of the posts under way. -/
def bodies (postId : Int) (requests : List HttpRequest) : List String :=
  (requests.filter fun r => decide (r.id = postId)).map HttpRequest.data

end HttpRequest

/-- What is under way between a screen and the server, the server's log, and what is shown. -/
def exchange (postId : Int) (requests : List HttpRequest) (posted : List Post)
    (replies : List Reply) (shown : δ) : Exchange String Post δ where
  requests := requests.map (HttpRequest.exchanged postId)
  log := posted
  replies := replies.map Reply.exchanged
  shown := shown

/-- The board of a screen: what it posts is logged as its own. -/
structure IsBoard (board : Board String Post δ) : Prop where
  entry : board.entry = fun body => ⟨true, body⟩
  own : board.own = Post.mine

namespace exchange

variable {board : Board String Post δ} {postId : Int} {requests : List HttpRequest}
  {posted : List Post} {replies : List Reply} {shown : δ}

theorem waiting_bodies (hboard : IsBoard board) :
    ((exchange postId requests posted replies shown).waiting board).map Post.body
      = HttpRequest.bodies postId requests := by
  unfold Exchange.waiting exchange HttpRequest.bodies
  induction requests with
  | nil => rfl
  | cons r requests ih =>
    rw [List.map_cons, List.filterMap_cons, List.filter_cons]
    by_cases hid : r.id = postId
    · have hentry : (r.exchanged postId).entry board = some ⟨true, r.data⟩ := by
        rw [HttpRequest.exchanged, if_pos hid, Exchange.Request.entry, hboard.entry]
      simp only [hentry, hid, decide_true, if_true, List.map_cons, ih]
    · have hentry : (r.exchanged postId).entry board = none := by
        rw [HttpRequest.exchanged, if_neg hid, Exchange.Request.entry]
      simp only [hentry, hid, decide_false, Bool.false_eq_true, if_false, ih]

/-- What the screen has posted, as far as it is not lost. -/
theorem held_bodies (hboard : IsBoard board) :
    ((exchange postId requests posted replies shown).held board).map Post.body
      = Post.bodies posted ++ HttpRequest.bodies postId requests := by
  rw [Exchange.held, List.map_append, waiting_bodies hboard, Exchange.mine, hboard.own]
  rfl

theorem bodies_conserved {x : Exchange String Post δ} {e : Exchange.Event String Post}
    (hforeign : e.Foreign board) :
    ∃ lost, (((x.step board e).held board).map Post.body ++ lost).Perm
        ((x.held board).map Post.body ++ ((e.entry board).map Post.body).toList) ∧
      lost.length ≤ if e.isRefusal then 1 else 0 := by
  obtain ⟨lost, hperm, hlen⟩ := Exchange.conserves (Exchange.moves board x e) hforeign
  refine ⟨lost.map Post.body, ?_, by rwa [List.length_map]⟩
  have hmap := hperm.map Post.body
  rw [List.map_append, List.map_append] at hmap
  refine hmap.trans (List.Perm.of_eq ?_)
  cases e.entry board <;> rfl

/-! ## The steps of the exchange -/

theorem getElem?_requests {i : Nat} {r : HttpRequest} (h : requests[i]? = some r) :
    (exchange postId requests posted replies shown).requests[i]? = some (r.exchanged postId) := by
  rw [exchange, List.getElem?_map, h]
  rfl

theorem getElem?_replies {i : Nat} {r : Reply} (h : replies[i]? = some r) :
    (exchange postId requests posted replies shown).replies[i]? = some r.exchanged := by
  rw [exchange, List.getElem?_map, h]
  rfl

/-- Nothing is taken or refused where there is no request. -/
theorem step_of_no_request {i : Nat} (h : requests[i]? = none) :
    let x := exchange postId requests posted replies shown
    x.step board (.take i) = x ∧ x.step board (.refuse i) = x := by
  have hget : (exchange postId requests posted replies shown).requests[i]? = none := by
    rw [exchange, List.getElem?_map, h]
    rfl
  constructor
  · rw [Exchange.step, hget]
  · rw [Exchange.step, hget]

theorem step_of_no_reply {i : Nat} (h : replies[i]? = none) :
    (exchange postId requests posted replies shown).step board (.deliver i)
      = exchange postId requests posted replies shown := by
  have hget : (exchange postId requests posted replies shown).replies[i]? = none := by
    rw [exchange, List.getElem?_map, h]
    rfl
  rw [Exchange.step, hget]

/-- The server logs a post that it takes. -/
theorem step_take_post (hboard : IsBoard board) {i : Nat} {r : HttpRequest}
    (h : requests[i]? = some r) (hid : r.id = postId) :
    (exchange postId requests posted replies shown).step board (.take i)
      = exchange postId (requests.eraseIdx i) (posted ++ [⟨true, r.data⟩])
          (replies ++ [.inserted]) shown := by
  rw [Exchange.step, getElem?_requests h, HttpRequest.exchanged, if_pos hid]
  simp only [Exchange.serve, exchange, hboard.entry, List.eraseIdx_map, List.map_append]
  rfl

theorem step_take_refresh {i : Nat} {r : HttpRequest} (h : requests[i]? = some r)
    (hid : r.id ≠ postId) :
    (exchange postId requests posted replies shown).step board (.take i)
      = exchange postId (requests.eraseIdx i) posted (replies ++ [.listed posted.length])
          shown := by
  rw [Exchange.step, getElem?_requests h, HttpRequest.exchanged, if_neg hid]
  simp only [Exchange.serve, exchange, List.eraseIdx_map, List.map_append]
  rfl

theorem step_refuse {i : Nat} {r : HttpRequest} (h : requests[i]? = some r) :
    (exchange postId requests posted replies shown).step board (.refuse i)
      = exchange postId (requests.eraseIdx i) posted (replies ++ [.refused r.id]) shown := by
  rw [Exchange.step, getElem?_requests h]
  simp only [exchange, List.eraseIdx_map, List.map_append]
  rfl

theorem step_deliver {i : Nat} {r : Reply} (h : replies[i]? = some r) :
    (exchange postId requests posted replies shown).step board (.deliver i)
      = Exchange.receive board (exchange postId requests posted (replies.eraseIdx i) shown)
          r.exchanged := by
  rw [Exchange.step, getElem?_replies h]
  simp only [exchange, List.eraseIdx_map]

/-- On a receipt the screen asks for the list. -/
theorem receive_receipt {q : HttpRequest} (hid : q.id ≠ postId) :
    Exchange.receive board (exchange postId requests posted replies shown) .receipt
      = exchange postId (requests ++ [q]) posted replies (board.onReceipt shown) := by
  have hq : q.exchanged postId = .refresh := if_neg hid
  simp only [Exchange.receive, exchange, List.map_append, List.map_cons, List.map_nil, hq]

theorem step_post {body : String} {q : HttpRequest} (hid : q.id = postId) (hdata : q.data = body) :
    (exchange postId requests posted replies shown).step board (.post body)
      = exchange postId (requests ++ [q]) posted replies shown := by
  have hq : q.exchanged postId = .post body := by
    rw [HttpRequest.exchanged, if_pos hid, hdata]
  simp only [Exchange.step, exchange, List.map_append, List.map_cons, List.map_nil, hq]

/-- Deliveries are in order in the exchange when they are between the screen and the server. -/
theorem inOrder {i : Nat}
    (h : ∀ n, replies[i]? = some (.listed n) → ∀ r ∈ replies.take i, ∀ m, r ≠ .listed m) :
    Exchange.InOrder (exchange postId requests posted replies shown)
      (.deliver i : Exchange.Event String Post) := by
  intro n hn r hr m hm
  have hlisted : ∀ {r : Reply} {m}, r.exchanged = .listed m → r = .listed m := by
    intro r m h
    cases r with
    | listed count => cases h; rfl
    | _ => cases h
  simp only [exchange, List.getElem?_map, Option.map_eq_some_iff] at hn
  obtain ⟨r', hr', hn⟩ := hn
  rw [exchange, ← List.map_take] at hr
  obtain ⟨q, hq, rfl⟩ := List.mem_map.mp hr
  exact h n (hlisted hn ▸ hr') q hq m (hlisted hm)

end exchange
end KBucket
