import KBucket.CommentThread
import KBucket.RankScreen

/-!
# Votes under way

The ranking with its table, the server and what is under way between them. A vote is taken by the
server and answered by a receipt, on which the screen empties its list and asks for the ranking
again. Requests are taken in any order, answers are delivered in any order, and other users vote
at any time; in between the table reloads and asks for cells, and buttons of cells on display are
pressed.

The server may refuse a request (a status other than 200). A request that is lost ends the
process, as in `CommentThread`.
-/

namespace KBucket

open Lib

/-- What the server answers to the user of this phone: the ranking once it has taken some votes,
    and its answers as they reach the screen. -/
structure RankServer where
  ranking : List Post → List BucketRank
  answer : List Post → Json
  receipt : Json
  refusal : Option Json

/-- The answers can be read: a ranking as the buckets that it lists, a receipt as a valid one, and
    a refusal as far as the screen reads it. An answer that cannot be read ends the process; on a
    receipt that is not valid the screen does not ask for the ranking. -/
structure RankServer.Readable [Platform] (server : RankServer) : Prop where
  answer_lists : ∀ posted, Json.Lists "bucketList" RankListView.bucketRank
    (some (server.answer posted)) (server.ranking posted)
  receipt_valid : Json.isValid (some server.receipt) = .ok true
  refusal_reads : Returns (Json.isValid server.refusal)

/-- A ranking that lists a bucket is not followed by an empty one, which the screen would pass
    over. -/
def RankServer.Stays (server : RankServer) : Prop :=
  ∀ posted more, server.ranking posted ≠ [] → server.ranking (posted ++ more) ≠ []

/-- `screen.view.requests` are the requests under way, and `posted` are the votes that the server
    has taken. -/
structure RankExchange where
  screen : RankScreen
  posted : List Post
  replies : List Reply := []

namespace RankExchange

inductive Event where
  | reload
  | cell (row : Nat)
  | press (row : Nat) (button : RankButton)
  | other (body : String)
  | take (i : Nat)
  | refuse (i : Nat)
  | lose (i : Nat)
  | deliver (i : Nat)
  deriving DecidableEq, Repr

/-- The screen when it has been opened, and the server as it is then. -/
def opened (defaults : UserDefaults) (isConnect : Bool) (posted : List Post) : RankExchange where
  screen := .load defaults isConnect
  posted := posted

def requests (s : RankExchange) : List HttpRequest := s.screen.view.requests

/-- The server has taken the request, or refused it: it is no longer under way. -/
def taken (s : RankExchange) (i : Nat) : RankExchange :=
  { s with screen := { s.screen with
      view := { s.screen.view with requests := s.requests.eraseIdx i } } }

def reply (s : RankExchange) (r : Reply) : RankExchange := { s with replies := s.replies ++ [r] }

/-- The server serves a request. -/
def serve (s : RankExchange) (request : HttpRequest) : RankExchange :=
  if request.id = ConstHTTP.RANK_UPDATE_COMMENT then
    reply { s with posted := s.posted ++ [⟨true, request.data⟩] } .inserted
  else s.reply (.listed s.posted.length)

/-- An answer as it reaches the screen. -/
def response (server : RankServer) (s : RankExchange) : Reply → RankScreen.Event
  | .inserted =>
    .response ConstHTTP.HTTP_OK ConstHTTP.RANK_UPDATE_COMMENT (some server.receipt)
  | .listed count =>
    .response ConstHTTP.HTTP_OK ConstHTTP.RANK_LIST (some (server.answer (s.posted.take count)))
  | .refused id => .response ConstHTTP.HTTP_FAIL id server.refusal

/-- The screen takes a step. -/
def onScreen [Platform] (s : RankExchange) (event : RankScreen.Event) :
    Except Trap RankExchange := do
  let screen ← s.screen.step event
  return { s with screen }

def step [Platform] (server : RankServer) (s : RankExchange) : Event → Except Trap RankExchange
  | .reload => s.onScreen .reload
  | .cell row => s.onScreen (.cell row)
  | .press row button => s.onScreen (.press row button)
  | .other body => .ok { s with posted := s.posted ++ [⟨false, body⟩] }
  | .take i =>
    match s.requests[i]? with
    | some request => .ok ((s.taken i).serve request)
    | none => .ok s
  | .refuse i =>
    match s.requests[i]? with
    | some request => .ok ((s.taken i).reply (.refused request.id))
    | none => .ok s
  | .lose i =>
    match s.requests[i]? with
    | some _ => .error .unwrappedNil
    | none => .ok s
  | .deliver i =>
    match s.replies[i]? with
    | some r => onScreen { s with replies := s.replies.eraseIdx i } (s.response server r)
    | none => .ok s

end RankExchange
end KBucket
