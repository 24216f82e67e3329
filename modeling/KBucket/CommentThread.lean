import KBucket.Lib.Run
import KBucket.View.ShareDetailForm

/-!
# The comments on a shared bucket

The detail screen of a shared bucket, the server and what is under way between them. A request is
taken by the server, which keeps the comments in the order in which it takes them, and its answer
travels back; requests are taken in any order, answers are delivered in any order, and other
users comment at any time. A comment sent here is answered by a receipt, after which the screen
asks for the list again.

The server may refuse a request (a status other than 200). A request that is lost ends the
process: its task has no data to unwrap.
-/

namespace KBucket

open Lib

/-- A comment that the server has taken: the body of its request, and whether it came from this
    screen. -/
structure Post where
  mine : Bool
  body : String
  deriving DecidableEq, Repr

/-- What the server answers: the comments that it lists once it has taken some, and its answers
    as they reach the screen. -/
structure CommentServer where
  comments : List Post → List Comment
  answer : List Post → Json
  receipt : Json
  refusal : Option Json

/-- The answers can be read: a list as the comments that it lists, a receipt and a refusal as far
    as the screen reads them. An answer that cannot be read ends the process. -/
structure CommentServer.Readable [Platform] (server : CommentServer) : Prop where
  answer_lists : ∀ posted, Json.Lists "CommentVOList" ShareDetailView.comment
    (some (server.answer posted)) (server.comments posted)
  receipt_reads : Returns (Json.isValid (some server.receipt))
  refusal_reads : Returns (Json.isValid server.refusal)

/-- An answer under way: a receipt, the list as it was after so many comments, or a refusal. -/
inductive Reply where
  | inserted
  | listed (count : Nat)
  | refused (id : Int)
  deriving DecidableEq, Repr

/-- `form.view.requests` are the requests under way. -/
structure CommentThread (Image : Type) where
  form : ShareDetailForm Image
  posted : List Post
  replies : List Reply := []

namespace CommentThread

variable {Image : Type}

inductive Event where
  | send (text : String)
  | other (body : String)
  | take (i : Nat)
  | refuse (i : Nat)
  | lose (i : Nat)
  | deliver (i : Nat)
  deriving DecidableEq, Repr

def requests (s : CommentThread Image) : List HttpRequest := s.form.view.requests

def withView (s : CommentThread Image) (view : ShareDetailView) : CommentThread Image :=
  { s with form := { s.form with view } }

/-- The server has taken the request, or refused it: it is no longer under way. -/
def taken (s : CommentThread Image) (i : Nat) : CommentThread Image :=
  s.withView { s.form.view with requests := s.requests.eraseIdx i }

def reply (s : CommentThread Image) (r : Reply) : CommentThread Image :=
  { s with replies := s.replies ++ [r] }

/-- The server serves a request. -/
def serve (s : CommentThread Image) (request : HttpRequest) : CommentThread Image :=
  if request.id = ConstHTTP.INSERT_COMMENT then
    reply { s with posted := s.posted ++ [⟨true, request.data⟩] } .inserted
  else s.reply (.listed s.posted.length)

/-- The screen receives an answer. -/
def receive [Platform] (server : CommentServer) (s : CommentThread Image) (r : Reply) :
    Except Trap ShareDetailView :=
  match r with
  | .inserted =>
    s.form.view.onHttpReceive ConstHTTP.HTTP_OK ConstHTTP.INSERT_COMMENT (some server.receipt)
  | .listed count =>
    s.form.view.onHttpReceive ConstHTTP.HTTP_OK ConstHTTP.COMMENT_LIST
      (some (server.answer (s.posted.take count)))
  | .refused id => s.form.view.onHttpReceive ConstHTTP.HTTP_FAIL id server.refusal

def step [Platform] (swift : StringUtils.Characters) (hash : HashOrder) (server : CommentServer)
    (s : CommentThread Image) : Event → Except Trap (CommentThread Image)
  | .send text => do
    let form ← { s.form with etComment := text }.onClick swift hash
    return { s with form }
  | .other body => .ok { s with posted := s.posted ++ [⟨false, body⟩] }
  | .take i =>
    match s.requests[i]? with
    | some request => .ok ((s.taken i).serve request)
    | none => .ok s
  | .refuse i =>
    match s.requests[i]? with
    | some request => .ok ((s.taken i).reply (.refused request.id))
    | none => .ok s
  | .lose i =>
    match s.requests[i]? with
    | some _ => .error .unwrappedNil
    | none => .ok s
  | .deliver i =>
    match s.replies[i]? with
    | some r => do
      let view ← receive server s r
      return withView { s with replies := s.replies.eraseIdx i } view
    | none => .ok s

end CommentThread
end KBucket
