import KBucket.Lib.Run
import KBucket.View.ShareListView

/-!
# The shared buckets and the server

Taps on categories and the answers to them. A request is under way until its answer is
delivered; answers are delivered in any order, and each is what the server has for the body of
its request. The number that a request was made under is all that its answer is told by.

There is no table here. What the rows show of the list is said of `ShareScreen`, where answers are
arbitrary; here it is said which list that is.
-/

namespace KBucket

open Lib

/-- `view.requests` are the requests under way. -/
structure ShareExchange where
  view : ShareListView
  lastTapped : Option CategoryButton

namespace ShareExchange

inductive Event where
  | tap (sender : CategoryButton) (isConnect : Bool)
  | deliver (i : Nat)

def load (isConnect : Bool) : ShareExchange where
  view := .viewDidLoad isConnect
  lastTapped := none

/-- `server` is what the server answers to a request with a given body. -/
def step [Platform] (server : String → Json) (s : ShareExchange) : Event → Except Trap ShareExchange
  | .tap sender isConnect =>
    .ok { view := s.view.onClick sender isConnect, lastTapped := some sender }
  | .deliver i =>
    match s.view.requests[i]? with
    | some request => do
      let answered := { s.view with requests := s.view.requests.eraseIdx i }
      let view ← answered.onHttpReceive ConstHTTP.HTTP_OK request.id (some (server request.data))
      return { s with view }
    | none => .ok s

end ShareExchange
end KBucket
