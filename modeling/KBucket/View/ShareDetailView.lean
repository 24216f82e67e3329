import KBucket.Json
import KBucket.Managers.Http
import KBucket.Utils.StringUtils
import KBucket.Utils.ViewUtils

/-!
# `ShareDetailView.swift`

A shared bucket with the comments on it. After a comment has been sent the list is asked for
again, whatever the server made of the comment.
-/

namespace KBucket

structure Comment where
  mContent : String := ""
  mDate : String := ""
  mNickName : String := ""
  mIdx : Int := 0
  mBucketNo : Int := 0
  deriving DecidableEq, Repr

structure ShareDetailView where
  idx : String := ""
  mCommentList : List Comment := []
  requests : List HttpRequest := []
  reloads : Nat := 0
  toasts : List String := []
  presented : List Presented := []

namespace ShareDetailView

/-- The messages of the screen that have to do with answers. -/
inductive Message where
  | TOAST_MASSEGE
  | LOAD_COMMENT_LIST
  | SERVER_LOADING_FAIL
  | SET_COMMENT_LIST
  deriving DecidableEq, Repr

def finish (v : ShareDetailView) : ShareDetailView :=
  { v with presented := v.presented ++ [.view ContextUtils.MAIN_VIEW] }

def toast (v : ShareDetailView) (message : String) : ShareDetailView :=
  { v with toasts := v.toasts ++ [message] }

def send (v : ShareDetailView) (request : HttpRequest) : ShareDetailView :=
  { v with requests := v.requests ++ [request] }

def commentSender (idx : String) : Dictionary := Lib.Table.singleton ("idx", idx)

def handleMessage (v : ShareDetailView) (what : Message) (obj : String) :
    Except Trap ShareDetailView :=
  match what with
  | .TOAST_MASSEGE => return v.toast obj
  | .LOAD_COMMENT_LIST => do
    let data ← StringUtils.getHTTPPostSendData (commentSender v.idx)
    return v.send {
      url := ContextUtils.KBUCKET_COMMENT_URL, post := true, id := ConstHTTP.COMMENT_LIST, data }
  | .SET_COMMENT_LIST => return { v with reloads := v.reloads + 1 }
  | .SERVER_LOADING_FAIL => return (v.toast "server_fail_string").finish

/-- One item of a list answer. -/
def comment [Platform] (item : Json) : Except Trap Comment := do
  let aObject ← Json.asObject (some item)
  let mNickName ← Json.asString (aObject.lookup "nickName")
  let mDate ← Json.asString (aObject.lookup "createDt")
  let mContent ← Json.asString (aObject.lookup "content")
  let mIdx ← Json.asInt (aObject.lookup "idx")
  let mBucketNo ← Json.asInt (aObject.lookup "bucketNo")
  return { mContent, mDate, mNickName, mIdx, mBucketNo }

/-- `data` is what `JSONSerialization` makes of the body, and `none` where it throws. -/
def onHttpReceive [Platform] (v : ShareDetailView) (type actionId : Int) (data : Option Json) :
    Except Trap ShareDetailView := do
  let isValid ← Json.isValid data
  if actionId = ConstHTTP.COMMENT_LIST then
    if type = ConstHTTP.HTTP_OK ∧ isValid then
      let mut v := v
      if let some (.obj jsonString) := data then
        let List ← Json.asArray (jsonString.lookup "CommentVOList")
        v := { v with mCommentList := ← List.mapM comment }
      v.handleMessage .SET_COMMENT_LIST ""
    else
      v.handleMessage .SERVER_LOADING_FAIL ""
  else if actionId = ConstHTTP.INSERT_COMMENT then
    if type = ConstHTTP.HTTP_OK then
      v.handleMessage .LOAD_COMMENT_LIST ""
    else
      v.handleMessage .SERVER_LOADING_FAIL ""
  else return v

def numberOfRowsInSection (v : ShareDetailView) : Nat := v.mCommentList.length

end ShareDetailView
end KBucket
