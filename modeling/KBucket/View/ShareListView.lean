import KBucket.Bucket
import KBucket.Json
import KBucket.Managers.Http
import KBucket.Utils.ContextUtils

/-!
# `ShareListView.swift`

The buckets that users share, one category at a time. A tap on a category asks the server for its
list; the answer replaces the list and queues a reload of the table. `requests` are the requests
that are under way, in the order in which they were sent.
-/

namespace KBucket

structure Category where
  mCategoryCode : Int := 0
  mCategoryName : String := ""
  deriving DecidableEq, Repr

/-- The buttons of the nine categories. -/
inductive CategoryButton where
  | btCategory0 | btCategory1 | btCategory2 | btCategory3 | btCategory4
  | btCategory5 | btCategory6 | btCategory7 | btCategory8
  deriving DecidableEq, Repr

structure ShareCustomCell where
  etEdit : String := ""
  mData : String := ""
  deriving DecidableEq, Repr

/-- What a `ShareDetailView` is given when it is presented: its `idx`, and the fields of its
    `mBucket` that are set. -/
structure ShareDetail where
  idx : String
  mIdx : Int
  mContent : String
  mDate : String
  mImageURl : String
  deriving DecidableEq, Repr

structure ShareListView where
  mCategoryList : List Category := []
  mBucketDataList : List Bucket := []
  requests : List HttpRequest := []
  reloads : Nat := 0
  toasts : List String := []
  presented : List ShareDetail := []

namespace ShareListView

/-- The messages of the screen; `SET_CATEGORY` is sent and not handled. -/
inductive Message where
  | TOAST_MASSEGE
  | SET_CATEGORY
  | SERVER_LOADING_FAIL
  | SHARE_BUCKET_LIST
  | SET_BUCKETLIST
  deriving DecidableEq, Repr

def toast (v : ShareListView) (message : String) : ShareListView :=
  { v with toasts := v.toasts ++ [message] }

def send (v : ShareListView) (request : HttpRequest) : ShareListView :=
  { v with requests := v.requests ++ [request] }

def handleMessage (v : ShareListView) (what : Message) (obj : String) : ShareListView :=
  match what with
  | .TOAST_MASSEGE => v.toast obj
  | .SERVER_LOADING_FAIL => v.toast "server_fail_string"
  | .SHARE_BUCKET_LIST =>
    let data := if obj.length = 0 then ContextUtils.DEFULAT_SHARE_BUCKET_IDX else obj
    v.send {
      url := ContextUtils.KBUCKET_BUCKET_LIST_URL, post := true, id := ConstHTTP.BUCKET_LIST
      data := "idx=" ++ data }
  | .SET_BUCKETLIST => { v with reloads := v.reloads + 1 }
  | .SET_CATEGORY => v

/-- The message `CHECK_NETWORK`, with which `viewDidLoad` starts. -/
def checkNetwork (v : ShareListView) (isConnect : Bool) : ShareListView :=
  if isConnect = false then v.handleMessage .TOAST_MASSEGE "check_network"
  else v.handleMessage .SHARE_BUCKET_LIST "1"

def viewDidLoad (isConnect : Bool) : ShareListView := checkNetwork {} isConnect

def categoryCode : CategoryButton → String
  | .btCategory0 => "1"
  | .btCategory1 => "2"
  | .btCategory2 => "3"
  | .btCategory3 => "4"
  | .btCategory4 => "5"
  | .btCategory5 => "6"
  | .btCategory6 => "7"
  | .btCategory7 => "8"
  | .btCategory8 => "9"

def onClick (v : ShareListView) (sender : CategoryButton) (isConnect : Bool) : ShareListView :=
  if isConnect = true then v.handleMessage .SHARE_BUCKET_LIST (categoryCode sender)
  else v.handleMessage .TOAST_MASSEGE "check_network"

/-- One item of a category answer. -/
def category [Platform] (item : Json) : Except Trap Category := do
  let aObject ← Json.asObject (some item)
  let code ← Json.asInt (aObject.lookup "categoryCode")
  let name ← Json.asString (aObject.lookup "categoryName")
  return { mCategoryName := name, mCategoryCode := code }

/-- One item of a list answer. -/
def bucket [Platform] (item : Json) : Except Trap Bucket := do
  let aObject ← Json.asObject (some item)
  let mContent ← Json.asString (aObject.lookup "content")
  let mDate ← Json.asString (aObject.lookup "createDt")
  let mPhone ← Json.asString (aObject.lookup "phone")
  let mIdx ← Json.asInt (aObject.lookup "idx")
  let mImageURl ← Json.asString (aObject.lookup "imageUrl")
  let mNickName ← Json.asString (aObject.lookup "nickName")
  let mCategoryCode ← Json.asInt (aObject.lookup "categoryCode")
  let mCompleteDate ← Json.asString (aObject.lookup "createDt")
  return { mCategoryCode, mContent, mCompleteDate, mIdx, mNickName, mPhone, mImageURl, mDate }

/-- The detail screen of a bucket, as a tap on its row sets it up. -/
def shareDetail (bucket : Bucket) : ShareDetail where
  idx := toString bucket.mIdx
  mIdx := bucket.mIdx
  mContent := bucket.mContent
  mDate := bucket.mDate
  mImageURl := bucket.mImageURl

/-- `data` is what `JSONSerialization` makes of the body, and `none` where it throws. -/
def onHttpReceive [Platform] (v : ShareListView) (type actionId : Int) (data : Option Json) :
    Except Trap ShareListView := do
  let isValid ← Json.isValid data
  if actionId = ConstHTTP.CATEGORY_LIST then
    if type = ConstHTTP.HTTP_OK ∧ isValid then
      let mut v := v
      if let some (.obj jsonString) := data then
        let List ← Json.asArray (jsonString.lookup "categoryVOList")
        v := { v with mCategoryList := v.mCategoryList ++ (← List.mapM category) }
      return v.handleMessage .SET_CATEGORY ""
    else
      return v.handleMessage .SERVER_LOADING_FAIL ""
  else if actionId = ConstHTTP.BUCKET_LIST then
    if type = ConstHTTP.HTTP_OK ∧ isValid then
      let mut v := v
      if let some (.obj jsonString) := data then
        let bucketList ← Json.asArray (jsonString.lookup "bucketList")
        v := { v with mBucketDataList := ← bucketList.mapM bucket }.handleMessage .SET_BUCKETLIST ""
      return v
    else
      return v.handleMessage .SERVER_LOADING_FAIL ""
  else return v

def numberOfRowsInSection (v : ShareListView) : Nat := v.mBucketDataList.length

def cellForRowAt (v : ShareListView) (row : Nat) (cell : ShareCustomCell) :
    Except Trap ShareCustomCell := do
  let etEdit := (← arrayGet v.mBucketDataList row).mContent
  return { cell with etEdit, mData := toString row }

def receiveEventFromViewItem [Platform] (v : ShareListView) (gbn : Int) (data : String) :
    Except Trap ShareListView := do
  if gbn = 0 then
    let index ← unwrap (intOfString? data)
    let bucket ← arrayGet v.mBucketDataList index
    return { v with presented := v.presented ++ [shareDetail bucket] }
  else return v

end ShareListView
end KBucket
