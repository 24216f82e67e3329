import KBucket.Json
import KBucket.Managers.Http
import KBucket.Utils.ViewUtils
import KBucket.View.TableCell

/-!
# `RankListView.swift`

The ranking of shared buckets, on which a user votes. Responses are handled on the network
queue; the reload of the table that one asks for is queued on the main queue, and `reloads`
counts those that are still to run.

Which bucket a press is about is read from the cell, and whether it sends a vote from the list that
is there by then, which need not be the one that the cell was made from.
-/

namespace KBucket

/-- The fields of a `BucketRank` that the screen sets. -/
structure BucketRank where
  mCategoryCode : Int := 0
  mContent : String := ""
  mIdx : Int := 0
  mBestCnt : Int := 0
  mGoodCnt : Int := 0
  mSoSoCnt : Int := 0
  mComment : Int := 0
  deriving DecidableEq, Repr

/-- How a rating button is drawn. -/
structure ButtonColor where
  backgroundColor : String
  titleColor : String
  deriving DecidableEq, Repr

structure RankCustomCell where
  etContens : String := ""
  lbBest : String := ""
  lbGood : String := ""
  lbSoso : String := ""
  mData : String := ""
  btBest : ButtonColor := ⟨"", ""⟩
  btGood : ButtonColor := ⟨"", ""⟩
  btSoso : ButtonColor := ⟨"", ""⟩
  deriving DecidableEq, Repr

/-- The three buttons of a cell. -/
inductive RankButton where
  | btBest | btGood | btSoso
  deriving DecidableEq, Repr

/-- The `gbn` that `RankCustomCell.onClick` sends. -/
def RankButton.gbn : RankButton → Int
  | .btBest => 3
  | .btGood => 2
  | .btSoso => 1

structure RankListView where
  defaults : UserDefaults
  mBucketDataList : List BucketRank := []
  mBucketRankComment : Int := -1
  mBucketRankIdx : Int := -1
  requests : List HttpRequest := []
  reloads : Nat := 0
  toasts : List String := []
  presented : List Presented := []

namespace RankListView

/-- The messages that `handleMessage` knows. -/
inductive Message where
  | TOAST_MASSEGE
  | SERVER_LOADING_FAIL
  | LOAD_BUCKET_RANK
  | SET_LIST
  | SEND_BUCKET_RANK
  deriving DecidableEq, Repr

def finish (v : RankListView) : RankListView :=
  { v with presented := v.presented ++ [.view ContextUtils.MAIN_VIEW] }

def toast (v : RankListView) (message : String) : RankListView :=
  { v with toasts := v.toasts ++ [message] }

def send (v : RankListView) (request : HttpRequest) : RankListView :=
  { v with requests := v.requests ++ [request] }

def handleMessage (v : RankListView) (what : Message) (obj : String) : RankListView :=
  match what with
  | .TOAST_MASSEGE => v.toast obj
  | .SERVER_LOADING_FAIL => (v.toast "server_fail_string").finish
  | .LOAD_BUCKET_RANK =>
    let userNickName := UserDefault.read v.defaults ContextUtils.KEY_USER_NICKNAME
    v.send {
      url := ContextUtils.KBUCKET_RANK_LIST_URL, post := true, id := ConstHTTP.RANK_LIST
      data := "pageNm=1&nickname=" ++ userNickName }
  | .SET_LIST => { v with reloads := v.reloads + 1 }
  | .SEND_BUCKET_RANK =>
    let userNickName2 := UserDefault.read v.defaults ContextUtils.KEY_USER_NICKNAME
    v.send {
      url := ContextUtils.KBUCKET_RANK_COMMENT, post := true, id := ConstHTTP.RANK_UPDATE_COMMENT
      data := "idx=" ++ toString v.mBucketRankIdx ++ "&comment=" ++ toString v.mBucketRankComment
        ++ "&nickname=" ++ userNickName2 }

/-- The message `CHECK_NETWORK`, with which `viewDidLoad` starts. -/
def checkNetwork (v : RankListView) (isConnect : Bool) : RankListView :=
  if isConnect = false then v.handleMessage .TOAST_MASSEGE "check_network"
  else v.handleMessage .LOAD_BUCKET_RANK ""

def viewDidLoad (defaults : UserDefaults) (isConnect : Bool) : RankListView :=
  checkNetwork { defaults } isConnect

/-- One item of a list answer. -/
def bucketRank [Platform] (item : Json) : Except Trap BucketRank := do
  let aObject ← Json.asObject (some item)
  let mCategoryCode ← Json.asInt (aObject.lookup "categoryCode")
  let mContent ← Json.asString (aObject.lookup "content")
  let mIdx ← Json.asInt (aObject.lookup "idx")
  let mBestCnt ← Json.asInt (aObject.lookup "bestCnt")
  let mGoodCnt ← Json.asInt (aObject.lookup "goodCnt")
  let mSoSoCnt ← Json.asInt (aObject.lookup "ssoCnt")
  let mComment ← Json.asInt (aObject.lookup "comment")
  return { mCategoryCode, mContent, mIdx, mBestCnt, mGoodCnt, mSoSoCnt, mComment }

/-- `data` is what `JSONSerialization` makes of the body, and `none` where it throws. -/
def onHttpReceive [Platform] (v : RankListView) (type actionId : Int) (data : Option Json) :
    Except Trap RankListView := do
  let isValid ← Json.isValid data
  if actionId = ConstHTTP.RANK_LIST then
    if type = ConstHTTP.HTTP_OK ∧ isValid then
      let mut v := v
      if let some (.obj jsonString) := data then
        let List ← Json.asArray (jsonString.lookup "bucketList")
        if List.length > 0 then
          -- An answer without items leaves the list as it was.
          let mBucketDataList ← List.mapM bucketRank
          v := { v with mBucketDataList }
      return v.handleMessage .SET_LIST ""
    else
      return v.handleMessage .SERVER_LOADING_FAIL ""
  else if actionId = ConstHTTP.RANK_UPDATE_COMMENT then
    if type = ConstHTTP.HTTP_OK ∧ isValid then
      return { v with mBucketDataList := [] }.handleMessage .LOAD_BUCKET_RANK ""
    else
      return v.handleMessage .SERVER_LOADING_FAIL ""
  else return v

/-- The user's vote on a bucket is known when the list shows a comment for it. -/
def getCommentCount (v : RankListView) (index : Int) : Bool :=
  v.mBucketDataList.any fun bucket => bucket.mIdx == index && bucket.mComment != 0

def numberOfRowsInSection (v : RankListView) : Nat := v.mBucketDataList.length

def cellForRowAt (v : RankListView) (row : Nat) (cell : RankCustomCell) :
    Except Trap RankCustomCell := do
  let bucket ← arrayGet v.mBucketDataList row
  let chosen (comment : Int) (color : String) : ButtonColor :=
    if bucket.mComment = comment then ⟨"white", color⟩ else ⟨color, "black"⟩
  return { cell with
    etContens := bucket.mContent
    lbBest := toString bucket.mBestCnt
    lbGood := toString bucket.mGoodCnt
    lbSoso := toString bucket.mSoSoCnt
    mData := toString bucket.mIdx
    btBest := chosen 3 "#FFCC0000"
    btGood := chosen 2 "#FF33B5E5"
    btSoso := chosen 1 "#FF99CC00" }

/-- `tableView(_:cellForRowAt:)`, of which `cellForRowAt` is what it does to the outlets. -/
def tableView (w : Nat) (mBackColor : String) (v : RankListView) (row : Nat)
    (cell : UITableViewCell RankCustomCell) : Except Trap (UITableViewCell RankCustomCell) := do
  let content ← v.cellForRowAt row cell.content
  return (cell.fill content).setBackColor w mBackColor

def receiveEventFromViewItem [Platform] (v : RankListView) (gbn : Int) (data : String) :
    Except Trap RankListView := do
  let v :=
    if gbn = 3 then { v with mBucketRankComment := 3 }
    else if gbn = 2 then { v with mBucketRankComment := 2 }
    else if gbn = 1 then { v with mBucketRankComment := 1 }
    else v
  let nIdx ← unwrap (intOfString? data)
  let isSendSever := v.getCommentCount nIdx
  if !isSendSever then
    return { v with mBucketRankIdx := nIdx }.handleMessage .SEND_BUCKET_RANK ""
  else
    return v.handleMessage .TOAST_MASSEGE "이미 의견을 반영했습니다! "

end RankListView
end KBucket
