import KBucket.Utils.DataUtils
import KBucket.View.ShareDetailView
import KBucket.View.ShareListView

/-!
# `ShareDetailView.swift`: opening the screen and writing a comment

The screen here is the one that receives answers (`ShareDetailView`), the bucket that it was
opened on and its outlets.
-/

namespace KBucket

structure ShareCommentCell where
  tvContent : String := ""
  btName : String := ""
  deriving DecidableEq, Repr

structure ShareDetailForm (Image : Type) where
  view : ShareDetailView
  mBucket : ShareDetail
  mUserNickname : String
  etComment : String := ""
  mEtShareContent : String := ""
  mBtShareDate : String := ""
  mIvShareImage : Option Image := none

namespace ShareDetailForm

variable {Image : Type}

/-- The message `DOWNLOAD_IMAGE`: `download` is what `Data(contentsOf:)` gets from an address, if
    it is one and the server has something there. -/
def downloadImage (codec : ImageCodec Image) (download : String → Option Data)
    (v : ShareDetailForm Image) : Except Trap (ShareDetailForm Image) := do
  let data ← unwrap (download (ContextUtils.KBUCKET_DOWNLOAD_IAMGE ++ "?idx=" ++ v.view.idx))
  return { v with mIvShareImage := codec.image data }

/-- The first statement of `setData`. `nophoto` is the image of this name in the app's bundle. -/
def setImage (codec : ImageCodec Image) (download : String → Option Data) (nophoto : Option Image)
    (v : ShareDetailForm Image) : Except Trap (ShareDetailForm Image) :=
  if v.mBucket.mImageURl ≠ "N" ∧ v.mBucket.mImageURl.length > 0 then v.downloadImage codec download
  else .ok { v with mIvShareImage := nophoto }

def setData (codec : ImageCodec Image) (download : String → Option Data) (nophoto : Option Image)
    (v : ShareDetailForm Image) : Except Trap (ShareDetailForm Image) := do
  let v ← v.setImage codec download nophoto
  return { v with mBtShareDate := v.mBucket.mDate, mEtShareContent := v.mBucket.mContent }

/-- `viewDidLoad`, which is the body of the source's `initialize`. -/
def viewDidLoad (codec : ImageCodec Image) (download : String → Option Data)
    (nophoto : Option Image) (defaults : UserDefaults) (mBucket : ShareDetail) :
    Except Trap (ShareDetailForm Image) := do
  let mUserNickname := UserDefault.read defaults ContextUtils.KEY_USER_NICKNAME
  let view ← ({ idx := mBucket.idx } : ShareDetailView).handleMessage .LOAD_COMMENT_LIST
    mBucket.idx
  setData codec download nophoto { view, mBucket, mUserNickname }

/-- The parameters of a comment. -/
def sender (hash : HashOrder) (mUserNickname text idx : String) : Dictionary :=
  hash.order {
    rows := [("NICKNAME", mUserNickname), ("CONTENT", text), ("BUCKET_NO", idx)]
    nodup := by
      show ["NICKNAME", "CONTENT", "BUCKET_NO"].Nodup
      decide }

/-- `onClick` of `btSend`. -/
def onClick (swift : StringUtils.Characters) (hash : HashOrder) (v : ShareDetailForm Image) :
    Except Trap (ShareDetailForm Image) := do
  let text := StringUtils.replacingOccurrences swift v.etComment " " ""
  if text.length > 0 then
    let data ← StringUtils.getHTTPPostSendData (sender hash v.mUserNickname text v.view.idx)
    let view := v.view.send {
      url := ContextUtils.INSERT_COMMENT_URL, post := true, id := ConstHTTP.INSERT_COMMENT, data }
    return { v with view, etComment := "" }
  else return v

def cellForRowAt (v : ShareDetailForm Image) (row : Nat) (_cell : ShareCommentCell) :
    Except Trap ShareCommentCell := do
  let tvContent := (← arrayGet v.view.mCommentList row).mContent
  let nickname := (← arrayGet v.view.mCommentList row).mNickName
  return { tvContent, btName := nickname }

end ShareDetailForm
end KBucket
