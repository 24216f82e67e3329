import KBucket.Utils.DataUtils
import KBucket.Utils.SQLQuery
import KBucket.Utils.ViewUtils
import KBucket.View.TableCell

/-!
# `BucketListView.swift`

The screen of achieved buckets. A tap on a row, or on the button in it, opens the detail screen.

Its list is made when it is loaded. A row without a photo leaves the image of its cell as it is, so
a cell is an argument of `tableView` and not only its result.
-/

namespace KBucket

/-- The fields of `PostData` that the screen sets. -/
structure PostData where
  m_contents : String := ""
  mCompleteYN : String := ""
  mImageName : String := ""
  m_date : String := ""
  deriving DecidableEq, Repr

structure BucketCustomCell (Image : Type) where
  mEtContent : String := ""
  mBtDate : String := ""
  tintColor : String := ""
  ivImage : Option Image := none
  mData : String := ""
  deriving DecidableEq, Repr

structure BucketListView where
  device : Device
  mDataList : List PostData := []
  presented : List Presented := []

namespace BucketListView

def postData (kbucket : Bucket) : PostData where
  m_contents := kbucket.mContent
  mCompleteYN := kbucket.mCompleteYN
  mImageName := kbucket.mImageURl
  m_date := kbucket.mDate

def setListData (v : BucketListView) : BucketListView :=
  let bucketList := SQLQuery.selectKbucket v.device.realm
  let mDataList := bucketList.foldl (fun list kbucket =>
    if kbucket.mCompleteYN ≠ "Y" then list else list ++ [postData kbucket]) v.mDataList
  { v with mDataList }

def viewDidLoad (device : Device) : BucketListView := setListData { device }

def numberOfRowsInSection (v : BucketListView) : Nat := v.mDataList.length

variable {Image : Type}

/-- What `tableView(_:cellForRowAt:)` does to the outlets. -/
def cellForRowAt (codec : ImageCodec Image) (documents : Documents) (v : BucketListView)
    (row : Nat) (cell : BucketCustomCell Image) : Except Trap (BucketCustomCell Image) := do
  let postData ← arrayGet v.mDataList row
  let mut cell := { cell with
    mBtDate := postData.m_date
    tintColor := "black"
    mEtContent := postData.m_contents
    mData := toString row }
  if postData.mImageName.length > 0 then
    let image := DataUtils.load codec documents postData.mImageName
    cell := { cell with ivImage := image }
  return cell

/-- `tableView(_:cellForRowAt:)`. -/
def tableView (codec : ImageCodec Image) (documents : Documents) (w : Nat) (mBackColor : String)
    (v : BucketListView) (row : Nat) (cell : UITableViewCell (BucketCustomCell Image)) :
    Except Trap (UITableViewCell (BucketCustomCell Image)) := do
  let content ← v.cellForRowAt codec documents row cell.content
  return (cell.fill content).setBackColor w mBackColor

def changeDetailView (v : BucketListView) (index : Int) : Except Trap BucketListView := do
  let CONTENTS := (← arrayGet v.mDataList index).m_contents
  return { v with presented :=
    v.presented ++ [.writeDetail CONTENTS ContextUtils.VIEW_COMPLETE_LIST] }

def receiveEventFromViewItem [Platform] (v : BucketListView) (gbn : Int) (data : String) :
    Except Trap BucketListView := do
  if gbn = 0 then
    let index ← unwrap (intOfString? data)
    v.changeDetailView index
  else return v

end BucketListView
end KBucket
