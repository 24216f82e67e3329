import KBucket.Utils.SQLQuery
import KBucket.Utils.ViewUtils

/-!
# `WriteDetailView.swift`

The detail screen of one bucket: its form, and what Save and Delete do to the store. `mContents`
is the content the screen was opened on; no handler changes it. `today` is the day as
`DateUtils.getStringDateFormat` writes it when the form is filled.

The photo is its path here. What is shown of it, and the Share button, are in `WriteDetailPhoto`;
the pickers of the two dates are in `DatePicker`.
-/

namespace KBucket

structure WriteDetailView where
  device : Device
  CONTENTS : String
  BACK : String
  mContents : String := ""
  mPhotoPath : String := ""
  btCheckbox : Bool := true
  etContent : String := ""
  etDate : String := ""
  etCompleteDate : String := ""
  presented : List Presented := []

namespace WriteDetailView

/-- The body of the loop in `setData`. -/
def showBucket (today : String) (v : WriteDetailView) (kbucket : Bucket) : WriteDetailView :=
  { v with
    btCheckbox := kbucket.mCompleteYN == "Y"
    mPhotoPath := if kbucket.mImageURl.length > 0 then kbucket.mImageURl else v.mPhotoPath
    etContent := kbucket.mContent
    etDate := if kbucket.mDate.length > 0 then kbucket.mDate else today
    etCompleteDate := if kbucket.mCompleteDate.length > 0 then kbucket.mCompleteDate else today }

def setData (today : String) (v : WriteDetailView) : Except Trap WriteDetailView := do
  let bucketList ← SQLQuery.selectKbucketContents v.device.realm v.mContents
  return bucketList.foldl (showBucket today) v

def viewDidLoad (today : String) (device : Device) (CONTENTS BACK : String) :
    Except Trap WriteDetailView :=
  setData today { device, CONTENTS, BACK, mContents := CONTENTS }

/-- The record that Save stores: a fresh object and the five fields of the form. -/
def newBucket (v : WriteDetailView) : Bucket where
  mContent := v.etContent
  mCompleteYN := if v.btCheckbox then "Y" else "N"
  mImageURl := if v.mPhotoPath.length > 0 then v.mPhotoPath else ""
  mDate := v.etDate
  mCompleteDate := v.etCompleteDate

def updateDBDate (v : WriteDetailView) : Except Trap WriteDetailView := do
  let realm ← SQLQuery.updateMemoContent v.device.realm v.newBucket v.mContents
  return { v with device := { v.device with realm } }

def removeDBData (v : WriteDetailView) (Content : String) : Except Trap WriteDetailView := do
  let (_result, realm) ← SQLQuery.deleteUserBucket v.device.realm Content
  return { v with device := { v.device with realm } }

/-- Where to is decided by `BACK`, whatever the argument. -/
def back (v : WriteDetailView) (_strBack : String) : WriteDetailView :=
  if v.BACK = ContextUtils.VIEW_COMPLETE_LIST then
    { v with presented := v.presented ++ [.view ContextUtils.VIEW_COMPLETE_LIST] }
  else
    { v with presented := v.presented ++ [.view ContextUtils.MAIN_VIEW] }

/-- What a user does on the screen: the form is edited field by field, a photo is picked (and
    saved under a name) or removed, and the buttons are pressed. -/
inductive Event where
  | etContent (text : String)
  | etDate (text : String)
  | etCompleteDate (text : String)
  | btCheckbox (isOn : Bool)
  | imagePicked (tempImageName : String)
  | btRemoveImage
  | btSave
  | btDel
  | onBackPressed
  deriving DecidableEq, Repr

def step (v : WriteDetailView) : Event → Except Trap WriteDetailView
  | .etContent text => .ok { v with etContent := text }
  | .etDate text => .ok { v with etDate := text }
  | .etCompleteDate text => .ok { v with etCompleteDate := text }
  | .btCheckbox isOn => .ok { v with btCheckbox := isOn }
  | .imagePicked tempImageName =>
    .ok { v with mPhotoPath := if tempImageName.length > 0 then tempImageName else "" }
  | .btRemoveImage => .ok { v with mPhotoPath := "" }
  | .btSave => do return (← v.updateDBDate).back v.BACK
  | .btDel => do return (← v.removeDBData v.mContents).back v.BACK
  | .onBackPressed => .ok (v.back v.BACK)

end WriteDetailView
end KBucket
