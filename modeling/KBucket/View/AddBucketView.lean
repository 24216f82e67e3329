import KBucket.Utils.SQLQuery
import KBucket.Utils.ViewUtils
import KBucket.View.FirstCustomCell

/-!
# `AddBucketView.swift`

The screen of suggested dreams. A row's buttons add the suggestion to the store and remove it
again; the text they send is the suggestion itself. `AddBucketList` is the screen with its list,
which can also be looked at without the buttons.
-/

namespace KBucket

structure AddBucketView where
  device : Device
  toasts : List String := []

namespace AddBucketView

def removeDBData (v : AddBucketView) (data : String) : Except Trap AddBucketView := do
  let (_result, realm) ← SQLQuery.deleteUserBucket v.device.realm data
  let inContainsBucket ← SQLQuery.containsKbucket realm data
  let toasts := if inContainsBucket then v.toasts else v.toasts ++ ["share_delete_popup_ok"]
  return { v with device := { v.device with realm }, toasts }

/-- `date` is today's date; the store does not receive it. -/
def addDBData (date : String) (v : AddBucketView) (Content : String) :
    Except Trap AddBucketView := do
  let inContainsBucket ← SQLQuery.containsKbucket v.device.realm Content
  if !inContainsBucket then
    let (_bResult, realm) ← SQLQuery.insertUserSetting v.device.realm Content date "N" ""
    return { v with device := { v.device with realm },
                    toasts := v.toasts ++ ["share_add_popup_ok"] }
  else
    return { v with toasts := v.toasts ++ ["check_input_bucket_string"] }

/-- The two buttons of a row: `gbn` 0 adds, 1 removes. -/
def receiveEventFromViewItem (date : String) (v : AddBucketView) (gbn : Int) (data : String) :
    Except Trap AddBucketView :=
  if gbn = 0 then v.addDBData date data
  else if gbn = 1 then v.removeDBData data
  else .ok v

end AddBucketView

structure AddBucketList where
  view : AddBucketView
  mDataList : List String := []
  mbVisible : Bool := true
  /-- The title of the button. -/
  btListAdd : String := ""

namespace AddBucketList

/-- `dreamString` is the text `dream100` in the language of the phone. -/
def setListData (dreamString : String) (v : AddBucketList) : AddBucketList :=
  { v with mDataList := v.mDataList ++ split dreamString ',' }

def setButtonTitle (v : AddBucketList) : AddBucketList :=
  if v.mbVisible then { v with btListAdd := "interest_bucket_list_add" }
  else { v with btListAdd := "interest_bucket_list_view" }

/-- The button `btListAdd`. The table is reloaded after it. -/
def onClickListAdd (v : AddBucketList) : AddBucketList :=
  { v with mbVisible := !v.mbVisible }.setButtonTitle

def numberOfRowsInSection (v : AddBucketList) : Nat := v.mDataList.length

/-- What `tableView(_:cellForRowAt:)` does to the outlets, the title of the button aside. -/
def cellForRowAt (v : AddBucketList) (row : Nat) (cell : FirstCustomCell) :
    Except Trap FirstCustomCell := do
  let text ← arrayGet v.mDataList row
  let cell := { cell with mData := text }
  if v.mbVisible then
    return { cell with
      btModIsHidden := false, btDelIsHidden := false, btEditFullIsHidden := true, btEdt := text }
  else
    return { cell with
      btModIsHidden := true, btDelIsHidden := true, btEditFullIsHidden := false,
      btEditFull := text }

/-- `tableView(_:cellForRowAt:)`. -/
def tableView (w : Nat) (mBackColor : String) (v : AddBucketList) (row : Nat)
    (cell : UITableViewCell FirstCustomCell) : Except Trap (UITableViewCell FirstCustomCell) := do
  let content ← v.cellForRowAt row cell.content
  return (cell.fill content).setBackColor w mBackColor

end AddBucketList
end KBucket
