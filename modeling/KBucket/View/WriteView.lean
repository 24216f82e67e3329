import Mathlib.Data.List.Sort
import KBucket.Utils.SQLQuery
import KBucket.Utils.ViewUtils
import KBucket.View.FirstCustomCell

/-!
# `WriteView.swift`

The to-do screen. `mDataList` holds the contents on display; it is loaded from the store once
and from then on changed next to it, by other statements.

What only draws or logs is left out, and so is `viewDidDisappear`, which empties the list of a
screen that is not shown again: the next one is loaded anew.
-/

namespace KBucket

/-- The buttons that `onClick` knows. -/
inductive WriteButton where
  | btAdd | btSortLastest | btSortName | btSortDeadLine
  deriving DecidableEq, Repr

structure WriteView where
  device : Device
  mDataList : List String := []
  etEdit : String := ""
  toasts : List String := []
  presented : List Presented := []

namespace WriteView

/-- `list.sort { areInIncreasingOrder($0, $1) }`. -/
def sortBy (areInIncreasingOrder : String → String → Bool) (list : List String) : List String :=
  list.insertionSort fun a b => !areInIncreasingOrder b a

def sort (nfc : String → String) (v : WriteView) : WriteView :=
  let strSort := UserDefault.read v.device.defaults ContextUtils.KBUCKET_SORT_KEY
  if strSort.length > 0 then v
  else if strSort = ContextUtils.SORT_DATE then
    { v with mDataList := sortBy (stringLt nfc) v.mDataList }
  else if strSort = ContextUtils.SORT_MEMO then
    { v with mDataList := sortBy (stringLt nfc) v.mDataList }
  else
    { v with mDataList := sortBy (fun a b => stringLt nfc b a) v.mDataList }

/-- The buckets that the loop of `viewDidLoad` skips. -/
def skipped (kbucket : Bucket) : Bool :=
  kbucket.mContent.length > 0 && kbucket.mCompleteYN == "Y"

/-- `viewDidLoad`, which is the body of the source's `initialize`. -/
def viewDidLoad (nfc : String → String) (device : Device) : WriteView :=
  let bucketList := SQLQuery.selectKbucket device.realm
  let mDataList := bucketList.foldl
    (fun list kbucket => if skipped kbucket then list else list ++ [kbucket.mContent]) []
  sort nfc { device, mDataList }

def checkduplicateData (nfc : String → String) (v : WriteView) (checkString : String) : Bool :=
  v.mDataList.any fun item => stringEq nfc item checkString

def writeSortKey (v : WriteView) (value : String) : WriteView :=
  { v with device := { v.device with
    defaults := UserDefault.write v.device.defaults ContextUtils.KBUCKET_SORT_KEY value } }

def onClick (nfc : String → String) (v : WriteView) (sender : WriteButton) :
    Except Trap WriteView := do
  match sender with
  | .btAdd =>
    let strText := v.etEdit
    let mut v := v
    if checkduplicateData nfc v strText then
      v := { v with toasts := v.toasts ++ ["중복된 내용이 있습니다"] }
    else
      v := { v with mDataList := v.mDataList ++ [strText] }
      let (_result, realm) ← SQLQuery.insertUserSetting v.device.realm strText "" "N" ""
      v := { v with device := { v.device with realm } }
    return { v with etEdit := "" }
  | .btSortLastest => return sort nfc (v.writeSortKey ContextUtils.SORT_DATE)
  | .btSortName => return sort nfc (v.writeSortKey ContextUtils.SORT_MEMO)
  | .btSortDeadLine => return sort nfc (v.writeSortKey ContextUtils.SORT_DEADLINE)

def numberOfRowsInSection (v : WriteView) : Nat := v.mDataList.length

/-- What `tableView(_:cellForRowAt:)` does to the outlets. -/
def cellForRowAt (v : WriteView) (row : Nat) (cell : FirstCustomCell) :
    Except Trap FirstCustomCell := do
  let text ← arrayGet v.mDataList row
  return { cell with btEdt := text, mData := toString row }

/-- `tableView(_:cellForRowAt:)`. -/
def tableView (w : Nat) (mBackColor : String) (v : WriteView) (row : Nat)
    (cell : UITableViewCell FirstCustomCell) : Except Trap (UITableViewCell FirstCustomCell) := do
  let content ← v.cellForRowAt row cell.content
  return (cell.fill content).setBackColor w mBackColor

def removeDBData (v : WriteView) (Content : String) : Except Trap (Bool × WriteView) := do
  let (result, realm) ← SQLQuery.deleteUserBucket v.device.realm Content
  return (result, { v with device := { v.device with realm } })

/-- The two buttons of a row: `gbn` 0 opens it, 1 deletes it. -/
def receiveEventFromViewItem [Platform] (v : WriteView) (gbn : Int) (data : String) :
    Except Trap WriteView := do
  if gbn = 0 then
    let index ← unwrap (intOfString? data)
    let CONTENTS ← arrayGet v.mDataList index
    return { v with presented := v.presented ++ [.writeDetail CONTENTS ContextUtils.VIEW_WRITE] }
  else if gbn = 1 then
    let index ← unwrap (intOfString? data)
    if index ≥ 0 ∧ index < v.mDataList.length then
      let deleteItem ← arrayGet v.mDataList index
      let (result, v) ← v.removeDBData deleteItem
      if result then
        let mDataList ← arrayRemove v.mDataList index
        return { v with mDataList }
      return v
    return v
  else return v

/-- What a user does on the screen until it disappears. -/
inductive Event where
  | btAdd (text : String)
  | rowDelete (data : String)
  | btSortLastest
  | btSortName
  | btSortDeadLine
  deriving DecidableEq, Repr

def step [Platform] (nfc : String → String) (v : WriteView) : Event → Except Trap WriteView
  | .btAdd text => onClick nfc { v with etEdit := text } .btAdd
  | .rowDelete data => receiveEventFromViewItem v 1 data
  | .btSortLastest => onClick nfc v .btSortLastest
  | .btSortName => onClick nfc v .btSortName
  | .btSortDeadLine => onClick nfc v .btSortDeadLine

end WriteView
end KBucket
