import KBucket.Json
import KBucket.Managers.Http
import KBucket.Utils.ContextUtils
import KBucket.View.TableCell

/-!
# `NoticeView.swift`

The notices of the app's updates. An answer that cannot be used is passed over in silence.

The request is sent when the screen is loaded, without asking for the network. Which rows are
expanded comes with a row that is displayed; that set of rows is kept in `NoticeScreen`.
-/

namespace KBucket

structure UpdateApp where
  mVersionCode : Int := 0
  mContent : String := ""
  deriving DecidableEq, Repr

structure NoticeCustomCell where
  lbNotice : String := ""
  lbContents : String := ""
  isExpanded : Bool := false
  imgHeightConstraint : Nat := 0
  deriving DecidableEq, Repr

/-- The height of a cell follows each write to the property. -/
def NoticeCustomCell.setExpanded (cell : NoticeCustomCell) (isExpanded : Bool) :
    NoticeCustomCell :=
  { cell with isExpanded, imgHeightConstraint := if !isExpanded then 0 else 128 }

structure NoticeView where
  mList : List UpdateApp := []
  mGroupList : List String := []
  mChildList : List String := []
  mChildListContent : List String := []
  requests : List HttpRequest := []
  reloads : Nat := 0
  toasts : List String := []

namespace NoticeView

inductive Message where
  | TOAST_MASSEGE
  | LOAD_NOTICE_LIST
  | SET_NOTICE_LIST
  | SERVER_LOADING_FAIL
  deriving DecidableEq, Repr

def toast (v : NoticeView) (message : String) : NoticeView :=
  { v with toasts := v.toasts ++ [message] }

def handleMessage (v : NoticeView) (what : Message) (obj : String) : NoticeView :=
  match what with
  | .TOAST_MASSEGE => v.toast obj
  | .LOAD_NOTICE_LIST =>
    { v with requests := v.requests ++ [{
        url := ContextUtils.KBUCKET_NOTICE_URL, post := false, id := ConstHTTP.NOTICE_LIST
        data := "" }] }
  | .SET_NOTICE_LIST => { v with reloads := v.reloads + 1 }
  | .SERVER_LOADING_FAIL => v.toast "server_fail_string"

def viewDidLoad : NoticeView := handleMessage {} .LOAD_NOTICE_LIST ""

/-- One item of a list answer. -/
def updateApp [Platform] (item : Json) : Except Trap UpdateApp := do
  let aObject ← Json.asObject (some item)
  let mVersionCode ← Json.asInt (aObject.lookup "versionCode")
  let mContent ← Json.asString (aObject.lookup "updateContent")
  return { mVersionCode, mContent }

/-- `data` is what `JSONSerialization` makes of the body, and `none` where it throws. -/
def onHttpReceive [Platform] (v : NoticeView) (type actionId : Int) (data : Option Json) :
    Except Trap NoticeView := do
  let isValid ← Json.isValid data
  if actionId = ConstHTTP.NOTICE_LIST then
    if type = ConstHTTP.HTTP_OK ∧ isValid then
      let mut v := v
      if let some (.obj jsonString) := data then
        let List ← Json.asArray (jsonString.lookup "updateVOList")
        if List.length > 0 then
          -- An answer without items leaves the list as it was.
          let mList ← List.mapM updateApp
          let mGroupList := mList.map UpdateApp.mContent
          let mChildListContent := mGroupList.getLast?.toList
          v := { v with mList, mGroupList, mChildList := [], mChildListContent }.handleMessage
            .SET_NOTICE_LIST ""
      return v
    else return v
  else return v

def numberOfRowsInSection (v : NoticeView) : Nat := v.mList.length

/-- What `tableView(_:cellForRowAt:)` does to the outlets. -/
def cellForRowAt (v : NoticeView) (expandedRows : List Nat) (row : Nat)
    (cell : NoticeCustomCell) : Except Trap NoticeCustomCell := do
  let item ← arrayGet v.mList row
  return { cell with lbNotice := item.mContent, lbContents := item.mContent }.setExpanded
    (expandedRows.contains row)

/-- `tableView(_:cellForRowAt:)`. -/
def tableView (v : NoticeView) (expandedRows : List Nat) (row : Nat)
    (cell : UITableViewCell NoticeCustomCell) :
    Except Trap (UITableViewCell NoticeCustomCell) := do
  let content ← v.cellForRowAt expandedRows row cell.content
  return cell.fill content

end NoticeView
end KBucket
