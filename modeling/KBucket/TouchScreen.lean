import KBucket.App
import KBucket.Lib.CellTable

/-!
# The app under the fingers

The screens that work on the store with the tables in them. What a user does to a row is done to
the cell that is on display for it, and the cell tells the screen what it carries (`mData`): its
number, or on the suggestions its text. A table asks for cells as rows come on display, hands
cells out again, and is reloaded where the handlers say so.

A row is an `Int`. An event that cannot happen (a press on a row without a cell or on a hidden
button, a cell for a row that is on display or that the table does not have) changes nothing.
-/

namespace KBucket

open Lib

variable {Image : Type}

/-- What is given with the phone. -/
structure Handset (Image : Type) where
  nfc : String → String
  codec : ImageCodec Image
  dream100 : String

/-- The day, as it is written on it, and the files there are. -/
structure Occasion where
  today : String
  documents : Documents

/-- What is done on a row: its cell tells the screen. -/
def App.Event.isOfRow : App.Event → Bool
  | .write (.rowDelete _) | .rowMod _ | .rowDetail _ | .rowAdd _ | .rowRemove _ => true
  | _ => false

abbrev FirstTable := CellTable (UITableViewCell FirstCustomCell)

abbrev BucketTable (Image : Type) := CellTable (UITableViewCell (BucketCustomCell Image))

inductive TouchScreen (Image : Type) where
  | write (v : WriteView) (table : FirstTable)
  | bucketList (v : BucketListView) (table : BucketTable Image)
  | addBucket (v : AddBucketList) (table : FirstTable)
  | plain (app : App)

namespace TouchScreen

inductive Event where
  | act (event : App.Event)
  /-- A row comes on display, on that cell of those that wait, or on a new one. -/
  | cell (row i : Nat)
  | leave (row : Nat)
  | press (row : Nat) (button : FirstButton)
  /-- The button in a cell of the achieved buckets. -/
  | detail (row : Nat)
  /-- A tap on the row itself. -/
  | select (row : Nat)
  | listAdd
  deriving DecidableEq, Repr

def app : TouchScreen Image → App
  | .write v _ => .write v
  | .bucketList v _ => .bucketList v
  | .addBucket v _ => .addBucket v.view
  | .plain app => app

/-- A screen that is presented has a table of its own. -/
def arrive (phone : Handset Image) : App → TouchScreen Image
  | .write v => .write v (CellTable.reload {} v.numberOfRowsInSection)
  | .bucketList v => .bucketList v (CellTable.reload {} v.numberOfRowsInSection)
  | .addBucket view =>
    let v := AddBucketList.setListData phone.dream100 { view }
    .addBucket v (CellTable.reload {} v.numberOfRowsInSection)
  | app => .plain app

/-- Where the handlers of the to-do screen call `reloadData()`: adding and sorting always do,
    deleting does when the row has been removed. -/
def reloads (v v' : WriteView) : App.Event → Bool
  | .write (.rowDelete _) => v'.mDataList.length < v.mDataList.length
  | .write _ => true
  | _ => false

/-- The screen after a handler has made `app` of it. -/
def handled (phone : Handset Image) (s : TouchScreen Image) (event : App.Event) (app : App) :
    TouchScreen Image :=
  match s, app with
  | .write v table, .write v' =>
    .write v' (if reloads v v' event then table.reload v'.numberOfRowsInSection else table)
  | .bucketList _ table, .bucketList v' => .bucketList v' table
  | .addBucket v table, .addBucket view => .addBucket { v with view } table
  | _, app => arrive phone app

/-- What a control tells the screen. -/
def control : TouchScreen Image → Event → Option App.Event
  | _, .act event => if event.isOfRow then none else some event
  | .write _ table, .press row .btMod =>
    (table.at? row).map fun cell => .rowMod cell.content.mData
  | .write _ table, .press row .btDel =>
    (table.at? row).map fun cell => .write (.rowDelete cell.content.mData)
  | .addBucket _ table, .press row button =>
    (table.at? row).bind fun cell =>
      if cell.content.isHidden button then none
      else match button with
        | .btMod => some (.rowAdd cell.content.mData)
        | .btDel => some (.rowRemove cell.content.mData)
  | .bucketList _ table, .detail row =>
    (table.at? row).map fun cell => .rowDetail cell.content.mData
  | _, _ => none

/-- The table of the screen in front, where it has one. -/
def display [Platform] (phone : Handset Image) (occasion : Occasion) (s : TouchScreen Image)
    (row i : Nat) :
    Except Trap (TouchScreen Image) :=
  let mBackColor := UserDefault.read s.app.device.defaults ContextUtils.BACK_MEMO
  match s with
  | .write v table =>
    if row < table.rows ∧ FitsInt row ∧ table.at? row = none then do
      let table ← table.display { content := {} }
        (v.tableView Platform.bitWidth mBackColor row) row i
      return .write v table
    else .ok s
  | .bucketList v table =>
    if row < table.rows ∧ FitsInt row ∧ table.at? row = none then do
      let table ← table.display { content := {} }
        (v.tableView phone.codec occasion.documents Platform.bitWidth mBackColor row) row i
      return .bucketList v table
    else .ok s
  | .addBucket v table =>
    if row < table.rows ∧ FitsInt row ∧ table.at? row = none then do
      let table ← table.display { content := {} }
        (v.tableView Platform.bitWidth mBackColor row) row i
      return .addBucket v.setButtonTitle table
    else .ok s
  | .plain _ => .ok s

def leave (row : Nat) : TouchScreen Image → TouchScreen Image
  | .write v table => .write v (table.leave row)
  | .bucketList v table => .bucketList v (table.leave row)
  | .addBucket v table => .addBucket v (table.leave row)
  | .plain app => .plain app

/-- `tableView(_:didSelectRowAt:)` of the achieved buckets. -/
def select (phone : Handset Image) (today : String) (row : Nat) :
    TouchScreen Image → Except Trap (TouchScreen Image)
  | .bucketList v table =>
    match table.at? row with
    | some _ => do
      let v' ← v.changeDetailView row
      let app ← App.follow today (.bucketList v') v'.presented
      return handled phone (.bucketList v table) (.rowDetail (toString row)) app
    | none => .ok (.bucketList v table)
  | s => .ok s

def listAdd : TouchScreen Image → TouchScreen Image
  | .addBucket v table => .addBucket v.onClickListAdd (table.reload v.numberOfRowsInSection)
  | s => s

def step [Platform] (phone : Handset Image) (s : TouchScreen Image) :
    Occasion × Event → Except Trap (TouchScreen Image)
  | (occasion, event) =>
    match s.control event with
    | some sent => do
      let app ← s.app.step phone.nfc (occasion.today, sent)
      return s.handled phone sent app
    | none =>
      match event with
      | .cell row i => s.display phone occasion row i
      | .leave row => .ok (s.leave row)
      | .select row => s.select phone occasion.today row
      | .listAdd => .ok s.listAdd
      | _ => .ok s

end TouchScreen
end KBucket
