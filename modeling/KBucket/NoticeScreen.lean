import KBucket.Lib.CellTable
import KBucket.Lib.Run
import KBucket.View.NoticeView

/-!
# The notices at work

`NoticeView` with its table: the answer to its one request arrives on the network queue, the
reload that it asks for runs on the main queue, rows come on display and go, and a row that is
tapped is expanded or folded up again on the cell that it has by then.

The request is sent without a look at the network. Where it is lost, its task has no data to
unwrap, which ends the process.

An event that cannot happen (an answer when none is awaited, a tap on a row that is not on
display) changes nothing.
-/

namespace KBucket

open Lib

/-- `view.requests` are the requests without an answer yet. -/
structure NoticeScreen where
  view : NoticeView
  /-- The `Set<Int>` of this name, without a row twice. -/
  expandedRows : List Nat := []
  table : CellTable (UITableViewCell NoticeCustomCell) := {}

namespace NoticeScreen

inductive Event where
  | answer (type : Int) (data : Option Json)
  | lose
  | reload
  /-- A row comes on display, on that cell of those that wait, or on a new one. -/
  | cell (row i : Nat)
  | leave (row : Nat)
  | select (row : Nat)

/-- The screen after `viewDidLoad`. A table loads its rows once of its own accord. -/
def load : NoticeScreen where
  view := { NoticeView.viewDidLoad with reloads := 1 }

/-- A row whose cell is expanded is removed from the rows that are, another one is inserted. -/
def toggle (expandedRows : List Nat) (row : Nat) (isExpanded : Bool) : List Nat :=
  match isExpanded with
  | true => expandedRows.filter (· ≠ row)
  | false => if expandedRows.contains row then expandedRows else row :: expandedRows

/-- `tableView(_:didSelectRowAt:)`, where the row has a cell. -/
def didSelectRowAt (s : NoticeScreen) (row : Nat) (cell : UITableViewCell NoticeCustomCell) :
    NoticeScreen :=
  { s with
    expandedRows := toggle s.expandedRows row cell.content.isExpanded
    table := s.table.modify row fun cell =>
      { cell with content := cell.content.setExpanded (!cell.content.isExpanded) } }

def step [Platform] (s : NoticeScreen) : Event → Except Trap NoticeScreen
  | .answer type data =>
    match s.view.requests with
    | request :: requests => do
      let view ← { s.view with requests }.onHttpReceive type request.id data
      return { s with view }
    | [] => .ok s
  | .lose =>
    match s.view.requests with
    | _ :: _ => .error .unwrappedNil
    | [] => .ok s
  | .reload =>
    if 0 < s.view.reloads then
      .ok { s with
        view := { s.view with reloads := s.view.reloads - 1 }
        table := s.table.reload s.view.numberOfRowsInSection }
    else .ok s
  | .cell row i =>
    if row < s.table.rows ∧ s.table.at? row = none then do
      let table ← s.table.display { content := {} } (s.view.tableView s.expandedRows row) row i
      return { s with table }
    else .ok s
  | .leave row => .ok { s with table := s.table.leave row }
  | .select row =>
    match s.table.at? row with
    | some cell => .ok (s.didSelectRowAt row cell)
    | none => .ok s

end NoticeScreen
end KBucket
