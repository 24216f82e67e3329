import KBucket.Lib.DataSource
import KBucket.Lib.Run
import KBucket.View.RankListView

/-!
# The ranking at work

`RankListView` together with its table: answers of the server arrive, the reloads that they ask
for run, the table asks for cells, and a button of a cell on display is pressed. Each is one
event, and they come in any order. The table remembers with each cell the bucket it was made
from, which is what the user sees there.

An event that cannot happen (a reload when none is queued, a row the table does not have, a press
on a row without a cell) changes nothing.

An answer is any value: what a server would send, and that a request may be lost, comes in with
`RankExchange`.
-/

namespace KBucket

open Lib

structure RankScreen where
  view : RankListView
  table : TableView (RankCustomCell × BucketRank)

namespace RankScreen

inductive Event where
  | response (type actionId : Int) (data : Option Json)
  | reload
  | cell (row : Nat)
  | press (row : Nat) (button : RankButton)

/-- The screen after `viewDidLoad`, with a table that has no rows yet. -/
def load (defaults : UserDefaults) (isConnect : Bool) : RankScreen where
  view := .viewDidLoad defaults isConnect
  table := .reload 0

def step [Platform] (s : RankScreen) : Event → Except Trap RankScreen
  | .response type actionId data => do
    let view ← s.view.onHttpReceive type actionId data
    return { s with view }
  | .reload =>
    if 0 < s.view.reloads then
      .ok { view := { s.view with reloads := s.view.reloads - 1 }
            table := .reload s.view.numberOfRowsInSection }
    else .ok s
  | .cell row =>
    if h : row < s.table.rows then do
      let cell ← s.view.cellForRowAt row {}
      let bucket ← arrayGet s.view.mBucketDataList row
      return { s with table := s.table.display row (cell, bucket) h }
    else .ok s
  | .press row button =>
    match s.table.shown row with
    | some (cell, _) => do
      let view ← s.view.receiveEventFromViewItem button.gbn cell.mData
      return { s with view }
    | none => .ok s

end RankScreen
end KBucket
