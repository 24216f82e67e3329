import KBucket.Lib.DataSource
import KBucket.Lib.Run
import KBucket.View.ShareListView

/-!
# The shared buckets at work

`ShareListView` together with its table, as `RankScreen` is `RankListView` with its own: besides
answers, reloads and cells there are taps on a category and taps on a row. A number of rows is an
`Int`, so a table only ever reloads to one that fits.

As on the ranking an answer is any value; the server comes in with `ShareExchange`.
-/

namespace KBucket

open Lib

structure ShareScreen where
  view : ShareListView
  table : TableView (ShareCustomCell × Bucket)

namespace ShareScreen

inductive Event where
  | category (sender : CategoryButton) (isConnect : Bool)
  | response (type actionId : Int) (data : Option Json)
  | reload
  | cell (row : Nat)
  | tap (row : Nat)

/-- The screen after `viewDidLoad`, with a table that has no rows yet. -/
def load (isConnect : Bool) : ShareScreen where
  view := .viewDidLoad isConnect
  table := .reload 0

def step [Platform] (s : ShareScreen) : Event → Except Trap ShareScreen
  | .category sender isConnect => .ok { s with view := s.view.onClick sender isConnect }
  | .response type actionId data => do
    let view ← s.view.onHttpReceive type actionId data
    return { s with view }
  | .reload =>
    if 0 < s.view.reloads ∧ FitsInt s.view.numberOfRowsInSection then
      .ok { view := { s.view with reloads := s.view.reloads - 1 }
            table := .reload s.view.numberOfRowsInSection }
    else .ok s
  | .cell row =>
    if h : row < s.table.rows then do
      let cell ← s.view.cellForRowAt row {}
      let bucket ← arrayGet s.view.mBucketDataList row
      return { s with table := s.table.display row (cell, bucket) h }
    else .ok s
  | .tap row =>
    match s.table.shown row with
    | some (cell, _) => do
      let view ← s.view.receiveEventFromViewItem 0 cell.mData
      return { s with view }
    | none => .ok s

end ShareScreen
end KBucket
