import KBucket.View.TableCell

/-!
# `FirstCustomCell.swift`

The cell of the to-do list and of the suggestions. Where the suggestions are only looked at, its
two buttons are hidden and a second field lies over the first.
-/

namespace KBucket

/-- The prototype of the to-do list has no `btEditFull`, which comes to one that is hidden. -/
structure FirstCustomCell where
  btEdt : String := ""
  btEditFull : String := ""
  btModIsHidden : Bool := false
  btDelIsHidden : Bool := false
  btEditFullIsHidden : Bool := true
  mData : String := ""
  deriving DecidableEq, Repr

inductive FirstButton where
  | btDel | btMod
  deriving DecidableEq, Repr

namespace FirstCustomCell

/-- The text that can be read on the cell. -/
def text (cell : FirstCustomCell) : String :=
  if cell.btEditFullIsHidden then cell.btEdt else cell.btEditFull

/-- A hidden button cannot be pressed. -/
def isHidden (cell : FirstCustomCell) : FirstButton → Bool
  | .btDel => cell.btDelIsHidden
  | .btMod => cell.btModIsHidden

end FirstCustomCell
end KBucket
