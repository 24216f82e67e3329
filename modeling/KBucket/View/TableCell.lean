import KBucket.Utils.UIColor

/-!
# The cells of a table

A table hands out a cell that has left the screen again, with all that is on it. A data source
writes the outlets of its own cell class (`Content`), and what every cell has.
-/

namespace KBucket

inductive SelectionStyle where
  | none | blue | gray | default
  deriving DecidableEq, Repr

structure UITableViewCell (Content : Type) where
  content : Content
  selectionStyle : SelectionStyle := .default
  backgroundColor : Option UIColor := .none
  deriving DecidableEq, Repr

namespace UITableViewCell

variable {Content : Type}

/-- The cell with its outlets written; a data source turns the selection off with them. -/
def fill (cell : UITableViewCell Content) (content : Content) : UITableViewCell Content :=
  { cell with content, selectionStyle := .none }

/-- `mBackColor` is what the screen has read as the colour of the theme. -/
def setBackColor (w : Nat) (mBackColor : String) (cell : UITableViewCell Content) :
    UITableViewCell Content :=
  if mBackColor.length > 0 then { cell with backgroundColor := UIColor.hexRGB w mBackColor }
  else cell

end UITableViewCell
end KBucket
