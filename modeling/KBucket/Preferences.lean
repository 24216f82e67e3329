import Mathlib.Data.Fin.Basic

/-!
# The preferences

What the app remembers beside the store, as values that cannot be ill-formed. Each is set by
itself, and stays until it is set again.

This is a specification: it knows of no keys and no texts.
-/

namespace KBucket

/-- A password: four digits. -/
structure Pin where
  text : String
  length : text.toList.length = 4
  digits : ∀ c ∈ text.toList, c.isDigit = true

/-- The colour behind the screens, by the levels of its components. -/
structure Theme where
  red : Fin 256
  green : Fin 256
  blue : Fin 256
  deriving DecidableEq, Repr

inductive SortOrder where
  | date | memo | deadline
  deriving DecidableEq, Repr

structure Preferences where
  password : Option Pin := none
  nickname : String := ""
  theme : Option Theme := none
  sort : Option SortOrder := none
  token : Option (List UInt8) := none

namespace Preferences

inductive Key where
  | password | nickname | theme | sort | token
  deriving DecidableEq, Repr

inductive Change where
  | password (password : Option Pin)
  | nickname (nickname : String)
  | theme (theme : Theme)
  | sort (order : SortOrder)
  | token (token : List UInt8)

def Change.key : Change → Key
  | .password _ => .password
  | .nickname _ => .nickname
  | .theme _ => .theme
  | .sort _ => .sort
  | .token _ => .token

def set (p : Preferences) : Change → Preferences
  | .password password => { p with password }
  | .nickname nickname => { p with nickname }
  | .theme theme => { p with theme := some theme }
  | .sort order => { p with sort := some order }
  | .token token => { p with token := some token }

/-- A theme, if none was chosen. -/
def withTheme (p : Preferences) (theme : Theme) : Preferences :=
  { p with theme := some (p.theme.getD theme) }

/-- All of a list of changes. -/
def setAll (p : Preferences) (changes : List Change) : Preferences := changes.foldl set p

/-! ## What the server is told -/

inductive Act where
  | change (change : Change)
  /-- The main screen appears where the network can be reached. -/
  | report

/-- The preferences, and those that were reported before, in order. -/
structure Reported where
  preferences : Preferences
  reports : List Preferences := []

/-- A user without a name is not reported. -/
def Reported.act (r : Reported) : Act → Reported
  | .change change => { r with preferences := r.preferences.set change }
  | .report =>
    if r.preferences.nickname = "" then r
    else { r with reports := r.reports ++ [r.preferences] }

end Preferences
end KBucket
