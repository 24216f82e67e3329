import KBucket.Foundation

/-!
# JSON values and the casts that read them

What `JSONSerialization` makes of a body that parses, and the forced casts (`as!`) with which the
handlers take it apart. A number is an `NSNumber`: it casts to `Int` when it is a whole number
that fits, and to `Bool` when it is 0 or 1; a boolean casts to `Int` as well. A missing key is
`nil`, which no cast accepts.

The parser itself is not modelled. A statement about an answer is one about any value of this type,
or about `none` where the body did not parse.
-/

namespace KBucket

inductive Json where
  | null
  | bool (value : Bool)
  | int (value : Int)
  | fraction
  | str (value : String)
  | arr (items : List Json)
  | obj (fields : List (String × Json))

namespace Json

def asBool : Option Json → Except Trap Bool
  | some (.bool value) => .ok value
  | some (.int 0) => .ok false
  | some (.int 1) => .ok true
  | _ => .error .badCast

def asInt [Platform] : Option Json → Except Trap Int
  | some (.int value) => if FitsInt value then .ok value else .error .badCast
  | some (.bool value) => .ok (if value then 1 else 0)
  | _ => .error .badCast

def asString : Option Json → Except Trap String
  | some (.str value) => .ok value
  | _ => .error .badCast

def asArray : Option Json → Except Trap (List Json)
  | some (.arr items) => .ok items
  | _ => .error .badCast

def asObject : Option Json → Except Trap (List (String × Json))
  | some (.obj fields) => .ok fields
  | _ => .error .badCast

/-- What every handler reads first: the field `isValid` of an object with fields. -/
def isValid : Option Json → Except Trap Bool
  | some (.obj fields) => if fields.length > 0 then asBool (fields.lookup "isValid") else .ok false
  | _ => .ok false

/-- A valid answer whose array `key` reads, item by item, as `xs`. -/
def Lists {α : Type} (key : String) (item : Json → Except Trap α) (data : Option Json)
    (xs : List α) : Prop :=
  isValid data = .ok true ∧ ∃ fields items, data = some (.obj fields) ∧
    asArray (fields.lookup key) = .ok items ∧ items.mapM item = .ok xs

/-! ## What the casts give -/

theorem asInt_fits [Platform] {json : Option Json} {i : Int} (h : asInt json = .ok i) :
    FitsInt i := by
  unfold asInt at h
  split at h
  · split at h
    · next hfits => cases h; exact hfits
    · cases h
  · cases h
    split
    · exact fitsInt_of_lt (by decide) (by decide)
    · exact fitsInt_of_lt (by decide) (by decide)
  · cases h

/-- Only an object is a valid answer. -/
theorem isValid_true {data : Option Json} (h : isValid data = .ok true) :
    ∃ fields, data = some (.obj fields) := by
  unfold isValid at h
  split at h
  · next fields => exact ⟨fields, rfl⟩
  · cases h

/-! ## A failed cast is the only trap -/

theorem asBool_trap (json : Option Json) : TrapsOnly .badCast (asBool json) := by
  intro e h
  unfold asBool at h
  split at h <;> cases h
  rfl

theorem asInt_trap [Platform] (json : Option Json) : TrapsOnly .badCast (asInt json) := by
  intro e h
  unfold asInt at h
  split at h
  · split at h <;> cases h
    rfl
  · cases h
  · cases h; rfl

theorem asString_trap (json : Option Json) : TrapsOnly .badCast (asString json) := by
  intro e h
  unfold asString at h
  split at h <;> cases h
  rfl

theorem asArray_trap (json : Option Json) : TrapsOnly .badCast (asArray json) := by
  intro e h
  unfold asArray at h
  split at h <;> cases h
  rfl

theorem asObject_trap (json : Option Json) : TrapsOnly .badCast (asObject json) := by
  intro e h
  unfold asObject at h
  split at h <;> cases h
  rfl

theorem isValid_trap (data : Option Json) : TrapsOnly .badCast (isValid data) := by
  intro e h
  unfold isValid at h
  split at h
  · split at h
    · exact asBool_trap _ e h
    · cases h
  · cases h

end Json
end KBucket
