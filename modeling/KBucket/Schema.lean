import KBucket.Json
import KBucket.Managers.Http

/-!
# Which answers the casts accept

A schema names the fields that a reader takes out of an item, each with the type it casts to. It
says of an item whether the reader returns, without running it: `Json.matches_iff` and its like
are proved for each reader.

A screen that shows lists gives, for each action that asks for one, the key of the array and the
schema of its items. With these `Lists` an answer is `WellFormed`, and it is `Readable` when no
cast that the handler comes to can fail.
-/

namespace KBucket

inductive Kind where
  | bool | int | string
  deriving DecidableEq, Repr

namespace Kind

/-- The values that the forced cast to the type accepts. -/
def accepts [Platform] : Kind → Option Json → Bool
  | .bool, some (.bool _) => true
  | .bool, some (.int value) => value == 0 || value == 1
  | .int, some (.bool _) => true
  | .int, some (.int value) => decide (FitsInt value)
  | .string, some (.str _) => true
  | _, _ => false

theorem returns_asBool [Platform] {json : Option Json} : Returns
    (Json.asBool json) ↔ bool.accepts json := by
  rcases json with _ | json
  · simp [Json.asBool, accepts]
  · cases json with
    | int value =>
      by_cases h : value = 0 ∨ value = 1
      · rcases h with rfl | rfl <;> simp [Json.asBool, accepts]
      · obtain ⟨hzero, hone⟩ := not_or.mp h
        simp [Json.asBool, accepts, hzero, hone]
    | bool value => simp [Json.asBool, accepts]
    | null => simp [Json.asBool, accepts]
    | fraction => simp [Json.asBool, accepts]
    | str value => simp [Json.asBool, accepts]
    | arr items => simp [Json.asBool, accepts]
    | obj fields => simp [Json.asBool, accepts]

theorem returns_asInt [Platform] {json : Option Json} :
    Returns (Json.asInt json) ↔ int.accepts json := by
  rcases json with _ | json
  · simp [Json.asInt, accepts]
  · cases json with
    | int value =>
      simp only [Json.asInt, accepts]
      split
      · next h => simp [h]
      · next h => simp [h]
    | bool value => simp [Json.asInt, accepts]
    | null => simp [Json.asInt, accepts]
    | fraction => simp [Json.asInt, accepts]
    | str value => simp [Json.asInt, accepts]
    | arr items => simp [Json.asInt, accepts]
    | obj fields => simp [Json.asInt, accepts]

theorem returns_asString [Platform] {json : Option Json} :
    Returns (Json.asString json) ↔ string.accepts json := by
  rcases json with _ | json
  · simp [Json.asString, accepts]
  · cases json <;> simp [Json.asString, accepts]

end Kind

/-- The fields that a reader takes out of an item. -/
abbrev Schema := List (String × Kind)

/-- What a screen lists after an action: the array it looks for, and what it expects in it. -/
abbrev Listing := Int → Option (String × Schema)

namespace Json

def hasFields [Platform] (schema : Schema) (fields : List (String × Json)) : Bool :=
  schema.all fun field => field.2.accepts (fields.lookup field.1)

/-- An object that has all the fields of the schema. -/
def matchesSchema [Platform] (schema : Schema) : Json → Bool
  | .obj fields => hasFields schema fields
  | _ => false

/-- Under the key stands an array of items of the schema. -/
def HasItems [Platform] (key : String) (schema : Schema) (fields : List (String × Json)) : Prop :=
  ∃ items, fields.lookup key = some (.arr items) ∧ ∀ item ∈ items, item.matchesSchema schema

/-- The server says that the answer is one. -/
def SaysValid (fields : List (String × Json)) : Prop :=
  fields.lookup "isValid" = some (.bool true) ∨ fields.lookup "isValid" = some (.int 1)

/-- A well-formed answer to an action. -/
def WellFormed [Platform] (listing : Listing) (actionId : Int) (data : Option Json) : Prop :=
  ∃ fields, data = some (.obj fields) ∧ SaysValid fields ∧
    ∀ key schema, listing actionId = some (key, schema) → HasItems key schema fields

/-- An answer in which every cast that the handler comes to goes through: `isValid` is a truth
    value in any object with fields, and an answer that is said to be valid has its items, where
    the response was one. -/
def Readable [Platform] (listing : Listing) (type actionId : Int) (data : Option Json) : Prop :=
  ∀ fields, data = some (.obj fields) → fields ≠ [] →
    Kind.bool.accepts (fields.lookup "isValid") ∧
    (type = ConstHTTP.HTTP_OK → SaysValid fields →
      ∀ key schema, listing actionId = some (key, schema) → HasItems key schema fields)

/-! ## `isValid` -/

theorem asBool_eq_true {json : Option Json} :
    asBool json = .ok true ↔ json = some (.bool true) ∨ json = some (.int 1) := by
  constructor
  · intro h
    unfold asBool at h
    split at h
    · cases h; exact Or.inl rfl
    · cases h
    · exact Or.inr rfl
    · cases h
  · intro h
    rcases h with rfl | rfl <;> rfl

theorem isValid_eq_true {fields : List (String × Json)} :
    isValid (some (.obj fields)) = .ok true ↔ SaysValid fields := by
  rw [SaysValid, ← asBool_eq_true]
  cases fields with
  | nil => simp [isValid, asBool]
  | cons field fields => simp [isValid]

theorem returns_isValid [Platform] {data : Option Json} : Returns (isValid data) ↔
    ∀ fields, data = some (.obj fields) → fields ≠ [] →
      Kind.bool.accepts (fields.lookup "isValid") := by
  unfold isValid
  split
  · next fields =>
    cases fields with
    | nil => simp
    | cons field fields => simp [Kind.returns_asBool]
  · next hnot => exact iff_of_true (.ok false) fun fields heq => absurd heq (hnot fields)

/-! ## Readers -/

section Readers

variable {α β : Type} {key : String} {kind : Kind} {schema : Schema}
  {fields : List (String × Json)}

theorem returns_object [Platform] {item : Json} {f : List (String × Json) → Except Trap α}
    (hf : ∀ fields, Returns (f fields) ↔ hasFields schema fields) :
    Returns (asObject (some item) >>= f) ↔ item.matchesSchema schema := by
  cases item with
  | obj fields => exact hf fields
  | null => simp [asObject, matchesSchema]
  | bool value => simp [asObject, matchesSchema]
  | int value => simp [asObject, matchesSchema]
  | fraction => simp [asObject, matchesSchema]
  | str value => simp [asObject, matchesSchema]
  | arr items => simp [asObject, matchesSchema]

theorem returns_field [Platform] {x : Except Trap α} {f : α → Except Trap β}
    (hx : Returns x ↔ kind.accepts (fields.lookup key))
    (hf : ∀ a, Returns (f a) ↔ hasFields schema fields) :
    Returns (x >>= f) ↔ hasFields ((key, kind) :: schema) fields := by
  rw [Returns.bind_iff fun a _ => hf a, hx]
  simp [hasFields]

theorem returns_fields [Platform] (a : α) :
    Returns (pure a : Except Trap α) ↔ hasFields [] fields :=
  iff_of_true (.ok a) rfl

/-- What a handler does with the array of an answer. -/
theorem returns_items [Platform] {read : Json → Except Trap α} {g : List α → β}
    (hread : ∀ item, Returns (read item) ↔ item.matchesSchema schema) :
    Returns (do
      let items ← asArray (fields.lookup key)
      let xs ← items.mapM read
      return g xs) ↔ HasItems key schema fields := by
  have hmap : ∀ items : List Json, Returns (do
      let xs ← items.mapM read
      return g xs) ↔ ∀ item ∈ items, item.matchesSchema schema := by
    intro items
    rw [Returns.bind_pure_iff, Returns.mapM_iff]
    exact forall₂_congr fun item _ => hread item
  unfold asArray
  split
  · next items heq =>
    rw [ok_bind, hmap]
    constructor
    · intro h
      exact ⟨items, heq, h⟩
    · intro h
      obtain ⟨items', heq', h⟩ := h
      rw [heq] at heq'
      cases heq'
      exact h
  · -- No array under the key: the cast traps, and there are no items.
    next hnot =>
    refine iff_of_false (Returns.not_error _) fun h => ?_
    obtain ⟨items, heq, -⟩ := h
    exact hnot items heq

end Readers

/-! ## What a handler comes to -/

section Handlers

variable {listing : Listing} {type actionId : Int} {data : Option Json} {key : String}
  {schema : Schema} {fields : List (String × Json)}

/-- Of a valid list the handler casts the array and its items. -/
theorem readable_list [Platform] (hvalid : isValid (some (.obj fields)) = .ok true)
    (hlisting : listing actionId = some (key, schema)) :
    Readable listing ConstHTTP.HTTP_OK actionId (some (.obj fields)) ↔
      HasItems key schema fields := by
  have hsays := isValid_eq_true.mp hvalid
  constructor
  · intro h
    have hne : fields ≠ [] := by
      rintro rfl
      cases hvalid
    exact (h fields rfl hne).2 rfl hsays key schema hlisting
  · intro h fields' heq hne
    cases heq
    refine ⟨returns_isValid.mp ⟨true, hvalid⟩ fields rfl hne, ?_⟩
    -- An action lists one array.
    intro _ _ key' schema' hlisting'
    rw [hlisting] at hlisting'
    cases hlisting'
    exact h

/-- Of anything else it casts no more than `isValid`. -/
theorem readable_other [Platform]
    (hother : ¬ (type = ConstHTTP.HTTP_OK ∧ isValid data = .ok true ∧ listing actionId ≠ none)) :
    Readable listing type actionId data ↔ Returns (isValid data) := by
  rw [returns_isValid]
  constructor
  · intro h fields heq hne
    exact (h fields heq hne).1
  · intro h fields heq hne
    refine ⟨h fields heq hne, fun htype hsays key schema hlisting => ?_⟩
    refine absurd ⟨htype, ?_, ?_⟩ hother
    · rw [heq]
      exact isValid_eq_true.mpr hsays
    · rw [hlisting]
      exact Option.some_ne_none _

/-- A list that is read is well formed. -/
theorem wellFormed_of_lists [Platform] {α : Type} {read : Json → Except Trap α} {xs : List α}
    (hread : ∀ item, Returns (read item) ↔ item.matchesSchema schema)
    (hlisting : listing actionId = some (key, schema)) (h : Lists key read data xs) :
    WellFormed listing actionId data := by
  obtain ⟨hvalid, fields, items, rfl, hitems, hxs⟩ := h
  refine ⟨fields, rfl, isValid_eq_true.mp hvalid, fun key' schema' hlisting' => ?_⟩
  rw [hlisting] at hlisting'
  cases hlisting'
  refine (returns_items (g := id) hread).mp ⟨xs, ?_⟩
  exact bind_eq_ok.mpr ⟨items, hitems, bind_eq_ok.mpr ⟨xs, hxs, rfl⟩⟩

end Handlers

end Json
end KBucket
