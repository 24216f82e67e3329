import KBucket.Lib.PredicateFormat
import KBucket.Lib.Table

/-!
# What the app takes from Swift and from its frameworks

Swift's traps (an array index out of range, an unwrapped `nil`, a failed `as!`, a closed range
with its ends the wrong way round, a number that an `Int` cannot represent) and the exceptions
that Foundation and Realm raise, which no Swift `catch` sees, all end the process. They are the
errors of the model: a handler of the app is a function into `Except Trap`.

`nfc`, where a definition takes it, is the Unicode normal form that Swift compares strings by:
two strings are `==` when they are canonically equivalent. Realm compares the stored characters
and does not go through it.

How wide an `Int` is depends on the device, and is a `Platform` here. Definitions and statements
take whichever there is, so that what is proved of all inputs is proved of both widths; only where
an input is written down does a width have to be chosen, and it is 64 bits then. Where a number is
read at one width and compared with what is read at another, the width is an argument instead
(`UIColor`).
-/

namespace KBucket

inductive Trap where
  | indexOutOfRange
  | unwrappedNil
  | badCast
  | badRange
  | invalidPredicate
  | primaryKeyExists
  | notRepresentable
  deriving DecidableEq, Repr

@[simp] theorem ok_bind {α β : Type} (a : α) (f : α → Except Trap β) : (.ok a >>= f) = f a := rfl

@[simp] theorem error_bind {α β : Type} (e : Trap) (f : α → Except Trap β) :
    (.error e >>= f) = .error e := rfl

@[simp] theorem pure_eq_ok {α : Type} (a : α) : (pure a : Except Trap α) = .ok a := rfl

/-- A computation that goes through went through at each step. -/
theorem bind_eq_ok {α β : Type} {x : Except Trap α} {f : α → Except Trap β} {b : β} :
    (x >>= f) = .ok b ↔ ∃ a, x = .ok a ∧ f a = .ok b := by
  cases x with
  | error e => exact ⟨fun h => (by cases h), fun ⟨_, h, _⟩ => (by cases h)⟩
  | ok a => exact ⟨fun h => ⟨a, rfl, h⟩, fun ⟨_, h, h'⟩ => (by cases h; exact h')⟩

theorem map_eq_ok {α β : Type} {x : Except Trap α} {f : α → β} {b : β} :
    x.map f = .ok b ↔ ∃ a, x = .ok a ∧ f a = b := by
  cases x with
  | error e => exact ⟨fun h => (by cases h), fun ⟨_, h, _⟩ => (by cases h)⟩
  | ok a =>
    exact ⟨fun h => ⟨a, rfl, by cases h; rfl⟩, fun ⟨_, h, h'⟩ => (by cases h; rw [← h']; rfl)⟩

/-- A computation traps where one of its steps does. -/
theorem bind_eq_error {α β : Type} {x : Except Trap α} {f : α → Except Trap β} {e : Trap} :
    (x >>= f) = .error e ↔ x = .error e ∨ ∃ a, x = .ok a ∧ f a = .error e := by
  cases x with
  | error e' =>
    constructor
    · intro h; cases h; exact Or.inl rfl
    · intro h
      rcases h with h | ⟨_, h, -⟩
      · cases h; rfl
      · cases h
  | ok a =>
    constructor
    · intro h; exact Or.inr ⟨a, rfl, h⟩
    · intro h
      rcases h with h | ⟨_, h, h'⟩
      · cases h
      · cases h; exact h'

/-- What a loop over a list collects: one result for each item. -/
theorem mapM_eq_ok {α β : Type} {f : α → Except Trap β} {xs : List α} {ys : List β} :
    xs.mapM f = .ok ys ↔ List.Forall₂ (fun x y => f x = .ok y) xs ys := by
  induction xs generalizing ys with
  | nil =>
    rw [List.mapM_nil, List.forall₂_nil_left_iff]
    constructor
    · intro h; cases h; rfl
    · rintro rfl; rfl
  | cons x xs ih =>
    rw [List.mapM_cons, List.forall₂_cons_left_iff]
    constructor
    · intro h
      obtain ⟨y, hy, h⟩ := bind_eq_ok.mp h
      obtain ⟨zs, hzs, h⟩ := bind_eq_ok.mp h
      cases h
      exact ⟨y, zs, hy, ih.mp hzs, rfl⟩
    · intro h
      obtain ⟨y, zs, hy, hzs, rfl⟩ := h
      exact bind_eq_ok.mpr ⟨y, hy, bind_eq_ok.mpr ⟨zs, ih.mpr hzs, rfl⟩⟩

/-- What holds of each result holds of all that a loop collects. -/
theorem forall_of_mapM {α β : Type} {f : α → Except Trap β} {P : β → Prop}
    (hP : ∀ x y, f x = .ok y → P y) {xs : List α} {ys : List β} (h : xs.mapM f = .ok ys) :
    ∀ y ∈ ys, P y := by
  have hcollected := mapM_eq_ok.mp h
  clear h
  induction hcollected with
  | nil => intro y hy; cases hy
  | cons hxy _ ih =>
    intro y hy
    rcases List.mem_cons.mp hy with rfl | hy
    · exact hP _ _ hxy
    · exact ih y hy

/-- The only trap that the computation can end in. -/
def TrapsOnly {α : Type} (trap : Trap) (x : Except Trap α) : Prop := ∀ e, x = .error e → e = trap

namespace TrapsOnly

variable {α β : Type} {trap : Trap}

theorem pure (a : α) : TrapsOnly trap (pure a) := by
  intro e h
  cases h

theorem bind {x : Except Trap α} {f : α → Except Trap β} (hx : TrapsOnly trap x)
    (hf : ∀ a, TrapsOnly trap (f a)) : TrapsOnly trap (x >>= f) := by
  intro e h
  rcases bind_eq_error.mp h with h | ⟨a, -, h⟩
  · exact hx e h
  · exact hf a e h

theorem mapM {f : α → Except Trap β} (hf : ∀ a, TrapsOnly trap (f a)) (xs : List α) :
    TrapsOnly trap (xs.mapM f) := by
  induction xs with
  | nil => exact .pure []
  | cons x xs ih =>
    rw [List.mapM_cons]
    exact .bind (hf x) fun y => .bind ih fun ys => .pure (y :: ys)

end TrapsOnly

/-- The computation ends in a value. -/
def Returns {α : Type} (x : Except Trap α) : Prop := ∃ a, x = .ok a

namespace Returns

variable {α β : Type}

@[simp] theorem ok (a : α) : Returns (.ok a : Except Trap α) := ⟨a, rfl⟩

@[simp] theorem not_error (e : Trap) : ¬ Returns (.error e : Except Trap α) := by
  intro h
  obtain ⟨a, ha⟩ := h
  cases ha

/-- What follows a step, when it returns under the same condition whatever the step gave. -/
theorem bind_iff {x : Except Trap α} {f : α → Except Trap β} {P : Prop}
    (hf : ∀ a, x = .ok a → (Returns (f a) ↔ P)) : Returns (x >>= f) ↔ Returns x ∧ P := by
  cases x with
  | error e => simp
  | ok a => simpa using hf a rfl

theorem bind_pure_iff {x : Except Trap α} (g : α → β) :
    Returns (x >>= fun a => pure (g a)) ↔ Returns x := by
  cases x <;> simp

theorem mapM_iff {f : α → Except Trap β} {xs : List α} :
    Returns (xs.mapM f) ↔ ∀ x ∈ xs, Returns (f x) := by
  induction xs with
  | nil => exact ⟨fun _ x hx => (by cases hx), fun _ => ok []⟩
  | cons x xs ih =>
    rw [List.mapM_cons, List.forall_mem_cons, ← ih]
    exact bind_iff fun y _ => bind_pure_iff fun ys => y :: ys

end Returns

/-! ## Strings -/

def stringEq (nfc : String → String) (a b : String) : Bool := nfc a == nfc b

def stringLt (nfc : String → String) (a b : String) : Bool := decide (nfc a < nfc b)

theorem stringEq_refl (nfc : String → String) (a : String) : stringEq nfc a a = true := by
  simp [stringEq]

abbrev Data := List UInt8

/-- `text.data(using: .utf8)`. -/
def utf8 (text : String) : Data := text.toList.flatMap String.utf8EncodeChar

@[simp] theorem utf8_append (a b : String) : utf8 (a ++ b) = utf8 a ++ utf8 b := by
  simp [utf8]

/-- An ASCII byte stands for its own character, and for no other. -/
theorem utf8EncodeChar_ascii {c : Char} {b : UInt8} (h : b ∈ String.utf8EncodeChar c)
    (hb : b.toNat < 128) : c.toNat = b.toNat := by
  unfold String.utf8EncodeChar at h
  simp only [] at h
  split at h
  · next hv =>
    rw [List.mem_singleton] at h
    rw [h, UInt8.toNat_ofNat']
    exact (Nat.mod_eq_of_lt (Nat.lt_of_le_of_lt hv (by decide))).symm
  · exfalso
    split at h
    · simp only [List.mem_cons, List.not_mem_nil, or_false] at h
      rcases h with rfl | rfl <;> rw [UInt8.toNat_ofNat'] at hb <;> omega
    · split at h
      · simp only [List.mem_cons, List.not_mem_nil, or_false] at h
        rcases h with rfl | rfl | rfl <;> rw [UInt8.toNat_ofNat'] at hb <;> omega
      · simp only [List.mem_cons, List.not_mem_nil, or_false] at h
        rcases h with rfl | rfl | rfl | rfl <;> rw [UInt8.toNat_ofNat'] at hb <;> omega

theorem notMem_utf8 {text : String} {b : UInt8} {c : Char} (hb : b.toNat = c.toNat)
    (hc : c.toNat < 128) (h : c ∉ text.toList) : b ∉ utf8 text := by
  intro hmem
  obtain ⟨d, hd, hbyte⟩ := List.mem_flatMap.mp hmem
  have heq := utf8EncodeChar_ascii hbyte (by rw [hb]; exact hc)
  rw [hb] at heq
  exact h (Char.toNat_inj.mp heq ▸ hd)

/-- A value of an integer with a sign, of `w` bits. -/
def FitsWidth (w : Nat) (i : Int) : Prop := -2 ^ (w - 1) ≤ i ∧ i < 2 ^ (w - 1)

instance (w : Nat) (i : Int) : Decidable (FitsWidth w i) := inferInstanceAs (Decidable (_ ∧ _))

/-- What the app is compiled for. An `Int` has 64 bits, or 32 on the older devices. -/
class Platform where
  /-- `Int.bitWidth`. -/
  bitWidth : Nat
  bitWidth_eq : bitWidth = 32 ∨ bitWidth = 64

/-- The platform of the inputs that are written down here. What is said of all inputs is said of
    every platform. -/
instance Platform.bits64 : Platform where
  bitWidth := 64
  bitWidth_eq := .inr rfl

/-- A value of Swift's `Int`. -/
def FitsInt [Platform] (i : Int) : Prop := FitsWidth Platform.bitWidth i

instance [Platform] (i : Int) : Decidable (FitsInt i) :=
  inferInstanceAs (Decidable (FitsWidth _ i))

/-- The numbers that fit in a byte fit on every platform. -/
theorem fitsInt_of_lt [Platform] {i : Int} (hi : 0 ≤ i) (hlt : i < 256) : FitsInt i := by
  have hwidth : (256 : Int) ≤ 2 ^ (Platform.bitWidth - 1) := by
    rcases Platform.bitWidth_eq with h | h <;> rw [h] <;> decide
  unfold FitsInt FitsWidth
  omega

/-- What lies between zero and a number that fits, fits. -/
theorem FitsInt.of_le [Platform] {i j : Int} (h : FitsInt j) (hi : 0 ≤ i) (hle : i ≤ j) :
    FitsInt i := by
  unfold FitsInt FitsWidth at h ⊢
  omega

-- Of the numbers that an `Int` can hold, not all fit on every platform.
example : FitsInt (2 ^ 31) ∧ ¬ @FitsInt ⟨32, .inl rfl⟩ (2 ^ 31) := by decide

def digits? (cs : List Char) : Option Nat :=
  if cs ≠ [] ∧ cs.all Char.isDigit then some (Nat.ofDigitChars 10 cs 0) else none

/-- The value of an optional sign and ASCII digits. -/
def intValue? (text : String) : Option Int :=
  match text.toList with
  | '-' :: cs => (digits? cs).map fun n => -(n : Int)
  | '+' :: cs => (digits? cs).map Int.ofNat
  | cs => (digits? cs).map Int.ofNat

/-- `Int(text)`: `nil` where the text is no number, or one that does not fit. -/
def intOfString? [Platform] (text : String) : Option Int :=
  (intValue? text).bind fun i => if FitsInt i then some i else none

/-- `text.split(separator: separator)`, which leaves out what is empty. -/
def split (text : String) (separator : Char) : List String :=
  ((text.toList.splitOn separator).filter (· ≠ [])).map String.ofList

/-! ## Arrays and ranges -/

/-- `lo...hi`, which traps when `hi` is below `lo`. -/
def closedRange (lo hi : Int) : Except Trap (List Int) :=
  if lo ≤ hi then .ok ((List.range (hi - lo + 1).toNat).map fun k => lo + (k : Int))
  else .error .badRange

/-- `xs[i]`. -/
def arrayGet {α : Type} (xs : List α) (i : Int) : Except Trap α :=
  if 0 ≤ i then
    match xs[i.toNat]? with
    | some x => .ok x
    | none => .error .indexOutOfRange
  else .error .indexOutOfRange

/-- `xs.remove(at: i)`. -/
def arrayRemove {α : Type} (xs : List α) (i : Int) : Except Trap (List α) :=
  if 0 ≤ i ∧ i.toNat < xs.length then .ok (xs.eraseIdx i.toNat) else .error .indexOutOfRange

/-- `x!`. -/
def unwrap {α : Type} : Option α → Except Trap α
  | some x => .ok x
  | none => .error .unwrappedNil

@[simp] theorem unwrap_some {α : Type} (x : α) : unwrap (some x) = .ok x := rfl
@[simp] theorem unwrap_none {α : Type} : unwrap (none : Option α) = .error .unwrappedNil := rfl

theorem unwrap_eq_ok {α : Type} {x : Option α} {a : α} : unwrap x = .ok a ↔ x = some a := by
  cases x with
  | none => simp
  | some b => simp

theorem unwrap_trap {α : Type} (x : Option α) : TrapsOnly .unwrappedNil (unwrap x) := by
  intro e h
  cases x with
  | none => cases h; rfl
  | some x => cases h

theorem arrayGet_ofNat {α : Type} {xs : List α} {n : Nat} (h : n < xs.length) :
    arrayGet xs n = .ok xs[n] := by
  simp [arrayGet, h]

theorem arrayGet_eq_ok {α : Type} {xs : List α} {i : Int} {x : α} :
    arrayGet xs i = .ok x ↔ 0 ≤ i ∧ xs[i.toNat]? = some x := by
  unfold arrayGet
  split
  · next h =>
    cases hx : xs[i.toNat]? with
    | none => simp [h]
    | some y => simp [h]
  · next h => simp [h]

theorem arrayGet_outOfRange {α : Type} {xs : List α} {n : Nat} (h : xs.length ≤ n) :
    arrayGet xs n = .error .indexOutOfRange := by
  simp [arrayGet, h]

theorem arrayRemove_last {α : Type} {xs : List α} (h : xs ≠ []) :
    arrayRemove xs ((xs.length : Int) - 1) = .ok xs.dropLast := by
  have hpos : 0 < xs.length := List.length_pos_iff.mpr h
  have hlast : ((xs.length : Int) - 1).toNat = xs.length - 1 := by omega
  rw [arrayRemove, hlast, if_pos (by omega), List.eraseIdx_eq_dropLast (by omega)]

/-! ## Decimal numbers

`String(i)` read back by `Int(_:)`. -/

theorem digits?_toDigits (n : Nat) : digits? (Nat.toDigits 10 n) = some n := by
  have hall : (Nat.toDigits 10 n).all Char.isDigit = true :=
    List.all_eq_true.mpr fun c hc => Nat.isDigit_of_mem_toDigits (by decide) (by decide) hc
  rw [digits?, if_pos ⟨Nat.toDigits_ne_nil, hall⟩, Nat.ofDigitChars_ten_toDigits]

theorem toList_toString_ofNat (n : Nat) :
    (toString (Int.ofNat n)).toList = Nat.toDigits 10 n := by
  show (toString n).toList = _
  simp

theorem toList_toString_negSucc (n : Nat) :
    (toString (Int.negSucc n)).toList = '-' :: Nat.toDigits 10 (n + 1) := by
  show ("-" ++ Nat.repr (n + 1)).toList = _
  simp

/-- A number is written with digits and a sign. -/
theorem mem_toString_int {i : Int} {c : Char} (hc : c ∈ (toString i).toList) :
    c = '-' ∨ c.isDigit = true := by
  have hdigit : ∀ n : Nat, c ∈ Nat.toDigits 10 n → c.isDigit = true := fun n hn =>
    Nat.isDigit_of_mem_toDigits (by decide) (by decide) hn
  cases i with
  | ofNat n =>
    rw [toList_toString_ofNat] at hc
    exact Or.inr (hdigit n hc)
  | negSucc n =>
    rw [toList_toString_negSucc] at hc
    exact (List.mem_cons.mp hc).imp id (hdigit (n + 1))

theorem intValue?_toString (i : Int) : intValue? (toString i) = some i := by
  cases i with
  | ofNat n =>
    have hl := toList_toString_ofNat n
    have hdigit : ∀ c ∈ Nat.toDigits 10 n, c.isDigit = true := fun c hc =>
      Nat.isDigit_of_mem_toDigits (by decide) (by decide) hc
    -- The first character is a digit, so no sign is read.
    unfold intValue?
    split
    · next cs h =>
      rw [hl] at h
      exact absurd (hdigit '-' (by simp [h])) (by decide)
    · next cs h =>
      rw [hl] at h
      exact absurd (hdigit '+' (by simp [h])) (by decide)
    · rw [hl, digits?_toDigits]; rfl
  | negSucc n =>
    simp only [intValue?, toList_toString_negSucc, digits?_toDigits]
    rfl

theorem intOfString?_toString [Platform] {i : Int} (hi : FitsInt i) :
    intOfString? (toString i) = some i := by
  rw [intOfString?, intValue?_toString]
  simpa using hi

/-- Different numbers are written differently. -/
theorem toString_int_inj {i j : Int} (h : toString i = toString j) : i = j := by
  have heq := intValue?_toString i
  rw [h, intValue?_toString] at heq
  exact (Option.some.inj heq).symm

/-! ## Dictionaries -/

/-- `[String: String]`, with its entries in the order in which Swift happens to run through them. -/
abbrev Dictionary := Lib.Table (String × String) String Prod.fst

/-- `dictionary[key]`. -/
def Dictionary.get? (dictionary : Dictionary) (key : String) : Option String :=
  (dictionary.find? key).map Prod.snd

theorem Dictionary.get?_of_mem {dictionary : Dictionary} {p : String × String}
    (hp : p ∈ dictionary.rows) : Dictionary.get? dictionary p.1 = some p.2 := by
  rw [Dictionary.get?, Lib.Table.find?_of_mem hp]
  rfl

/-- How Swift runs through the entries of a dictionary literal: in some order, which it does not
    promise and which differs from one launch of the app to the next. -/
structure HashOrder where
  order : Dictionary → Dictionary
  same : ∀ dictionary, (order dictionary).Same dictionary

/-- The order in which the entries are written in the source. -/
def HashOrder.asWritten : HashOrder := ⟨id, fun dictionary => List.Perm.refl dictionary.rows⟩

/-! ## UserDefault -/

/-- The strings stored in `UserDefaults.standard`, by key. -/
abbrev UserDefaults := String → Option String

namespace UserDefault

def write (defaults : UserDefaults) (key value : String) : UserDefaults :=
  fun k => if k = key then some value else defaults k

def read (defaults : UserDefaults) (key : String) : String :=
  match defaults key with
  | some value => value
  | none => ""

@[simp] theorem read_write (defaults : UserDefaults) (key value : String) :
    read (write defaults key value) key = value := by
  simp [read, write]

end UserDefault

end KBucket
