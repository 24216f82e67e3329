import KBucket.Lib.Calendar

/-!
# Writing dates by a pattern

A second of a clock is counted from the start of 1970 as the clock shows it; `DateComponents` are
its date and time of day. A pattern is read as runs of one letter (Unicode TR35): `y` is the year of
its era, `M` the month and `d` the day, `H` the hour of 24 and `h` that of a 12-hour clock, `m` the
minute and `s` the second. A field is written in decimal, with zeros in front up to the length of
its run; `yy` is the year's last two digits, and what is no letter stands for itself. The fields
that TR35 writes in words (`MMM` and longer) are left out.
-/

namespace Lib

open Calendar

/-- A date and a time of that day. -/
structure DateComponents where
  date : Date
  hour : Nat
  minute : Nat
  second : Nat
  month_le : date.month ≤ 12
  day_le : date.day ≤ 31
  hour_lt : hour < 24
  minute_lt : minute < 60
  second_lt : second < 60

/-- Day 719162 of the calendar is the first of 1970. -/
def DateComponents.ofSecond (clock : Int) : DateComponents where
  date := Date.ofDay (clock / 86400 + 719162)
  hour := (clock % 86400 / 3600).toNat
  minute := (clock % 3600 / 60).toNat
  second := (clock % 60).toNat
  month_le := (Date.ofDay_bounds _).2.1
  day_le := (Date.ofDay_bounds _).2.2.2
  hour_lt := by omega
  minute_lt := by omega
  second_lt := by omega

namespace DateFormat

def pad (width n : Nat) : List Char := (Nat.toDigits 10 n).leftpad width '0'

theorem pad_inj {width m n : Nat} : pad width m = pad width n ↔ m = n := by
  constructor
  · intro h
    have hread := congrArg (fun cs => Nat.ofDigitChars 10 cs 0) h
    simpa [pad, List.leftpad, Nat.ofDigitChars_append] using hread
  · rintro rfl
    rfl

theorem length_pad_two {n : Nat} (hn : n < 100) : (pad 2 n).length = 2 := by
  have hdigits : (Nat.toDigits 10 n).length ≤ 2 :=
    (Nat.length_toDigits_le_iff (by decide) (by decide)).mpr hn
  rw [pad, List.length_leftpad]
  exact Nat.max_eq_left hdigits

/-- The year 0 is the first before the era, and the years before it count back from there. -/
def yearOfEra (year : Int) : Nat := if 0 < year then year.toNat else (1 - year).toNat

/-- The hour on a clock that goes from 1 to 12. -/
def hour12 (hour : Nat) : Nat := (hour + 11) % 12 + 1

def field (c : DateComponents) : Char × Nat → List Char
  | ('y', 2) => pad 2 (yearOfEra c.date.year % 100)
  | ('y', width) => pad width (yearOfEra c.date.year)
  | ('M', width) => pad width c.date.month
  | ('d', width) => pad width c.date.day
  | ('H', width) => pad width c.hour
  | ('h', width) => pad width (hour12 c.hour)
  | ('m', width) => pad width c.minute
  | ('s', width) => pad width c.second
  | (other, width) => List.replicate width other

section Fields

variable (c : DateComponents) (width : Nat)

theorem field_yy : field c ('y', 2) = pad 2 (yearOfEra c.date.year % 100) := rfl

theorem field_yyyy : field c ('y', 4) = pad 4 (yearOfEra c.date.year) := rfl

theorem field_month : field c ('M', width) = pad width c.date.month := rfl

theorem field_day : field c ('d', width) = pad width c.date.day := rfl

theorem field_hour12 : field c ('h', width) = pad width (hour12 c.hour) := rfl

theorem field_minute : field c ('m', width) = pad width c.minute := rfl

theorem field_second : field c ('s', width) = pad width c.second := rfl

theorem field_hyphen : field c ('-', width) = List.replicate width '-' := rfl

theorem field_underscore : field c ('_', width) = List.replicate width '_' := rfl

end Fields

/-- The runs of equal characters and their lengths. -/
def runs : List Char → List (Char × Nat)
  | [] => []
  | c :: cs =>
    match runs cs with
    | (d, n) :: rest => if c = d then (d, n + 1) :: rest else (c, 1) :: (d, n) :: rest
    | [] => [(c, 1)]

def format (pattern : String) (c : DateComponents) : String :=
  String.ofList ((runs pattern.toList).flatMap (field c))

/-! ## When two texts are equal -/

/-- A field of two letters has two characters. -/
theorem length_field_two (c : DateComponents) (letter : Char) :
    (field c (letter, 2)).length = 2 := by
  have hmonth := c.month_le
  have hday := c.day_le
  have hhour := c.hour_lt
  have hminute := c.minute_lt
  have hsecond := c.second_lt
  unfold field
  split
  · exact length_pad_two (Nat.mod_lt _ (by decide))
  · -- `yy` is the case before.
    next hnot heq => cases heq; exact absurd rfl hnot
  · next heq => cases heq; exact length_pad_two (by omega)
  · next heq => cases heq; exact length_pad_two (by omega)
  · next heq => cases heq; exact length_pad_two (by omega)
  · next heq => cases heq; exact length_pad_two (by unfold hour12; omega)
  · next heq => cases heq; exact length_pad_two (by omega)
  · next heq => cases heq; exact length_pad_two (by omega)
  · next heq => cases heq; exact List.length_replicate

theorem flatMap_eq_iff {c c' : DateComponents} {rs : List (Char × Nat)}
    (hlength : ∀ r ∈ rs, (field c r).length = (field c' r).length) :
    rs.flatMap (field c) = rs.flatMap (field c') ↔ ∀ r ∈ rs, field c r = field c' r := by
  induction rs with
  | nil => simp
  | cons r rs ih =>
    obtain ⟨hr, hrs⟩ := List.forall_mem_cons.mp hlength
    rw [List.flatMap_cons, List.flatMap_cons, List.forall_mem_cons, ← ih hrs]
    constructor
    · intro h
      exact List.append_inj h hr
    · rintro ⟨hfield, hfields⟩
      rw [hfield, hfields]

/-- **Two texts of one pattern are equal exactly when they are field by field**, when only the
    first field can differ in length. -/
theorem format_eq_iff {pattern : String} {first : Char × Nat} {rest : List (Char × Nat)}
    (hruns : runs pattern.toList = first :: rest) {c c' : DateComponents}
    (hlength : ∀ r ∈ rest, (field c r).length = (field c' r).length) :
    format pattern c = format pattern c' ↔
      field c first = field c' first ∧ ∀ r ∈ rest, field c r = field c' r := by
  have htail : (rest.flatMap (field c)).length = (rest.flatMap (field c')).length := by
    rw [List.length_flatMap, List.length_flatMap, List.map_congr_left hlength]
  unfold format
  rw [String.ofList_inj, hruns, List.flatMap_cons, List.flatMap_cons, ← flatMap_eq_iff hlength]
  constructor
  · intro h
    -- Cut from the right, where the lengths are known.
    exact List.append_inj' h htail
  · rintro ⟨hfield, hfields⟩
    rw [hfield, hfields]

theorem hour12_eq_iff {m n : Nat} : hour12 m = hour12 n ↔ m % 12 = n % 12 := by
  unfold hour12
  omega

/-- The half day of a second is read off the clock. -/
theorem ofSecond_mod (clock : Int) : clock % 43200 =
    3600 * (((DateComponents.ofSecond clock).hour % 12 : Nat) : Int) +
      60 * (DateComponents.ofSecond clock).minute + (DateComponents.ofSecond clock).second := by
  have hhour : (((clock % 86400 / 3600).toNat % 12 : Nat) : Int) = clock % 43200 / 3600 := by omega
  have hminute : ((clock % 3600 / 60).toNat : Int) = clock % 3600 / 60 := by omega
  have hsecond : ((clock % 60).toNat : Int) = clock % 60 := by omega
  simp only [DateComponents.ofSecond, hhour, hminute, hsecond]
  omega

/-- A 12-hour clock shows every time twice a day. -/
theorem hour12_minute_second_iff (m n : Int) :
    hour12 (DateComponents.ofSecond m).hour = hour12 (DateComponents.ofSecond n).hour ∧
      (DateComponents.ofSecond m).minute = (DateComponents.ofSecond n).minute ∧
      (DateComponents.ofSecond m).second = (DateComponents.ofSecond n).second ↔
      m % 43200 = n % 43200 := by
  have hm := (DateComponents.ofSecond m).minute_lt
  have hm' := (DateComponents.ofSecond m).second_lt
  have hn := (DateComponents.ofSecond n).minute_lt
  have hn' := (DateComponents.ofSecond n).second_lt
  rw [hour12_eq_iff, ofSecond_mod m, ofSecond_mod n]
  omega

example : format "yyyy-MM-dd HH:mm:ss" (.ofSecond 951827696) = "2000-02-29 12:34:56" := by decide

end DateFormat
end Lib
