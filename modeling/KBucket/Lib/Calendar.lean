import Mathlib.Data.List.Basic

/-!
# The Gregorian calendar

Days are counted from the first of January of the year 1, which is day 0; the calendar is carried
back beyond its introduction, with a year 0 and years before it. `Date.ofDay` finds the date of a
day and `Date.toDay` counts back, so that no two days have one date (`Date.toDay_ofDay`). The year
is found by the cycles of 400, 100, 4 and 1 years, and is the one in which the day lies
(`day_eq`, `rest_mem`); from that the bounds on month and day follow.
-/

namespace Lib.Calendar

def isLeap (year : Int) : Bool := year % 4 == 0 && (year % 100 != 0 || year % 400 == 0)

def yearLength (year : Int) : Int := if isLeap year then 366 else 365

/-- The first of January of the year. -/
def newYear (year : Int) : Int :=
  365 * (year - 1) + (year - 1) / 4 - (year - 1) / 100 + (year - 1) / 400

/-- How many whole cycles of each length precede a day, of at most three centuries in 400 years and
    three years in four. -/
structure Cycles where
  n400 : Int
  n100 : Int
  n4 : Int
  n1 : Int
  rest : Int
  century : 0 ≤ n100 ∧ n100 ≤ 3
  olympiad : 0 ≤ n4 ∧ n4 ≤ 24
  year : 0 ≤ n1 ∧ n1 ≤ 3

def cycles (day : Int) : Cycles :=
  let d400 := day % 146097
  let n100 := min (d400 / 36524) 3
  let d100 := d400 - 36524 * n100
  let d4 := d100 % 1461
  let n1 := min (d4 / 365) 3
  { n400 := day / 146097, n100, n4 := d100 / 1461, n1, rest := d4 - 365 * n1
    century := by omega
    olympiad := by omega
    year := by omega }

namespace Cycles

def yearBefore (c : Cycles) : Int := 400 * c.n400 + 100 * c.n100 + 4 * c.n4 + c.n1

theorem newYear_eq (c : Cycles) :
    newYear (c.yearBefore + 1) = 146097 * c.n400 + 36524 * c.n100 + 1461 * c.n4 + 365 * c.n1 := by
  have hcentury := c.century
  have holympiad := c.olympiad
  have hyear := c.year
  unfold newYear yearBefore
  omega

/-- A leap day ends the fourth year of four, unless these are the last of a century that is not
    the last of its 400 years. -/
theorem isLeap_iff (c : Cycles) :
    isLeap (c.yearBefore + 1) = true ↔ c.n1 = 3 ∧ (c.n4 = 24 → c.n100 = 3) := by
  have hcentury := c.century
  have holympiad := c.olympiad
  have hyear := c.year
  unfold isLeap yearBefore
  simp only [Bool.and_eq_true, Bool.or_eq_true, beq_iff_eq, bne_iff_ne]
  omega

end Cycles

def yearOf (day : Int) : Int := (cycles day).yearBefore + 1

theorem day_eq (day : Int) : day = newYear (yearOf day) + (cycles day).rest := by
  rw [yearOf, Cycles.newYear_eq]
  simp only [cycles]
  omega

theorem rest_mem (day : Int) :
    0 ≤ (cycles day).rest ∧ (cycles day).rest < yearLength (yearOf day) := by
  have hleap := (cycles day).isLeap_iff
  unfold yearLength yearOf
  by_cases h : isLeap ((cycles day).yearBefore + 1) = true
  · rw [if_pos h]
    simp only [cycles]
    omega
  · rw [if_neg h]
    rw [hleap] at h
    simp only [cycles] at h ⊢
    omega

theorem newYear_succ (year : Int) : newYear (year + 1) = newYear year + yearLength year := by
  unfold newYear yearLength isLeap
  simp only [Bool.and_eq_true, Bool.or_eq_true, beq_iff_eq, bne_iff_ne]
  split <;> omega

theorem newYear_lt {m n : Int} (h : m < n) : newYear m + 365 ≤ newYear n := by
  unfold newYear
  omega

/-- The days of a year lie between its first and the first of the next. -/
theorem yearOf_bounds (day : Int) :
    newYear (yearOf day) ≤ day ∧ day < newYear (yearOf day + 1) := by
  have hday := day_eq day
  have hrest := rest_mem day
  rw [newYear_succ]
  omega

/-! ## Months -/

def monthLengths (leap : Bool) : List Nat :=
  [31, if leap then 29 else 28, 31, 30, 31, 30, 31, 31, 30, 31, 30, 31]

/-- The month and the day in it, each from 1, of a day of the year, from 0. -/
def monthAndDay : List Nat → Nat → Nat × Nat
  | [], day => (1, day + 1)
  | length :: lengths, day =>
    if day < length then (1, day + 1)
    else ((monthAndDay lengths (day - length)).1 + 1, (monthAndDay lengths (day - length)).2)

/-- The days of the year before a month. -/
def daysBefore : List Nat → Nat → Nat
  | length :: lengths, month + 2 => length + daysBefore lengths (month + 1)
  | _, _ => 0

def total : List Nat → Nat
  | [] => 0
  | length :: lengths => length + total lengths

theorem month_pos (lengths : List Nat) (day : Nat) : 1 ≤ (monthAndDay lengths day).1 := by
  cases lengths with
  | nil => exact Nat.le_refl 1
  | cons length lengths =>
    rw [monthAndDay]
    split
    · exact Nat.le_refl 1
    · exact Nat.le_add_left 1 _

theorem dayOfYear_eq (lengths : List Nat) (day : Nat) :
    daysBefore lengths (monthAndDay lengths day).1 + (monthAndDay lengths day).2 = day + 1 := by
  -- On the months that are left, the days of the first taken off.
  induction lengths generalizing day with
  | nil => simp [monthAndDay, daysBefore]
  | cons length lengths ih =>
    rw [monthAndDay]
    split
    · simp [daysBefore]
    · next hlong =>
      -- Only from the second month on are there days before it.
      obtain ⟨month, hmonth⟩ : ∃ m, (monthAndDay lengths (day - length)).1 = m + 1 :=
        ⟨_, (Nat.sub_add_cancel (month_pos lengths (day - length))).symm⟩
      have hrest := ih (day - length)
      rw [hmonth] at hrest ⊢
      rw [daysBefore, Nat.add_assoc, hrest]
      omega

/-- A day of the year falls in one of the months, and on a day that a month can have. -/
theorem monthAndDay_le {lengths : List Nat} {longest : Nat} (hlengths : ∀ n ∈ lengths, n ≤ longest)
    {day : Nat} (hday : day < total lengths) :
    (monthAndDay lengths day).1 ≤ lengths.length ∧ 1 ≤ (monthAndDay lengths day).2 ∧
      (monthAndDay lengths day).2 ≤ longest := by
  induction lengths generalizing day with
  | nil => cases hday
  | cons length lengths ih =>
    obtain ⟨hlength, hlengths⟩ := List.forall_mem_cons.mp hlengths
    rw [monthAndDay]
    split
    · next hshort => exact ⟨Nat.le_add_left 1 _, Nat.le_add_left 1 _, Nat.le_trans hshort hlength⟩
    · next hlong =>
      rw [total] at hday
      have hrest : day - length < total lengths := by omega
      obtain ⟨hmonth, hpos, hle⟩ := ih hlengths hrest
      exact ⟨Nat.succ_le_succ hmonth, hpos, hle⟩

/-! ## Dates -/

@[ext] structure Date where
  year : Int
  month : Nat
  day : Nat
  deriving DecidableEq, Repr

namespace Date

def ofDay (day : Int) : Date :=
  let lengths := monthLengths (isLeap (yearOf day))
  let dayOfYear := (cycles day).rest.toNat
  ⟨yearOf day, (monthAndDay lengths dayOfYear).1, (monthAndDay lengths dayOfYear).2⟩

def toDay (date : Date) : Int :=
  newYear date.year + daysBefore (monthLengths (isLeap date.year)) date.month + date.day - 1

/-- **No two days have one date.** -/
theorem toDay_ofDay (day : Int) : (ofDay day).toDay = day := by
  have hrest := (rest_mem day).1
  have hday := day_eq day
  have hyear := dayOfYear_eq (monthLengths (isLeap (yearOf day))) (cycles day).rest.toNat
  simp only [toDay, ofDay]
  omega

theorem ofDay_inj {m n : Int} : ofDay m = ofDay n ↔ m = n := by
  constructor
  · intro h
    rw [← toDay_ofDay m, ← toDay_ofDay n, h]
  · rintro rfl
    rfl

theorem ofDay_bounds (day : Int) :
    1 ≤ (ofDay day).month ∧ (ofDay day).month ≤ 12 ∧ 1 ≤ (ofDay day).day ∧
      (ofDay day).day ≤ 31 := by
  obtain ⟨hpos, hlt⟩ := rest_mem day
  have htotal : (total (monthLengths (isLeap (yearOf day))) : Int) = yearLength (yearOf day) := by
    unfold yearLength
    cases isLeap (yearOf day) <;> rfl
  have hlengths : ∀ n ∈ monthLengths (isLeap (yearOf day)), n ≤ 31 := by
    cases isLeap (yearOf day) <;> decide
  have hlast : (cycles day).rest.toNat < total (monthLengths (isLeap (yearOf day))) := by omega
  obtain ⟨hmonth, hday, hle⟩ := monthAndDay_le hlengths hlast
  have hcount : (monthLengths (isLeap (yearOf day))).length = 12 := rfl
  rw [hcount] at hmonth
  exact ⟨month_pos _ _, hmonth, hday, hle⟩

/-- A leap day moves the months behind it by one day. -/
theorem daysBefore_leap {month : Nat} (hmonth : month ≤ 12) :
    daysBefore (monthLengths false) month ≤ daysBefore (monthLengths true) month ∧
      daysBefore (monthLengths true) month ≤ daysBefore (monthLengths false) month + 1 := by
  have hall : ∀ m : Fin 13, daysBefore (monthLengths false) m ≤ daysBefore (monthLengths true) m ∧
      daysBefore (monthLengths true) m ≤ daysBefore (monthLengths false) m + 1 := by decide
  exact hall ⟨month, Nat.lt_succ_of_le hmonth⟩

/-- **A day of a month comes round once a year**: within less than 364 days there is one of it. -/
theorem ofDay_eq_of_near {m n : Int} (hmonth : (ofDay m).month = (ofDay n).month)
    (hday : (ofDay m).day = (ofDay n).day) (hm : m < n + 364) (hn : n < m + 364) : m = n := by
  have hm' := toDay_ofDay m
  have hn' := toDay_ofDay n
  have hbounds := (ofDay_bounds n).2.1
  have hleap := daysBefore_leap hbounds
  unfold toDay at hm' hn'
  rw [hmonth, hday] at hm'
  rcases Int.lt_trichotomy (ofDay m).year (ofDay n).year with hlt | heq | hlt
  · have hyears := newYear_lt hlt
    cases hlm : isLeap (ofDay m).year <;> cases hln : isLeap (ofDay n).year <;>
      rw [hlm] at hm' <;> rw [hln] at hn' <;> omega
  · rw [heq] at hm'
    exact hm'.symm.trans hn'
  · have hyears := newYear_lt hlt
    cases hlm : isLeap (ofDay m).year <;> cases hln : isLeap (ofDay n).year <;>
      rw [hlm] at hm' <;> rw [hln] at hn' <;> omega

example : ofDay 719162 = ⟨1970, 1, 1⟩ := by decide

end Date

/-! ## The dates there are -/

/-- A day of the year falls in a month, on a day that the month has. -/
theorem monthAndDay_mem {lengths : List Nat} {day : Nat} (hday : day < total lengths) :
    ∃ month length, (monthAndDay lengths day).1 = month + 1 ∧ lengths[month]? = some length ∧
      (monthAndDay lengths day).2 ≤ length := by
  induction lengths generalizing day with
  | nil => cases hday
  | cons length lengths ih =>
    rw [monthAndDay]
    split
    · next hshort => exact ⟨0, length, rfl, rfl, hshort⟩
    · next hlong =>
      rw [total] at hday
      obtain ⟨month, n, hmonth, hget, hle⟩ := ih (show day - length < total lengths by omega)
      exact ⟨month + 1, n, congrArg (· + 1) hmonth, hget, hle⟩

def monthLength (year : Int) (month : Nat) : Nat :=
  (monthLengths (isLeap year)).getD (month - 1) 0

theorem total_monthLengths (year : Int) :
    (total (monthLengths (isLeap year)) : Int) = yearLength year := by
  unfold yearLength
  cases isLeap year <;> rfl

theorem rest_lt_total (day : Int) :
    (cycles day).rest.toNat < total (monthLengths (isLeap (yearOf day))) := by
  have hrest := rest_mem day
  have htotal := total_monthLengths (yearOf day)
  omega

namespace Date

/-- The month is one of the year, and the day one of the month. -/
structure Valid (date : Date) : Prop where
  month : 1 ≤ date.month ∧ date.month ≤ 12
  day : 1 ≤ date.day ∧ date.day ≤ monthLength date.year date.month

/-- **Every day has a date of the calendar.** -/
theorem valid_ofDay (day : Int) : (ofDay day).Valid := by
  have hbounds := ofDay_bounds day
  refine ⟨⟨hbounds.1, hbounds.2.1⟩, hbounds.2.2.1, ?_⟩
  obtain ⟨month, length, hmonth, hget, hle⟩ := monthAndDay_mem (rest_lt_total day)
  have hlength : monthLength (yearOf day) (month + 1) = length := by
    rw [monthLength, Nat.add_sub_cancel, List.getD_eq_getElem?_getD, hget]
    rfl
  show _ ≤ monthLength (yearOf day) (monthAndDay _ _).1
  rw [hmonth, hlength]
  exact hle

theorem month_january {day : Int} (h : day < newYear (yearOf day) + 31) :
    (ofDay day).month = 1 := by
  have hday := day_eq day
  have hshort : (cycles day).rest.toNat < 31 := by omega
  show (monthAndDay (31 :: _) _).1 = 1
  rw [monthAndDay, if_pos hshort]

/-- The months before the last leave its 31 days. -/
theorem before_december (leap : Bool) {month : Nat} (hmonth : month < 11) :
    daysBefore (monthLengths leap) (month + 1) + (monthLengths leap).getD month 0 + 31
      ≤ total (monthLengths leap) := by
  have hall : ∀ (leap : Bool) (m : Fin 11),
      daysBefore (monthLengths leap) (m + 1) + (monthLengths leap).getD m 0 + 31
        ≤ total (monthLengths leap) := by decide
  exact hall leap ⟨month, hmonth⟩

theorem month_december {day : Int} (h : newYear (yearOf day + 1) ≤ day + 31) :
    (ofDay day).month = 12 := by
  have hday := day_eq day
  have hrest := rest_mem day
  have htotal := total_monthLengths (yearOf day)
  rw [newYear_succ] at h
  obtain ⟨month, length, hmonth, hget, hle⟩ := monthAndDay_mem (rest_lt_total day)
  have hyear := dayOfYear_eq (monthLengths (isLeap (yearOf day))) (cycles day).rest.toNat
  have htwelve : month < 12 := (List.getElem?_eq_some_iff.mp hget).1
  show (monthAndDay _ _).1 = 12
  rw [hmonth] at hyear ⊢
  rcases Nat.lt_or_ge month 11 with hearly | hlate
  · have hbefore := before_december (isLeap (yearOf day)) hearly
    rw [List.getD_eq_getElem?_getD, hget, Option.getD_some] at hbefore
    omega
  · omega

end Date

end Lib.Calendar
