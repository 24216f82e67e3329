import KBucket.Lib.DateFormat

/-!
# Years of weeks

A week belongs to one year as a whole. Where weeks begin and which of two years has the week
between them depends on the country (`WeekRule`): the first week of a year is the first one with
enough days in it. The year of a date's week (`weekYear`) is the date's own except around New
Year: in the days that are too few for a week of the year, and in the days of the next year's
first week that come before it (`weekYear_eq_iff`). A pattern writes it with the letter `Y`
(Unicode TR35), as a number with a sign.
-/

namespace Lib

open Calendar

/-- The first day of the week, where 1 is Sunday, and the days that a first week has at least. -/
structure WeekRule where
  firstWeekday : Nat
  minimalDays : Nat
  firstWeekday_bounds : 1 ≤ firstWeekday ∧ firstWeekday ≤ 7
  minimalDays_bounds : 1 ≤ minimalDays ∧ minimalDays ≤ 7

namespace WeekRule

variable (rule : WeekRule)

/-- The days of its week before a day; day 0 of the calendar is a Monday. -/
def daysInto (day : Int) : Int := (day + 2 - rule.firstWeekday) % 7

/-- The day on which the first week of a year begins. -/
def firstWeek (year : Int) : Int :=
  let start := newYear year - rule.daysInto (newYear year)
  if rule.minimalDays ≤ 7 - rule.daysInto (newYear year) then start else start + 7

def weekYear (day : Int) : Int :=
  let year := yearOf day
  if day < rule.firstWeek year then year - 1
  else if rule.firstWeek (year + 1) ≤ day then year + 1
  else year

variable {rule}

theorem daysInto_bounds (day : Int) : 0 ≤ rule.daysInto day ∧ rule.daysInto day < 7 := by
  unfold daysInto
  omega

theorem firstWeek_bounds (year : Int) :
    newYear year - 6 ≤ rule.firstWeek year ∧ rule.firstWeek year ≤ newYear year + 6 := by
  have hinto := rule.daysInto_bounds (newYear year)
  have hminimal := rule.minimalDays_bounds
  unfold firstWeek
  simp only
  split <;> omega

/-- **The year of a week is the one whose weeks the day lies in.** -/
theorem weekYear_spec (day : Int) :
    rule.firstWeek (rule.weekYear day) ≤ day ∧ day < rule.firstWeek (rule.weekYear day + 1) := by
  have hyear := yearOf_bounds day
  have hbefore := newYear_lt (show yearOf day - 1 < yearOf day by omega)
  have hafter := newYear_lt (show yearOf day + 1 < yearOf day + 2 by omega)
  have hfirst := rule.firstWeek_bounds (yearOf day - 1)
  have hlast := rule.firstWeek_bounds (yearOf day + 2)
  unfold weekYear
  simp only
  split
  · next hearly =>
    rw [Int.sub_add_cancel]
    exact ⟨by omega, hearly⟩
  · next hstarted =>
    split
    · next hlate =>
      rw [show yearOf day + 1 + 1 = yearOf day + 2 by omega]
      exact ⟨hlate, by omega⟩
    · next hown => exact ⟨Int.not_lt.mp hstarted, Int.not_le.mp hown⟩

theorem firstWeek_mono {m n : Int} (h : m ≤ n) : rule.firstWeek m ≤ rule.firstWeek n := by
  rcases Int.lt_or_eq_of_le h with hlt | rfl
  · have hyears := newYear_lt hlt
    have hm := rule.firstWeek_bounds m
    have hn := rule.firstWeek_bounds n
    omega
  · exact Int.le_refl _

/-- No day lies in the weeks of two years. -/
theorem weekYear_eq {day year : Int} :
    rule.weekYear day = year ↔ rule.firstWeek year ≤ day ∧ day < rule.firstWeek (year + 1) := by
  have hspec := rule.weekYear_spec day
  constructor
  · rintro rfl
    exact hspec
  · intro h
    rcases Int.lt_trichotomy (rule.weekYear day) year with hlt | heq | hlt
    · have hmono := rule.firstWeek_mono (Int.add_one_le_of_lt hlt)
      omega
    · exact heq
    · have hmono := rule.firstWeek_mono (Int.add_one_le_of_lt hlt)
      omega

theorem weekYear_near (day : Int) :
    yearOf day - 1 ≤ rule.weekYear day ∧ rule.weekYear day ≤ yearOf day + 1 := by
  unfold weekYear
  simp only
  split
  · omega
  · split <;> omega

/-- A day is in a week of its own year: it is not one of the first days, if these are too few for
    a week, and not one of the last, if the days that follow them make one. -/
def OwnWeek (rule : WeekRule) (day : Int) : Prop :=
  (7 - rule.daysInto (newYear (yearOf day)) < rule.minimalDays →
    7 - rule.daysInto (newYear (yearOf day)) ≤ day - newYear (yearOf day)) ∧
  (rule.minimalDays ≤ 7 - rule.daysInto (newYear (yearOf day + 1)) →
    rule.daysInto (newYear (yearOf day + 1)) < newYear (yearOf day + 1) - day)

theorem weekYear_eq_iff {day : Int} : rule.weekYear day = yearOf day ↔ rule.OwnWeek day := by
  have hyear := yearOf_bounds day
  have hthis := rule.daysInto_bounds (newYear (yearOf day))
  have hnext := rule.daysInto_bounds (newYear (yearOf day + 1))
  rw [weekYear_eq]
  unfold OwnWeek firstWeek
  simp only
  split <;> split <;> omega

/-- **The year of the week is another only around New Year.** -/
theorem month_of_weekYear_ne {day : Int} (h : rule.weekYear day ≠ yearOf day) :
    (Date.ofDay day).month = 1 ∨ (Date.ofDay day).month = 12 := by
  have hspec := rule.weekYear_spec day
  have hnear := rule.weekYear_near day
  rcases Int.lt_or_gt_of_ne h with hbefore | hafter
  · have hbounds := rule.firstWeek_bounds (yearOf day)
    rw [show rule.weekYear day + 1 = yearOf day by omega] at hspec
    exact .inl (Date.month_january (by omega))
  · have hbounds := rule.firstWeek_bounds (yearOf day + 1)
    rw [show rule.weekYear day = yearOf day + 1 by omega] at hspec
    exact .inr (Date.month_december (by omega))

/-- Sunday to Saturday, and the first week has the first of January. -/
def sunday : WeekRule where
  firstWeekday := 1
  minimalDays := 1
  firstWeekday_bounds := by decide
  minimalDays_bounds := by decide

end WeekRule

/-! ## In a pattern -/

namespace DateFormat

/-- The year of the week, by a run of `Y`: two letters give the last two digits. -/
def weekYearField (year : Int) (width : Nat) : List Char :=
  let digits := pad width (if width = 2 then year.natAbs % 100 else year.natAbs)
  if 0 ≤ year then digits else '-' :: digits

def fieldIn (rule : WeekRule) (c : DateComponents) : Char × Nat → List Char
  | ('Y', width) => weekYearField (rule.weekYear c.date.toDay) width
  | run => field c run

/-- `format` where weeks are those of a country. -/
def formatIn (rule : WeekRule) (pattern : String) (c : DateComponents) : String :=
  String.ofList ((runs pattern.toList).flatMap (fieldIn rule c))

theorem formatIn_eq_format {pattern : String} (h : ∀ run ∈ runs pattern.toList, run.1 ≠ 'Y')
    (rule : WeekRule) (c : DateComponents) : formatIn rule pattern c = format pattern c := by
  refine congrArg String.ofList (List.flatMap_congr fun run hrun => ?_)
  unfold fieldIn
  split
  · exact absurd rfl (h _ hrun)
  · rfl

/-- When the last digits of a year are those of its neighbour, or of itself, as the year of a
    week: never for a neighbour, but for the year before the era, which counts as a first one. -/
theorem yearField_eq_weekYearField_iff {year week : Int}
    (hnear : year - 1 ≤ week ∧ week ≤ year + 1) :
    pad 2 (yearOfEra year % 100) = weekYearField week 2 ↔
      if 0 < year then week = year else year = 0 ∧ week = 1 := by
  unfold weekYearField
  simp only [if_true]
  split
  · rw [pad_inj]
    unfold yearOfEra
    split <;> omega
  · -- With a sign there is one character more.
    have hleft : (pad 2 (yearOfEra year % 100)).length = 2 :=
      length_pad_two (Nat.mod_lt _ (by decide))
    have hright : (pad 2 (week.natAbs % 100)).length = 2 :=
      length_pad_two (Nat.mod_lt _ (by decide))
    refine iff_of_false (fun heq => ?_) ?_
    · have hlength := congrArg List.length heq
      rw [List.length_cons, hleft, hright] at hlength
      omega
    · split <;> omega

example : formatIn .sunday "YY-MM-dd" (.ofSecond 1514678400) = "18-12-31" := by decide

end DateFormat
end Lib
