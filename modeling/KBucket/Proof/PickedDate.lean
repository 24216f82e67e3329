import KBucket.View.DatePicker

/-!
# The date that is picked

The second picker writes the year of the week where the first writes the year, so the two agree
on the days whose week counts to their own year. Both write the day in Greenwich, which is the day
that was picked as long as no midnight lies between the two clocks.

Both results are about one pick, for every instant and every zone. What weeks are is a parameter
(`WeekRule`): a country may begin them on any day, and count as the first week of a year one with
any number of its days. That a picker holds the start of a day is not assumed.
-/

namespace KBucket

open Lib Calendar DateFormat

/-- The day in Greenwich at an instant. -/
def greenwichDay (date : Rat) : Int := ⌊date⌋ / 86400 + 719162

/-- The day on the clock of a zone. -/
def TimeZone.localDay (zone : TimeZone) (date : Rat) : Int := zone.clock date / 86400 + 719162

theorem localDay_fixed_zero (date : Rat) :
    (TimeZone.fixed 0).localDay date = greenwichDay date := by
  unfold TimeZone.localDay TimeZone.clock TimeZone.fixed greenwichDay
  rw [Int.add_zero]

/-! ## The two pickers -/

/-- The day is one of a week of its own year; before the era, one of the first week in it. -/
def CountsToOwnYear (weekRule : WeekRule) (day : Int) : Prop :=
  if 0 < yearOf day then weekRule.OwnWeek day else weekRule.firstWeek 1 ≤ day

theorem countsToOwnYear_iff {weekRule : WeekRule} {day : Int} :
    CountsToOwnYear weekRule day ↔
      if 0 < yearOf day then weekRule.weekYear day = yearOf day
      else yearOf day = 0 ∧ weekRule.weekYear day = 1 := by
  have hday := yearOf_bounds day
  have hera := weekRule.firstWeek_bounds 1
  have hsecond := weekRule.firstWeek_bounds 2
  have hone : newYear 1 = 0 := rfl
  have htwo : newYear 2 = 365 := rfl
  unfold CountsToOwnYear
  split
  · exact weekRule.weekYear_eq_iff.symm
  · next hbefore =>
    have hlast : newYear (yearOf day + 1) ≤ newYear 1 := by
      rcases Int.lt_or_eq_of_le (show yearOf day + 1 ≤ 1 by omega) with hlt | heq
      · have hyears := newYear_lt hlt
        omega
      · rw [heq]
    rw [weekRule.weekYear_eq]
    constructor
    · intro h
      have hzero : yearOf day = 0 := by
        by_contra hne
        have hyears := newYear_lt (show yearOf day + 1 < 1 by omega)
        omega
      exact ⟨hzero, h, by show day < weekRule.firstWeek 2; omega⟩
    · intro h
      exact h.2.1

theorem runs_yy :
    runs "yy-MM-dd".toList = [('y', 2), ('-', 1), ('M', 2), ('-', 1), ('d', 2)] := by decide

theorem runs_YY :
    runs "YY-MM-dd".toList = [('Y', 2), ('-', 1), ('M', 2), ('-', 1), ('d', 2)] := by decide

/-- The two patterns differ in their first field only. -/
theorem formatIn_yy_eq_YY_iff (weekRule : WeekRule) (c : DateComponents) :
    formatIn weekRule "yy-MM-dd" c = formatIn weekRule "YY-MM-dd" c ↔
      pad 2 (yearOfEra c.date.year % 100) = weekYearField (weekRule.weekYear c.date.toDay) 2 := by
  unfold formatIn
  rw [String.ofList_inj, runs_yy, runs_YY, List.flatMap_cons, List.flatMap_cons]
  exact List.append_left_inj _

namespace WriteDetailView

/-- **The two pickers write the same text exactly on the days whose week counts to their own
    year.**

    Where the weeks begin and which of them is the first is the country's affair (`WeekRule`), and
    no assumption is made about it. -/
theorem pickers_agree_iff (weekRule : WeekRule) (v : WriteDetailView) (sender : UIDatePicker) :
    (v.datePickerValueChanged weekRule sender).etDate
        = (v.datePickerValueChanged2 weekRule sender).etCompleteDate ↔
      CountsToOwnYear weekRule (greenwichDay sender.date) := by
  have hdate : (DateComponents.ofSecond ((TimeZone.fixed 0).clock sender.date)).date
      = Date.ofDay (greenwichDay sender.date) :=
    congrArg Date.ofDay (localDay_fixed_zero sender.date)
  show formatIn weekRule "yy-MM-dd" _ = formatIn weekRule "YY-MM-dd" _ ↔ _
  rw [formatIn_yy_eq_YY_iff, hdate, Date.toDay_ofDay, countsToOwnYear_iff]
  exact yearField_eq_weekYearField_iff (weekRule.weekYear_near _)

/-- A form that nothing has been entered in. -/
def blank : WriteDetailView where
  device := { realm := Table.empty, defaults := fun _ => none }
  CONTENTS := ""
  BACK := ""

/-- The last day of 2017, a Sunday, where weeks begin on Sundays. -/
theorem pickers_disagree_on_new_years_eve :
    (¬ ∀ (weekRule : WeekRule) (v : WriteDetailView) (sender : UIDatePicker),
      (v.datePickerValueChanged weekRule sender).etDate
        = (v.datePickerValueChanged2 weekRule sender).etCompleteDate) ∧
    (blank.datePickerValueChanged .sunday ⟨1514678400⟩).etDate = "17-12-31" ∧
    (blank.datePickerValueChanged2 .sunday ⟨1514678400⟩).etCompleteDate = "18-12-31" := by
  have hfloor : ⌊(1514678400 : Rat)⌋ = 1514678400 := Int.floor_natCast 1514678400
  have hyear : (blank.datePickerValueChanged .sunday ⟨1514678400⟩).etDate = "17-12-31" := by
    show formatIn .sunday "yy-MM-dd" (.ofSecond (⌊(1514678400 : Rat)⌋ + 0)) = _
    rw [hfloor]
    decide
  have hweek : (blank.datePickerValueChanged2 .sunday ⟨1514678400⟩).etCompleteDate
      = "18-12-31" := by
    show formatIn .sunday "YY-MM-dd" (.ofSecond (⌊(1514678400 : Rat)⌋ + 0)) = _
    rw [hfloor]
    decide
  refine ⟨fun h => ?_, hyear, hweek⟩
  have hsame := h .sunday blank ⟨1514678400⟩
  rw [hyear, hweek] at hsame
  exact absurd hsame (by decide)

end WriteDetailView

/-! ## The day that was picked -/

/-- A zone of a device, less than a day from Greenwich. -/
structure DeviceZone extends TimeZone where
  near : ∀ second, -86400 < secondsFromGMT second ∧ secondsFromGMT second < 86400

/-- The two clocks show one day. -/
theorem localDay_eq_iff (zone : DeviceZone) (date : Rat) :
    greenwichDay date = zone.localDay date ↔
      0 ≤ ⌊date⌋ % 86400 + zone.secondsFromGMT ⌊date⌋ ∧
        ⌊date⌋ % 86400 + zone.secondsFromGMT ⌊date⌋ < 86400 := by
  have hnear := zone.near ⌊date⌋
  unfold greenwichDay TimeZone.localDay TimeZone.clock
  omega

/-- On days that are close, the date in two digits each tells them apart. -/
theorem format_yy_eq_iff {m n : Int} (h : m / 86400 ≤ n / 86400 + 1 ∧ n / 86400 ≤ m / 86400 + 1) :
    format "yy-MM-dd" (.ofSecond m) = format "yy-MM-dd" (.ofSecond n) ↔
      m / 86400 = n / 86400 := by
  have hlength : ∀ r ∈ [('-', 1), ('M', 2), ('-', 1), ('d', 2)],
      (field (.ofSecond m) r).length = (field (.ofSecond n) r).length := by
    simp only [List.forall_mem_cons, field_hyphen, length_field_two]
    simp
  rw [format_eq_iff runs_yy hlength]
  simp only [List.forall_mem_cons, field_yy, field_hyphen, field_month, field_day, pad_inj]
  constructor
  · intro h
    obtain ⟨-, -, hmonth, -, hday, -⟩ := h
    have hdays := Date.ofDay_eq_of_near hmonth hday (by omega) (by omega)
    omega
  · intro heq
    have hdate : (DateComponents.ofSecond m).date = (DateComponents.ofSecond n).date :=
      congrArg (fun day => Date.ofDay (day + 719162)) heq
    rw [hdate]
    exact ⟨rfl, trivial, rfl, trivial, rfl, by simp⟩

namespace WriteDetailView

theorem datePickerValueChanged_etDate (weekRule : WeekRule) (v : WriteDetailView)
    (sender : UIDatePicker) :
    (v.datePickerValueChanged weekRule sender).etDate
      = DateUtils.getStringDateFormat (.fixed 0) sender.date "yy-MM-dd" := by
  refine formatIn_eq_format ?_ weekRule _
  rw [runs_yy]
  decide

/-- **The day that is stored is the one that was picked exactly when no midnight lies between the
    clock of the device and that of Greenwich.**

    The zone may change its distance from Greenwich at any time; what counts is the distance at the
    instant that was picked. -/
theorem datePickerValueChanged_local_iff (weekRule : WeekRule) (zone : DeviceZone)
    (v : WriteDetailView) (sender : UIDatePicker) :
    (v.datePickerValueChanged weekRule sender).etDate
        = DateUtils.getStringDateFormat zone.toTimeZone sender.date "yy-MM-dd" ↔
      0 ≤ ⌊sender.date⌋ % 86400 + zone.secondsFromGMT ⌊sender.date⌋ ∧
        ⌊sender.date⌋ % 86400 + zone.secondsFromGMT ⌊sender.date⌋ < 86400 := by
  have hnear := zone.near ⌊sender.date⌋
  have hclocks : (TimeZone.fixed 0).clock sender.date / 86400
        ≤ zone.clock sender.date / 86400 + 1 ∧
      zone.clock sender.date / 86400 ≤ (TimeZone.fixed 0).clock sender.date / 86400 + 1 := by
    unfold TimeZone.clock TimeZone.fixed
    simp only
    omega
  rw [datePickerValueChanged_etDate, ← localDay_eq_iff, ← localDay_fixed_zero]
  refine (format_yy_eq_iff hclocks).trans ?_
  unfold TimeZone.localDay
  omega

/-- Nine hours ahead of Greenwich. -/
def korea : DeviceZone where
  toTimeZone := .fixed 32400
  near := by
    intro second
    show (-86400 : Int) < 32400 ∧ (32400 : Int) < 86400
    decide

/-- The first of May 2017 in Korea, at midnight. -/
theorem korean_midnight_a_day_early :
    (¬ ∀ (weekRule : WeekRule) (zone : DeviceZone) (v : WriteDetailView) (sender : UIDatePicker),
      (v.datePickerValueChanged weekRule sender).etDate
        = DateUtils.getStringDateFormat zone.toTimeZone sender.date "yy-MM-dd") ∧
    (blank.datePickerValueChanged .sunday ⟨1493564400⟩).etDate = "17-04-30" ∧
    DateUtils.getStringDateFormat korea.toTimeZone 1493564400 "yy-MM-dd" = "17-05-01" := by
  have hfloor : ⌊(1493564400 : Rat)⌋ = 1493564400 := Int.floor_natCast 1493564400
  have hstored : (blank.datePickerValueChanged .sunday ⟨1493564400⟩).etDate = "17-04-30" := by
    show formatIn .sunday "yy-MM-dd" (.ofSecond (⌊(1493564400 : Rat)⌋ + 0)) = _
    rw [hfloor]
    decide
  have hpicked : DateUtils.getStringDateFormat korea.toTimeZone 1493564400 "yy-MM-dd"
      = "17-05-01" := by
    show format "yy-MM-dd" (.ofSecond (⌊(1493564400 : Rat)⌋ + 32400)) = _
    rw [hfloor]
    decide
  refine ⟨fun h => ?_, hstored, hpicked⟩
  have hsame := h .sunday korea blank ⟨1493564400⟩
  rw [hstored, hpicked] at hsame
  exact absurd hsame (by decide)

end WriteDetailView
end KBucket
