import KBucket.Proof.Ledger
import KBucket.Proof.PickedDate

/-!
# The dates that are stored

A bucket has two dates, which come from the clock or from the pickers and are stored as texts.
One picker writes the year of the week instead of the year. What it writes is nevertheless the
text of a date, if not of the one that was picked: where the two years differ the month has 31
days in either. So whatever is done, the dates that are stored are dates (`dates_of_runs`).

It is a statement about what is picked, and not about what is typed: a date field takes any text,
so `dates_of_runs` asks that each text in it came from a picker (`FromPickers`). The second picker
is asked for an instant of the era, since before it its pattern writes a sign. The first counts the
years of their era and has no sign to write, so of its instant nothing is asked.
-/

namespace KBucket

open Lib Calendar DateFormat

/-! ## Texts of dates -/

/-- A date in two digits each. -/
def dateText (date : Date) : String :=
  String.ofList (pad 2 (yearOfEra date.year % 100) ++
    ('-' :: pad 2 date.month ++ '-' :: pad 2 date.day))

/-- The text of a date of the calendar. -/
def IsDate (text : String) : Prop := ∃ date : Date, date.Valid ∧ text = dateText date

theorem format_yy (c : DateComponents) : format "yy-MM-dd" c = dateText c.date := by
  unfold format
  rw [runs_yy]
  simp [dateText, field_yy, field_hyphen, field_month, field_day]

theorem isDate_format (clock : Int) : IsDate (format "yy-MM-dd" (.ofSecond clock)) :=
  ⟨_, Date.valid_ofDay _, format_yy _⟩

theorem formatIn_YY (weekRule : WeekRule) (c : DateComponents) :
    formatIn weekRule "YY-MM-dd" c = String.ofList (
      weekYearField (weekRule.weekYear c.date.toDay) 2 ++
        ('-' :: pad 2 c.date.month ++ '-' :: pad 2 c.date.day)) := by
  unfold formatIn
  rw [runs_YY]
  simp [fieldIn, field_hyphen, field_month, field_day]

/-- A day from the first of the era on. -/
theorem yearOf_pos {day : Int} (h : 0 ≤ day) : 0 < yearOf day := by
  have hbounds := yearOf_bounds day
  have hone : newYear 1 = 0 := rfl
  by_contra hyear
  rcases Int.lt_or_eq_of_le (show yearOf day + 1 ≤ 1 by omega) with hlt | heq
  · have hyears := newYear_lt hlt
    omega
  · rw [heq] at hbounds
    omega

/-- **What is written with the year of the week is the text of a date**, too. -/
theorem isDate_formatIn_YY (weekRule : WeekRule) {clock : Int}
    (hera : 0 ≤ clock / 86400 + 719162) :
    IsDate (formatIn weekRule "YY-MM-dd" (.ofSecond clock)) := by
  have hdate : (DateComponents.ofSecond clock).date = Date.ofDay (clock / 86400 + 719162) := rfl
  have hyear := yearOf_pos hera
  have hnear := weekRule.weekYear_near (clock / 86400 + 719162)
  have hvalid := Date.valid_ofDay (clock / 86400 + 719162)
  rw [formatIn_YY, hdate, Date.toDay_ofDay]
  generalize clock / 86400 + 719162 = day at *
  by_cases hweek : weekRule.weekYear day = yearOf day
  · have hfield := (yearField_eq_weekYearField_iff hnear).mpr (by rw [if_pos hyear]; exact hweek)
    rw [← hfield]
    exact ⟨_, hvalid, rfl⟩
  · -- The week is that of another year, in which the month is as long.
    refine ⟨⟨weekRule.weekYear day + 100, (Date.ofDay day).month, (Date.ofDay day).day⟩,
      ⟨hvalid.month, hvalid.day.1, ?_⟩, ?_⟩
    · have hlast := (Date.ofDay_bounds day).2.2.2
      rcases weekRule.month_of_weekYear_ne hweek with hmonth | hmonth
      · show _ ≤ monthLength _ (Date.ofDay day).month
        rw [hmonth]
        exact hlast
      · show _ ≤ monthLength _ (Date.ofDay day).month
        rw [hmonth]
        exact hlast
    · have hera : yearOfEra (weekRule.weekYear day + 100) % 100
          = (weekRule.weekYear day).natAbs % 100 := by
        rw [yearOfEra, if_pos (by omega)]
        omega
      unfold dateText weekYearField
      rw [if_pos rfl, if_pos (by omega)]
      dsimp only
      rw [hera]

/-! ## Where dates come from -/

/-- The day that a form is filled with is the clock's, and the dates that are entered are the
    pickers'. The second picker holds an instant of the era. -/
def FromPickers : String × App.Event → Prop
  | (today, event) =>
    (∃ (zone : TimeZone) (todayDate : Rat),
      today = DateUtils.getStringDateFormat zone todayDate "yy-MM-dd") ∧
    match event with
    | .detail (.etDate text) => ∃ weekRule v sender,
      text = (WriteDetailView.datePickerValueChanged weekRule v sender).etDate
    | .detail (.etCompleteDate text) => ∃ weekRule v sender, 0 ≤ greenwichDay sender.date ∧
      text = (WriteDetailView.datePickerValueChanged2 weekRule v sender).etCompleteDate
    | _ => True

theorem isDate_picked (weekRule : WeekRule) (v : WriteDetailView) (sender : UIDatePicker) :
    IsDate (v.datePickerValueChanged weekRule sender).etDate := by
  rw [WriteDetailView.datePickerValueChanged_etDate]
  exact isDate_format _

theorem isDate_picked2 (weekRule : WeekRule) (v : WriteDetailView) {sender : UIDatePicker}
    (hera : 0 ≤ greenwichDay sender.date) :
    IsDate (v.datePickerValueChanged2 weekRule sender).etCompleteDate := by
  refine isDate_formatIn_YY weekRule ?_
  rw [← localDay_fixed_zero] at hera
  exact hera

/-- The dates that an action brings are dates. -/
def Ledger.Event.BringsDates : Ledger.Event → Prop
  | .setDate date | .setCompleteDate date => IsDate date
  | .open today _ => IsDate today
  | _ => True

/-- The dates of an entry, where it has them, are dates. -/
structure Entry.Dated (entry : Entry) : Prop where
  date : entry.date = "" ∨ IsDate entry.date
  completeDate : entry.completeDate = "" ∨ IsDate entry.completeDate

/-- **An action that brings dates keeps the dates of all entries.** -/
theorem Ledger.All.dated {same : String → String → Prop} {s s' : State} {event : Event}
    (hs : All Entry.Dated s) (hevent : event.BringsDates)
    (h : Ledger.step same s event = some s') :
    All Entry.Dated s' := by
  refine hs.step ⟨.inl rfl, .inl rfl⟩ ?_ ?_ h
  · intro entry hentry
    cases event with
    | setDate date => exact ⟨.inr hevent, hentry.completeDate⟩
    | setCompleteDate date => exact ⟨hentry.date, .inr hevent⟩
    | setAchieved achieved | setPhoto photo => exact ⟨hentry.date, hentry.completeDate⟩
    | _ => exact hentry
  · rintro today text isAchieved rfl
    have htoday : IsDate today := hevent
    have hfilled : ∀ date, (date = "" ∨ IsDate date) →
        (if date = "" then today else date) = "" ∨
          IsDate (if date = "" then today else date) := by
      intro date hdate
      split
      · exact .inr htoday
      · exact hdate
    unfold fill
    cases hstored : s.ledger text with
    | none => exact ⟨.inl rfl, .inl rfl⟩
    | some entry =>
      have hentry := hs.stored text entry hstored
      exact ⟨hfilled _ hentry.date, hfilled _ hentry.completeDate⟩

namespace App

variable {nfc : String → String} {today : String} {app : App}

theorem openRow_bringsDates [Platform] {rows : List String} (data : String)
    (htoday : IsDate today) : (openRow today rows data).BringsDates := by
  unfold openRow
  cases row? rows data with
  | none => trivial
  | some text => exact htoday

theorem label_bringsDates [Platform] {event : Event} (h : FromPickers (today, event)) :
    (app.label (today, event)).BringsDates := by
  obtain ⟨⟨zone, todayDate, hclock⟩, hevent⟩ := h
  have htoday : IsDate today := by
    rw [hclock]
    exact isDate_format _
  cases app with
  | detail v =>
    cases event with
    | detail event =>
      cases event with
      | etDate text =>
        obtain ⟨weekRule, u, sender, rfl⟩ := hevent
        exact isDate_picked weekRule u sender
      | etCompleteDate text =>
        obtain ⟨weekRule, u, sender, hera, rfl⟩ := hevent
        exact isDate_picked2 weekRule u hera
      | _ => trivial
    | _ => trivial
  | write v =>
    cases event with
    | write event =>
      cases event with
      | rowDelete data =>
        show (deleteRow v.mDataList data).BringsDates
        unfold deleteRow
        split
        · trivial
        · split <;> trivial
      | _ => trivial
    | rowMod data => exact openRow_bringsDates data htoday
    | _ => trivial
  | bucketList v =>
    cases event with
    | rowDetail data => exact openRow_bringsDates data htoday
    | _ => trivial
  | main device | addBucket v | dbMgr device => cases event <;> trivial

/-- The dates of a stored bucket, where it has them, are dates. -/
structure DatedBucket (b : Bucket) : Prop where
  mDate : b.mDate = "" ∨ IsDate b.mDate
  mCompleteDate : b.mCompleteDate = "" ∨ IsDate b.mCompleteDate

theorem each_dated_iff {realm : Realm} :
    Ledger.Each Entry.Dated realm.ledger ↔ ∀ b ∈ realm.rows, DatedBucket b := by
  constructor
  · intro h b hb
    have hentry := h _ _ (Realm.ledger_of_mem hb)
    exact ⟨hentry.date, hentry.completeDate⟩
  · intro h text entry hentry
    obtain ⟨b, hb, -, rfl⟩ := Realm.ledger_eq_some_iff.mp hentry
    exact ⟨(h b hb).mDate, (h b hb).mCompleteDate⟩

/-- **Every date that is stored is a date**: from a store of which that is true, whatever is done
    on the screens and picked in the pickers, the dates of every bucket, and those on the form,
    are empty or the text of a date of the calendar.

    `hdates` says where dates come from: a text that is typed into a date field would be stored as
    it is. `hstart` asks the same of the buckets that are there at first, and the second picker is
    asked for an instant of the era, before which its year has a sign. `hplain` and `htexts` are
    those of the ledger. -/
theorem dates_of_runs [Platform] {device : Device} {events : List (String × Event)}
    (hplain : PlainStore device.realm) (htexts : ∀ e ∈ events, Quotable e.2)
    (hdates : ∀ e ∈ events, FromPickers e) (hstart : ∀ b ∈ device.realm.rows, DatedBucket b)
    (hrun : Runs (step nfc) (.main device) events app) :
    (∀ b ∈ app.device.realm.rows, DatedBucket b) ∧
      ∀ v, app = .detail v → (v.etDate = "" ∨ IsDate v.etDate) ∧
        (v.etCompleteDate = "" ∨ IsDate v.etCompleteDate) := by
  have hfirst : Ledger.All Entry.Dated (App.main device).abs :=
    ⟨each_dated_iff.mpr hstart, nofun⟩
  have hall : Ledger.All Entry.Dated app.abs := by
    refine (ledgerRefinement nfc).invariant (H := fun _ a => a.BringsDates)
      (J := Ledger.All Entry.Dated) ?_ (fits_main hplain) htexts hfirst ?_ hrun
    · intro s a s' hs hbrings hstep
      exact hs.dated hbrings hstep
    · exact Guarded.of_forall fun e he s => label_bringsDates (hdates e he)
  refine ⟨each_dated_iff.mp ?_, ?_⟩
  · rw [← abs_ledger]
    exact hall.stored
  · rintro v rfl
    have hform := hall.form v.form rfl
    exact ⟨hform.date, hform.completeDate⟩

/-- On the first of May 2024 a row is opened, and the last day of 2017, a Sunday, is picked as the
    day on which it was achieved. -/
def pickNewYearsEve : List (String × Event) :=
  [("24-05-01", .openWrite), ("24-05-01", .rowMod "0"),
    ("24-05-01", .detail (.etCompleteDate "18-12-31")), ("24-05-01", .detail .btSave)]

theorem fromPickers_newYearsEve : ∀ e ∈ pickNewYearsEve, FromPickers e := by
  have htoday : ∃ (zone : TimeZone) (todayDate : Rat),
      "24-05-01" = DateUtils.getStringDateFormat zone todayDate "yy-MM-dd" := by
    refine ⟨.fixed 0, 1714521600, ?_⟩
    have hfloor : ⌊(1714521600 : Rat)⌋ = 1714521600 := Int.floor_natCast 1714521600
    show _ = format "yy-MM-dd" (.ofSecond (⌊(1714521600 : Rat)⌋ + 0))
    rw [hfloor]
    decide
  have hfloor : ⌊(1514678400 : Rat)⌋ = 1514678400 := Int.floor_natCast 1514678400
  have hpicked : "18-12-31"
      = (WriteDetailView.blank.datePickerValueChanged2 .sunday ⟨1514678400⟩).etCompleteDate := by
    show _ = formatIn .sunday "YY-MM-dd" (.ofSecond (⌊(1514678400 : Rat)⌋ + 0))
    rw [hfloor]
    decide
  have hera : 0 ≤ greenwichDay 1514678400 := by
    rw [greenwichDay, hfloor]
    decide
  simp only [pickNewYearsEve, List.forall_mem_cons, List.not_mem_nil, false_implies, implies_true,
    and_true]
  exact ⟨⟨htoday, trivial⟩, ⟨htoday, trivial⟩,
    ⟨htoday, .sunday, WriteDetailView.blank, ⟨1514678400⟩, hera, hpicked⟩, htoday, trivial⟩

theorem dates_of_runs_newYearsEve :
    ∃ app, Runs (step id) (.main WriteView.halfAchieved) pickNewYearsEve app ∧
      ∀ b ∈ app.device.realm.rows, DatedBucket b := by
  have hrun : Runs (step id) (.main WriteView.halfAchieved) pickNewYearsEve _ :=
    .cons rfl (.cons rfl (.cons rfl (.single rfl)))
  have htexts : ∀ e ∈ pickNewYearsEve, Quotable e.2 := by
    simp only [pickNewYearsEve, List.forall_mem_cons, List.not_mem_nil, false_implies,
      implies_true, and_true]
    exact ⟨trivial, trivial, trivial, trivial⟩
  have hstart : ∀ b ∈ WriteView.halfAchieved.realm.rows, DatedBucket b := by
    simp only [WriteView.halfAchieved, List.forall_mem_cons, List.not_mem_nil, false_implies,
      implies_true, and_true]
    exact ⟨⟨.inl rfl, .inl rfl⟩, ⟨.inl rfl, .inl rfl⟩⟩
  exact ⟨_, hrun,
    (dates_of_runs plain_halfAchieved htexts fromPickers_newYearsEve hstart hrun).1⟩

end App
end KBucket
