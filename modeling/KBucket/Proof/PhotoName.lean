import KBucket.Lib.Run
import KBucket.View.WriteDetailPhoto

/-!
# The files of photos

A photo is stored under the date and time at which it was picked, with the hour of a 12-hour clock.
Two photos get one name exactly when they were picked on one date at one time of such a clock
(`fileName_eq_iff`), which in a zone that keeps its distance from Greenwich is twelve hours apart
on one day (`collides_fixed_iff`). Over a run of photos every one gets a fresh file and the earlier
ones stay exactly when no two of the run collide so.

The zone is arbitrary and may change its distance from Greenwich, so two photos can also collide
that were taken an hour apart when the clock is set back. `collides_fixed_iff` is the special
case in which it does not change. That a picture can be encoded and its file be written is asked
of each photo; neither is the name's affair.
-/

namespace KBucket

open Lib DateFormat

def fileName (zone : TimeZone) (photoDate : Rat) : String :=
  DateUtils.getStringDateFormat zone photoDate "yyyyMMdd_hhmmss"

/-- Two times of one clock on one date of the calendar, whose years are counted in their eras. -/
structure SameDate (m n : Int) : Prop where
  year : yearOfEra (DateComponents.ofSecond m).date.year =
    yearOfEra (DateComponents.ofSecond n).date.year
  month : (DateComponents.ofSecond m).date.month = (DateComponents.ofSecond n).date.month
  day : (DateComponents.ofSecond m).date.day = (DateComponents.ofSecond n).date.day

/-- One date, and one time of a clock that starts again after twelve hours. -/
def Collides (zone : TimeZone) (a b : Rat) : Prop :=
  SameDate (zone.clock a) (zone.clock b) ∧ zone.clock a % 43200 = zone.clock b % 43200

theorem runs_pattern : runs "yyyyMMdd_hhmmss".toList =
    [('y', 4), ('M', 2), ('d', 2), ('_', 1), ('h', 2), ('m', 2), ('s', 2)] := by
  decide

/-- **Two photos get one name exactly when their times collide.** -/
theorem fileName_eq_iff (zone : TimeZone) (a b : Rat) :
    fileName zone a = fileName zone b ↔ Collides zone a b := by
  -- All fields but the year have one length, so equal names are equal field by field.
  have hlength : ∀ r ∈ [('M', 2), ('d', 2), ('_', 1), ('h', 2), ('m', 2), ('s', 2)],
      (field (.ofSecond (zone.clock a)) r).length =
        (field (.ofSecond (zone.clock b)) r).length := by
    simp [length_field_two, field_underscore]
  unfold fileName DateUtils.getStringDateFormat Collides
  rw [format_eq_iff runs_pattern hlength, ← hour12_minute_second_iff]
  simp only [List.forall_mem_cons, field_yyyy, field_month, field_day, field_underscore,
    field_hour12, field_minute, field_second, pad_inj]
  constructor
  · rintro ⟨hyear, hmonth, hday, -, hhour, hminute, hsecond, -⟩
    exact ⟨⟨hyear, hmonth, hday⟩, hhour, hminute, hsecond⟩
  · rintro ⟨hdate, hhour, hminute, hsecond⟩
    exact ⟨hdate.year, hdate.month, hdate.day, trivial, hhour, hminute, hsecond, by simp⟩

/-! ## Which times collide -/

/-- The date of a time of the clock. -/
def dateOf (clock : Int) : Calendar.Date := (DateComponents.ofSecond clock).date

/-- In the era itself the date tells the day. -/
theorem sameDate_iff {m n : Int} (hm : 1 ≤ (dateOf m).year) (hn : 1 ≤ (dateOf n).year) :
    SameDate m n ↔ m / 86400 = n / 86400 := by
  have hera : ∀ year : Int, 1 ≤ year → (yearOfEra year : Int) = year := by
    intro year hyear
    unfold yearOfEra
    rw [if_pos (Int.lt_of_lt_of_le Int.zero_lt_one hyear)]
    omega
  constructor
  · intro h
    have hyear : (dateOf m).year = (dateOf n).year := by
      rw [← hera _ hm, ← hera _ hn]
      exact congrArg Int.ofNat h.year
    have hdate : dateOf m = dateOf n := Calendar.Date.ext hyear h.month h.day
    have hday := Calendar.Date.ofDay_inj.mp hdate
    omega
  · intro h
    have hdate : dateOf m = dateOf n :=
      congrArg (fun day => Calendar.Date.ofDay (day + 719162)) h
    exact ⟨congrArg (fun date => yearOfEra date.year) hdate, congrArg Calendar.Date.month hdate,
      congrArg Calendar.Date.day hdate⟩

/-- **In a zone that keeps its distance, photos a second or more apart collide exactly when they are
    twelve hours apart on one day.** -/
theorem collides_fixed_iff (seconds : Int) {a b : Rat} (h : a + 1 ≤ b)
    (ha : 1 ≤ (dateOf ((TimeZone.fixed seconds).clock a)).year)
    (hb : 1 ≤ (dateOf ((TimeZone.fixed seconds).clock b)).year) :
    Collides (.fixed seconds) a b ↔
      (TimeZone.fixed seconds).clock a / 86400 = (TimeZone.fixed seconds).clock b / 86400 ∧
        (TimeZone.fixed seconds).clock b = (TimeZone.fixed seconds).clock a + 43200 := by
  have hlt := TimeZone.clock_fixed_lt seconds h
  unfold Collides
  rw [sameDate_iff ha hb]
  omega

/-! ## A photo is picked -/

theorem if_length_pos (name : String) : (if name.length > 0 then name else "") = name := by
  split
  · rfl
  · next hempty => exact (String.length_eq_zero_iff.mp (Nat.eq_zero_of_not_pos hempty)).symm

@[simp] theorem WriteDetailView.newBucket_mImageURl (form : WriteDetailView) :
    form.newBucket.mImageURl = form.mPhotoPath := if_length_pos form.mPhotoPath

namespace WriteDetailPhoto

variable {Image : Type} {codec : ImageCodec Image} {zone : TimeZone} {photoDate : Rat}
  {isWritten : Bool} {documents : Documents} {chosenImage : Image}

theorem imagePickerController_of_none (v : WriteDetailPhoto Image)
    (h : codec.jpegData chosenImage = none) :
    v.imagePickerController codec zone photoDate isWritten documents chosenImage =
      .error .unwrappedNil := by
  simp only [imagePickerController, DataUtils.save, h, unwrap_none, error_bind]

theorem imagePickerController_of_some (v : WriteDetailPhoto Image) {imageData : Data}
    (h : codec.jpegData chosenImage = some imageData) :
    v.imagePickerController codec zone photoDate isWritten documents chosenImage =
      .ok ({ v with
          ivImage := some chosenImage
          form := { v.form with mPhotoPath := fileName zone photoDate } },
        if isWritten then documents.write (fileName zone photoDate) imageData else documents) := by
  simp only [imagePickerController, DataUtils.save, h, unwrap_some, WriteDetailView.step,
    if_length_pos, ok_bind, pure_eq_ok]
  rfl

end WriteDetailPhoto

/-! ## A run of photos -/

/-- A photo of a bucket, as its record names it. -/
structure Photo (Image : Type) where
  photoDate : Rat
  mImageURl : String
  image : Image

@[ext] structure Album (Image : Type) where
  documents : Documents
  photos : List (Photo Image) := []

/-- A photo picked on a detail screen. -/
structure Capture (Image : Type) where
  screen : WriteDetailPhoto Image
  photoDate : Rat
  chosenImage : Image
  isWritten : Bool

namespace Album

variable {Image : Type} {codec : ImageCodec Image} {zone : TimeZone}

/-- The screen stores the photo, and Save would put its name into the record. -/
def step (codec : ImageCodec Image) (zone : TimeZone) (s : Album Image) (e : Capture Image) :
    Except Trap (Album Image) := do
  let (screen, documents) ← e.screen.imagePickerController codec zone e.photoDate e.isWritten
    s.documents e.chosenImage
  return {
    documents
    photos := s.photos ++ [⟨e.photoDate, screen.form.newBucket.mImageURl, e.chosenImage⟩] }

/-- The photo is in a file that did not exist, and every photo so far loads as its own file
    decodes. -/
def Preserves (codec : ImageCodec Image) (s : Album Image) (e : Capture Image)
    (o : Except Trap (Album Image)) : Prop :=
  ∃ t imageURl imageData, o = .ok t ∧ codec.jpegData e.chosenImage = some imageData ∧
    t.photos = s.photos ++ [⟨e.photoDate, imageURl, e.chosenImage⟩] ∧
    s.documents imageURl = none ∧ t.documents imageURl = some imageData ∧
    ∀ photo ∈ t.photos, DataUtils.load codec t.documents photo.mImageURl =
      (codec.jpegData photo.image).bind codec.image

/-- The photo can be encoded and written, and no earlier one collides with it. -/
def Apart (codec : ImageCodec Image) (zone : TimeZone) (s : Album Image) (e : Capture Image) :
    Prop :=
  (codec.jpegData e.chosenImage).isSome ∧ e.isWritten = true ∧
    ∀ photo ∈ s.photos, ¬ Collides zone photo.photoDate e.photoDate

/-- Every photo is in its file, and no other file has the name of a photo. -/
structure Kept (codec : ImageCodec Image) (zone : TimeZone) (s : Album Image) : Prop where
  named : ∀ photo ∈ s.photos, photo.mImageURl = fileName zone photo.photoDate
  stored : ∀ photo ∈ s.photos, ∃ imageData, codec.jpegData photo.image = some imageData ∧
    s.documents photo.mImageURl = some imageData
  only : ∀ date, s.documents (fileName zone date) ≠ none →
    ∃ photo ∈ s.photos, photo.mImageURl = fileName zone date

/-- What one photo does to the files, and which name its record has. -/
theorem step_eq_ok {s t : Album Image} {e : Capture Image} :
    s.step codec zone e = .ok t ↔ ∃ imageData, codec.jpegData e.chosenImage = some imageData ∧
      t.documents = (if e.isWritten then s.documents.write (fileName zone e.photoDate) imageData
        else s.documents) ∧
      t.photos = s.photos ++ [⟨e.photoDate, fileName zone e.photoDate, e.chosenImage⟩] := by
  cases hdata : codec.jpegData e.chosenImage with
  | none =>
    rw [step, e.screen.imagePickerController_of_none hdata]
    simp
  | some imageData =>
    have hstep : s.step codec zone e = .ok {
        documents := if e.isWritten then s.documents.write (fileName zone e.photoDate) imageData
          else s.documents
        photos := s.photos ++ [⟨e.photoDate, fileName zone e.photoDate, e.chosenImage⟩] } := by
      rw [step, e.screen.imagePickerController_of_some hdata]
      simp only [ok_bind, pure_eq_ok, WriteDetailView.newBucket_mImageURl]
    rw [hstep]
    constructor
    · intro h
      cases h
      exact ⟨imageData, rfl, rfl, rfl⟩
    · rintro ⟨_, heq, hdocuments, hphotos⟩
      cases heq
      exact congrArg Except.ok (Album.ext hdocuments.symm hphotos.symm)

theorem step_of_written {s : Album Image} {e : Capture Image} {imageData : Data}
    (hdata : codec.jpegData e.chosenImage = some imageData) (hwritten : e.isWritten = true) :
    s.step codec zone e = .ok ⟨s.documents.write (fileName zone e.photoDate) imageData,
      s.photos ++ [⟨e.photoDate, fileName zone e.photoDate, e.chosenImage⟩]⟩ :=
  step_eq_ok.mpr ⟨imageData, hdata, by rw [hwritten]; rfl, rfl⟩

@[simp] theorem write_self (documents : Documents) (name : String) (data : Data) :
    documents.write name data name = some data := if_pos rfl

theorem write_ne {documents : Documents} {name other : String} {data : Data} (h : other ≠ name) :
    documents.write name data other = documents other := if_neg h

theorem Kept.load {s : Album Image} (h : Kept codec zone s) {photo : Photo Image}
    (hphoto : photo ∈ s.photos) : DataUtils.load codec s.documents photo.mImageURl =
      (codec.jpegData photo.image).bind codec.image := by
  obtain ⟨imageData, hdata, hstored⟩ := h.stored photo hphoto
  rw [DataUtils.load, hstored, hdata]

/-- A fresh file leaves the files of the earlier photos, and is the only new one. -/
theorem Kept.write {s t : Album Image} {e : Capture Image} (h : Kept codec zone s)
    {imageData : Data} (hdata : codec.jpegData e.chosenImage = some imageData)
    (hfresh : s.documents (fileName zone e.photoDate) = none)
    (hdocuments : t.documents = s.documents.write (fileName zone e.photoDate) imageData)
    (hphotos : t.photos =
      s.photos ++ [⟨e.photoDate, fileName zone e.photoDate, e.chosenImage⟩]) :
    Kept codec zone t := by
  have hcases : ∀ photo ∈ t.photos, photo ∈ s.photos ∨
      photo = ⟨e.photoDate, fileName zone e.photoDate, e.chosenImage⟩ := by
    intro photo hphoto
    simpa [hphotos] using hphoto
  refine ⟨?_, ?_, ?_⟩
  · intro photo hphoto
    rcases hcases photo hphoto with hold | rfl
    · exact h.named photo hold
    · rfl
  · intro photo hphoto
    rcases hcases photo hphoto with hold | rfl
    · -- The file of an earlier photo is there already, so it is not the one written now.
      obtain ⟨data, hphotoData, hstored⟩ := h.stored photo hold
      have hne : photo.mImageURl ≠ fileName zone e.photoDate := by
        intro heq
        rw [heq, hfresh] at hstored
        cases hstored
      exact ⟨data, hphotoData, by rw [hdocuments, write_ne hne, hstored]⟩
    · exact ⟨imageData, hdata, by rw [hdocuments, write_self]⟩
  · intro date hdate
    rw [hphotos]
    by_cases heq : fileName zone date = fileName zone e.photoDate
    · exact ⟨_, List.mem_append_right _ List.mem_cons_self, heq.symm⟩
    · rw [hdocuments, write_ne heq] at hdate
      obtain ⟨photo, hphoto, hname⟩ := h.only date hdate
      exact ⟨photo, List.mem_append_left _ hphoto, hname⟩

/-- A photo that is preserved was encoded and written, to a file that was not there. -/
theorem Preserves.fresh {s : Album Image} {e : Capture Image}
    (h : Preserves codec s e (s.step codec zone e)) :
    ∃ imageData, codec.jpegData e.chosenImage = some imageData ∧ e.isWritten = true ∧
      s.documents (fileName zone e.photoDate) = none := by
  obtain ⟨t, imageURl, imageData, ht, hdata, hphotos, hfresh, hwritten, -⟩ := h
  obtain ⟨_, -, hdocuments, hphotos'⟩ := step_eq_ok.mp ht
  rw [hphotos] at hphotos'
  have hname : imageURl = fileName zone e.photoDate := by
    simpa using List.append_cancel_left hphotos'
  subst hname
  refine ⟨imageData, hdata, ?_, hfresh⟩
  -- A failed write is not reported: the record names a file that is still not there.
  by_contra hlost
  rw [hdocuments, if_neg hlost, hfresh] at hwritten
  cases hwritten

theorem Kept.step {s t : Album Image} {e : Capture Image} (h : Kept codec zone s)
    (hpreserves : Preserves codec s e (s.step codec zone e)) (ht : s.step codec zone e = .ok t) :
    Kept codec zone t := by
  obtain ⟨imageData, hdata, hwritten, hfresh⟩ := hpreserves.fresh
  obtain ⟨_, hdata', hdocuments, hphotos⟩ := step_eq_ok.mp ht
  rw [hdata] at hdata'
  cases hdata'
  rw [if_pos hwritten] at hdocuments
  exact h.write hdata hfresh hdocuments hphotos

/-- **A photo is preserved, and the earlier ones, exactly when it collides with none of them.** -/
theorem preserves_iff {s : Album Image} (h : Kept codec zone s) (e : Capture Image) :
    Preserves codec s e (s.step codec zone e) ↔ Apart codec zone s e := by
  constructor
  · intro hpreserves
    obtain ⟨imageData, hdata, hwritten, hfresh⟩ := hpreserves.fresh
    refine ⟨by rw [hdata]; rfl, hwritten, fun photo hphoto hcollides => ?_⟩
    -- A photo that collides has its file under the name that is free.
    obtain ⟨data, -, hstored⟩ := h.stored photo hphoto
    rw [h.named photo hphoto, (fileName_eq_iff zone _ _).mpr hcollides, hfresh] at hstored
    cases hstored
  · rintro ⟨hsome, hwritten, hapart⟩
    obtain ⟨imageData, hdata⟩ := Option.isSome_iff_exists.mp hsome
    have hfresh : s.documents (fileName zone e.photoDate) = none := by
      by_contra htaken
      obtain ⟨photo, hphoto, hname⟩ := h.only e.photoDate htaken
      rw [h.named photo hphoto] at hname
      exact hapart photo hphoto ((fileName_eq_iff zone _ _).mp hname)
    obtain ⟨t, ht⟩ : ∃ t, s.step codec zone e = .ok t := ⟨_, step_of_written hdata hwritten⟩
    obtain ⟨data, hdata', hdocuments, hphotos⟩ := step_eq_ok.mp ht
    obtain rfl : imageData = data := Option.some.inj (hdata.symm.trans hdata')
    rw [if_pos hwritten] at hdocuments
    have hkept := h.write hdata hfresh hdocuments hphotos
    refine ⟨t, fileName zone e.photoDate, imageData, ht, hdata, hphotos, hfresh, ?_, ?_⟩
    · rw [hdocuments, write_self]
    · intro photo hphoto
      exact hkept.load hphoto

/-- Along a run the condition is one on its photos alone. -/
theorem guarded_iff (s : Album Image) (captures : List (Capture Image)) :
    Guarded (step codec zone) (Apart codec zone) s captures ↔
      (∀ e ∈ captures, (codec.jpegData e.chosenImage).isSome ∧ e.isWritten = true) ∧
      (∀ photo ∈ s.photos, ∀ e ∈ captures, ¬ Collides zone photo.photoDate e.photoDate) ∧
      captures.Pairwise fun a b => ¬ Collides zone a.photoDate b.photoDate := by
  -- On the photos to come: the head joins those that are there, which the pairs then speak of.
  induction captures generalizing s with
  | nil => simp [EachStep]
  | cons e es ih =>
    rw [List.forall_mem_cons, List.pairwise_cons]
    constructor
    · rintro ⟨⟨hsome, hwritten, hapart⟩, hrest⟩
      obtain ⟨imageData, hdata⟩ := Option.isSome_iff_exists.mp hsome
      obtain ⟨hok, hphotos, hpairwise⟩ := (ih _).mp (hrest _ (step_of_written hdata hwritten))
      refine ⟨⟨⟨hsome, hwritten⟩, hok⟩, fun photo hphoto => ?_, ?_, hpairwise⟩
      · rw [List.forall_mem_cons]
        exact ⟨hapart photo hphoto, hphotos photo (List.mem_append_left _ hphoto)⟩
      · exact hphotos _ (List.mem_append_right _ List.mem_cons_self)
    · rintro ⟨⟨⟨hsome, hwritten⟩, hok⟩, hphotos, hfirst, hpairwise⟩
      refine ⟨⟨hsome, hwritten, fun photo hphoto => hphotos photo hphoto e List.mem_cons_self⟩, ?_⟩
      intro t ht
      obtain ⟨_, -, -, hnext⟩ := step_eq_ok.mp ht
      refine (ih t).mpr ⟨hok, fun photo hphoto => ?_, hpairwise⟩
      rw [hnext, List.mem_append, List.mem_singleton] at hphoto
      rcases hphoto with hold | rfl
      · exact fun e' he' => hphotos photo hold e' (List.mem_cons_of_mem e he')
      · exact hfirst

end Album

/-- **Photos never share a file exactly when none of them collide**: two names differ, and a run of
    photos gets fresh files and keeps the earlier ones.

    The documents may hold anything but files of such names. What is asked of a photo besides its
    name is that it can be encoded and that its file is written. -/
theorem photos_kept_iff {Image : Type} (codec : ImageCodec Image) (zone : TimeZone) :
    (∀ a b, fileName zone a ≠ fileName zone b ↔ ¬ Collides zone a b) ∧
    ∀ documents : Documents, (∀ date, documents (fileName zone date) = none) →
      ∀ captures : List (Capture Image),
        EachStep (Album.step codec zone) (Album.Preserves codec) { documents } captures ↔
          (∀ e ∈ captures, (codec.jpegData e.chosenImage).isSome ∧ e.isWritten = true) ∧
          captures.Pairwise fun a b => ¬ Collides zone a.photoDate b.photoDate := by
  refine ⟨fun a b => not_congr (fileName_eq_iff zone a b), fun documents hnone captures => ?_⟩
  have hkept : Album.Kept codec zone { documents } :=
    ⟨by simp, by simp, fun date hdate => absurd (hnone date) hdate⟩
  have hguarded : EachStep (Album.step codec zone) (Album.Preserves codec) { documents } captures ↔
      Guarded (Album.step codec zone) (Album.Apart codec zone) { documents } captures := by
    apply EachStep.congr (I := Album.Kept codec zone)
    · intro s e t hs hpreserves ht
      exact hs.step hpreserves ht
    · intro s e hs
      exact Album.preserves_iff hs e
    · exact hkept
  rw [hguarded, Album.guarded_iff]
  simp

/-! ## One in the night, one in the afternoon -/

def emptyScreen : WriteDetailPhoto Data where
  form := {
    device := { realm := Table.empty, defaults := fun _ => none }
    CONTENTS := "swim"
    BACK := ContextUtils.MAIN_VIEW }

/-- A photo picked `second` seconds after one o'clock of the fifth of May 2024, Greenwich. -/
def pickedAt (second : Int) (image : Data) : Capture Data where
  screen := emptyScreen
  photoDate := ((1714870800 + second : Int) : Rat)
  chosenImage := image
  isWritten := true

theorem clock_greenwich (second : Int) : (TimeZone.fixed 0).clock (second : Rat) = second := by
  simp [TimeZone.clock, TimeZone.fixed]

theorem photos_kept_iff_hour :
    EachStep (Album.step plainCodec (.fixed 0)) (Album.Preserves plainCodec)
      { documents := fun _ => none } [pickedAt 0 [1], pickedAt 3600 [2]] := by
  apply ((photos_kept_iff plainCodec (.fixed 0)).2 (fun _ => none) (fun _ => rfl) _).mpr
  refine ⟨by simp [pickedAt, plainCodec], List.pairwise_pair.mpr fun hcollides => ?_⟩
  have htime := hcollides.2
  rw [pickedAt, pickedAt, clock_greenwich, clock_greenwich] at htime
  revert htime
  decide

/-- Twelve hours later the second photo takes the file of the first, whose record then shows it. -/
theorem afternoon_overwrites :
    ∃ t, Runs (Album.step plainCodec (.fixed 0)) { documents := fun _ => none }
        [pickedAt 0 [1], pickedAt 43200 [2]] t ∧
      t.photos.map (fun photo => (photo.mImageURl, photo.image)) =
        [("20240505_010000", [1]), ("20240505_010000", [2])] ∧
      DataUtils.load plainCodec t.documents "20240505_010000" = some [2] := by
  have hmorning : fileName (.fixed 0) (pickedAt 0 [1]).photoDate = "20240505_010000" := by
    rw [pickedAt, fileName, DateUtils.getStringDateFormat, clock_greenwich]
    decide
  have hafternoon : fileName (.fixed 0) (pickedAt 43200 [2]).photoDate = "20240505_010000" := by
    rw [pickedAt, fileName, DateUtils.getStringDateFormat, clock_greenwich]
    decide
  refine ⟨_, .cons (Album.step_of_written rfl rfl) (.single (Album.step_of_written rfl rfl)),
    ?_, ?_⟩
  · rw [hmorning, hafternoon]
    rfl
  · rw [hmorning, hafternoon]
    rfl

end KBucket
