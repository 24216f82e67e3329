import KBucket.Photos
import KBucket.Proof.Duplicate
import KBucket.Proof.PhotoName

/-!
# Photos are found

A record names its photo and the file is written before the record is, by another statement, and
no file is ever deleted. So what the records and the form in front name is what they named
before, or nothing, or the photo that was just picked (`names_step`), and every name is that of a
file that shows an image in every state of a run exactly when each photo that is picked is
written, or an image of its name was there already (`photos_found_iff`).

The condition is on each photo when it is picked, and is necessary because the record is written
whether or not the file was. `hcodec` is the one assumption about the frameworks: a picture that
was encoded can be shown again. The texts of a run are arbitrary here, quotes included, since a
deletion that takes too much takes names with it and no files.
-/

namespace KBucket

open Lib

namespace App

variable {nfc : String → String} {today : String}

/-- The names of photos in the store and on the form in front. -/
def names (app : App) : List String :=
  app.device.realm.rows.map Bucket.mImageURl ++
    match app with
    | .detail v => [v.mPhotoPath]
    | _ => []

theorem stored_names {app : App} {b : Bucket} (hb : b ∈ app.device.realm.rows) :
    b.mImageURl ∈ app.names :=
  List.mem_append_left _ (List.mem_map_of_mem hb)

theorem mem_names_detail {v : WriteDetailView} {name : String} :
    name ∈ (App.detail v).names ↔
      (∃ b ∈ v.device.realm.rows, b.mImageURl = name) ∨ name = v.mPhotoPath := by
  simp [names, App.device]

/-- Nothing is named that was not named before. -/
def NamesFrom (app app' : App) : Prop := ∀ name ∈ app'.names, name = "" ∨ name ∈ app.names

/-- On a screen other than the form the names are those of the store. -/
theorem namesFrom_of_rows {app app' : App} (hform : ∀ v, app' ≠ .detail v)
    (hrows : ∀ b ∈ app'.device.realm.rows, b ∈ app.device.realm.rows ∨ b.mImageURl = "") :
    NamesFrom app app' := by
  intro name hname
  have hstored : name ∈ app'.device.realm.rows.map Bucket.mImageURl := by
    cases app' with
    | detail v => exact absurd rfl (hform v)
    | _ => simpa [names] using hname
  obtain ⟨b, hb, rfl⟩ := List.mem_map.mp hstored
  rcases hrows b hb with hold | hempty
  · exact .inr (stored_names hold)
  · exact .inl hempty

/-! ## What a screen is presented with -/

theorem foldl_showBucket_mPhotoPath (bucketList : List Bucket) (v : WriteDetailView) :
    (bucketList.foldl (WriteDetailView.showBucket today) v).mPhotoPath = v.mPhotoPath ∨
      ∃ b ∈ bucketList, (bucketList.foldl (WriteDetailView.showBucket today) v).mPhotoPath
        = b.mImageURl := by
  induction bucketList generalizing v with
  | nil => exact .inl rfl
  | cons b bs ih =>
    rcases ih (WriteDetailView.showBucket today v b) with h | ⟨b', hb', h⟩
    · by_cases hlen : b.mImageURl.length > 0
      · refine .inr ⟨b, List.mem_cons_self, ?_⟩
        rw [List.foldl_cons, h, WriteDetailView.showBucket]
        exact if_pos hlen
      · refine .inl ?_
        rw [List.foldl_cons, h, WriteDetailView.showBucket]
        exact if_neg hlen
    · exact .inr ⟨b', List.mem_cons_of_mem _ hb', h⟩

/-- A presented screen names what the store does. -/
theorem names_present {device : Device} {next : Presented} {app : App}
    (h : present today device next = .ok app) {name : String} (hname : name ∈ app.names) :
    name = "" ∨ ∃ b ∈ device.realm.rows, b.mImageURl = name := by
  have hmain : ∀ {app : App}, (∀ v, app ≠ .detail v) → app.device = device → name ∈ app.names →
      ∃ b ∈ device.realm.rows, b.mImageURl = name := by
    rintro app hform rfl hname
    cases app with
    | detail v => exact absurd rfl (hform v)
    | _ => simpa [names] using hname
  cases next with
  | writeDetail CONTENTS BACK =>
    obtain ⟨v, hload, rfl⟩ := map_eq_ok.mp h
    obtain ⟨bucketList, hsel, hfold⟩ := bind_eq_ok.mp hload
    cases hfold
    rw [mem_names_detail, WriteDetailView.foldl_showBucket_device] at hname
    rcases hname with hstored | rfl
    · exact .inr hstored
    · rcases foldl_showBucket_mPhotoPath bucketList
          { device, CONTENTS, BACK, mContents := CONTENTS } with h | ⟨b, hb, h⟩
      · exact .inl h
      · exact .inr ⟨b, Realm.mem_of_filter hsel hb, h.symm⟩
  | view strView =>
    simp only [present] at h
    split at h
    · cases h
      exact .inr (hmain (by simp) rfl hname)
    · cases h
      exact .inr (hmain (by simp) rfl hname)
  | main mWidgetSendData =>
    cases h
    exact .inr (hmain (by simp) rfl hname)

theorem namesFrom_follow {app app' next : App} {presented : List Presented}
    (hfrom : NamesFrom app app') (h : follow today app' presented = .ok next) :
    NamesFrom app next := by
  unfold follow at h
  split at h
  · intro name hname
    rcases names_present h hname with hempty | ⟨b, hb, rfl⟩
    · exact .inl hempty
    · exact hfrom _ (stored_names hb)
  · cases h
    exact hfrom

/-! ## What a handler stores -/

/-- Whatever happens on the to-do screen, the records are old ones, or one without a photo. -/
theorem rows_write [Platform] {v v' : WriteView} {event : WriteView.Event}
    (h : v.step nfc event = .ok v') {b : Bucket} (hb : b ∈ v'.device.realm.rows) :
    b ∈ v.device.realm.rows ∨ b.mImageURl = "" := by
  have hsort : ∀ value, v' = (v.writeSortKey value).sort nfc → b ∈ v.device.realm.rows := by
    intro value hv
    obtain ⟨list, heq, -⟩ := WriteView.sort_eq nfc (v.writeSortKey value)
    rw [hv, heq] at hb
    exact hb
  cases event with
  | btAdd text =>
    have h' : WriteView.onClick nfc { v with etEdit := text } .btAdd = .ok v' := h
    cases hdup : WriteView.checkduplicateData nfc { v with etEdit := text } text with
    | true =>
      rw [WriteView.onClick_btAdd_duplicate hdup] at h'
      cases h'
      exact .inl hb
    | false =>
      by_cases hk : text ∈ v.device.realm.keys
      · rw [WriteView.onClick_btAdd_taken hdup hk] at h'
        cases h'
      · obtain ⟨realm, heq, hrows⟩ :=
          WriteView.onClick_btAdd_new (v := { v with etEdit := text }) hdup hk
        rw [heq] at h'
        cases h'
        have hb' : b ∈ realm.rows := hb
        rw [hrows, List.mem_append, List.mem_singleton] at hb'
        rcases hb' with hold | rfl
        · exact .inl hold
        · exact .inr rfl
  | rowDelete data =>
    have h' : v.receiveEventFromViewItem 1 data = .ok v' := h
    unfold WriteView.receiveEventFromViewItem at h'
    rw [if_neg (by decide), if_pos rfl] at h'
    obtain ⟨index, -, h'⟩ := bind_eq_ok.mp h'
    split at h'
    · obtain ⟨deleteItem, -, h'⟩ := bind_eq_ok.mp h'
      obtain ⟨⟨result, w⟩, hrem, h'⟩ := bind_eq_ok.mp h'
      obtain ⟨⟨_, realm⟩, hdel, hw⟩ := bind_eq_ok.mp hrem
      cases hw
      have hrealm : v'.device.realm = realm := by
        dsimp only at h'
        split at h'
        · obtain ⟨mDataList, -, h'⟩ := bind_eq_ok.mp h'
          cases h'
          rfl
        · cases h'
          rfl
      rw [hrealm] at hb
      exact .inl (SQLQuery.mem_of_deleteUserBucket hdel hb)
    · cases h'
      exact .inl hb
  | btSortLastest => exact .inl (hsort _ (Except.ok.inj h).symm)
  | btSortName => exact .inl (hsort _ (Except.ok.inj h).symm)
  | btSortDeadLine => exact .inl (hsort _ (Except.ok.inj h).symm)

theorem rows_rowAdd {v v' : AddBucketView} {date data : String}
    (h : v.receiveEventFromViewItem date 0 data = .ok v') {b : Bucket}
    (hb : b ∈ v'.device.realm.rows) : b ∈ v.device.realm.rows ∨ b.mImageURl = "" := by
  unfold AddBucketView.receiveEventFromViewItem AddBucketView.addDBData at h
  rw [if_pos rfl] at h
  obtain ⟨inContainsBucket, -, h⟩ := bind_eq_ok.mp h
  split at h
  · obtain ⟨r, hins, h⟩ := bind_eq_ok.mp h
    cases h
    obtain ⟨-, -, hrows⟩ := SQLQuery.insertUserSetting_eq_ok.mp hins
    have hb' : b ∈ r.2.rows := hb
    rw [hrows, List.mem_append, List.mem_singleton] at hb'
    rcases hb' with hold | rfl
    · exact .inl hold
    · exact .inr rfl
  · cases h
    exact .inl hb

theorem rows_rowRemove {v v' : AddBucketView} {date data : String}
    (h : v.receiveEventFromViewItem date 1 data = .ok v') {b : Bucket}
    (hb : b ∈ v'.device.realm.rows) : b ∈ v.device.realm.rows := by
  unfold AddBucketView.receiveEventFromViewItem AddBucketView.removeDBData at h
  rw [if_neg (by decide), if_pos rfl] at h
  obtain ⟨r, hdel, h⟩ := bind_eq_ok.mp h
  obtain ⟨inContainsBucket, -, h⟩ := bind_eq_ok.mp h
  cases h
  exact SQLQuery.mem_of_deleteUserBucket hdel hb

/-- On the form the photo is kept or forgotten, unless one is picked. -/
theorem mPhotoPath_step {v v' : WriteDetailView} {event : WriteDetailView.Event}
    (h : v.step event = .ok v') (hpick : ∀ name, event ≠ .imagePicked name) :
    v'.mPhotoPath = v.mPhotoPath ∨ v'.mPhotoPath = "" := by
  have hback : ∀ (w : WriteDetailView) (s : String), (w.back s).mPhotoPath = w.mPhotoPath := by
    intro w s
    unfold WriteDetailView.back
    split <;> rfl
  cases event with
  | imagePicked name => exact absurd rfl (hpick name)
  | btRemoveImage => cases h; exact .inr rfl
  | btSave =>
    obtain ⟨w, hup, hw⟩ := bind_eq_ok.mp h
    obtain ⟨realm, -, rfl⟩ := WriteDetailView.updateDBDate_eq_ok.mp hup
    cases hw
    exact .inl (hback _ _)
  | btDel =>
    obtain ⟨w, hrem, hw⟩ := bind_eq_ok.mp h
    obtain ⟨r, -, hdel⟩ := bind_eq_ok.mp hrem
    cases hdel
    cases hw
    exact .inl (hback _ _)
  | onBackPressed => cases h; exact .inl (hback _ _)
  | etContent text | etDate text | etCompleteDate text | btCheckbox isOn => cases h; exact .inl rfl

theorem namesFrom_detail {v v' : WriteDetailView} {event : WriteDetailView.Event}
    (h : v.step event = .ok v') (hpick : ∀ name, event ≠ .imagePicked name) :
    NamesFrom (.detail v) (.detail v') := by
  intro name hname
  rw [mem_names_detail] at hname ⊢
  rcases hname with ⟨b, hb, rfl⟩ | rfl
  · rcases WriteDetailView.mem_of_step h hb with hold | rfl
    · exact .inr (.inl ⟨b, hold, rfl⟩)
    · exact .inr (.inr v.newBucket_mImageURl)
  · rcases mPhotoPath_step h hpick with hsame | hempty
    · exact .inr (.inr hsame)
    · exact .inl hempty

/-- **An action names no photo that was not named before**, if it picks none. -/
theorem names_step [Platform] {app app' : App} {event : Event}
    (hpick : ∀ name, event ≠ .detail (.imagePicked name))
    (h : step nfc app (today, event) = .ok app') : NamesFrom app app' := by
  have hstay : ∀ app : App, NamesFrom app app := fun app name hname => .inr hname
  -- One case per screen and per control that the screen has; anything else stays.
  simp only [App.step] at h
  split at h
  · cases h
    refine namesFrom_of_rows (by simp) fun b hb => .inl ?_
    rw [device, WriteView.viewDidLoad_device] at hb
    exact hb
  · cases h; exact namesFrom_of_rows (by simp) fun b hb => .inl hb
  · cases h; exact namesFrom_of_rows (by simp) fun b hb => .inl hb
  · cases h; exact namesFrom_of_rows (by simp) fun b hb => .inl hb
  · obtain ⟨v', hstep, rfl⟩ := map_eq_ok.mp h
    exact namesFrom_of_rows (by simp) fun b hb => rows_write hstep hb
  · obtain ⟨v', hmod, hfollow⟩ := bind_eq_ok.mp h
    refine namesFrom_follow (namesFrom_of_rows (by simp) fun b hb => .inl ?_) hfollow
    rw [device, (rowMod_keeps hmod).1] at hb
    exact hb
  · next v event =>
    obtain ⟨v', hstep, hfollow⟩ := bind_eq_ok.mp h
    refine namesFrom_follow (namesFrom_detail hstep ?_) hfollow
    rintro name rfl
    exact hpick name rfl
  · obtain ⟨v', hrow, hfollow⟩ := bind_eq_ok.mp h
    refine namesFrom_follow (namesFrom_of_rows (by simp) fun b hb => .inl ?_) hfollow
    rw [device, rowDetail_keeps hrow] at hb
    exact hb
  · obtain ⟨v', hadd, rfl⟩ := map_eq_ok.mp h
    exact namesFrom_of_rows (by simp) fun b hb => rows_rowAdd hadd hb
  · obtain ⟨v', hrem, rfl⟩ := map_eq_ok.mp h
    exact namesFrom_of_rows (by simp) fun b hb => .inl (rows_rowRemove hrem hb)
  · cases h
    refine namesFrom_of_rows (by simp) fun b hb => .inl ?_
    exact (Table.mem_deleteWhere.mp hb).1
  · cases h; exact namesFrom_of_rows (by simp) fun b hb => .inl hb
  · cases h; exact namesFrom_of_rows (by simp) fun b hb => .inl hb
  · cases h; exact namesFrom_of_rows (by simp) fun b hb => .inl hb
  · cases h; exact namesFrom_of_rows (by simp) fun b hb => .inl hb
  · cases h; exact hstay app

end App

namespace Photos

variable {Image : Type} {nfc : String → String} {codec : ImageCodec Image} {zone : TimeZone}

/-- The file of this name shows an image. -/
def Shows (codec : ImageCodec Image) (documents : Documents) (name : String) : Prop :=
  ∃ image, DataUtils.load codec documents name = some image

/-- Every photo that a record or the form names is found. -/
def Found (codec : ImageCodec Image) (s : Photos) : Prop :=
  ∀ name ∈ s.app.names, name ≠ "" → Shows codec s.documents name

/-- A photo that is picked on a form is written, or an image of its name is there already. A photo
    that cannot be encoded traps. -/
def Written (codec : ImageCodec Image) (zone : TimeZone) (s : Photos) : Event Image → Prop
  | .act .. => True
  | .pick photoDate isWritten chosenImage =>
    (∃ v, s.app = .detail v) → codec.jpegData chosenImage ≠ none →
      isWritten = true ∨ Shows codec s.documents (fileName zone photoDate)

theorem fileName_ne_empty (zone : TimeZone) (photoDate : Rat) : fileName zone photoDate ≠ "" := by
  intro h
  have hlist := congrArg String.toList h
  simp only [fileName, DateUtils.getStringDateFormat, DateFormat.format, runs_pattern,
    String.toList_ofList, String.toList_empty, List.flatMap_eq_nil_iff] at hlist
  have hunderscore := hlist ('_', 1) (by simp)
  rw [DateFormat.field_underscore] at hunderscore
  cases hunderscore

theorem shows_write (hcodec : ∀ image data, codec.jpegData image = some data →
      ∃ shown, codec.image data = some shown) {image : Image} {data : Data}
    (hdata : codec.jpegData image = some data) (documents : Documents) (fileName name : String)
    (h : name = fileName ∨ Shows codec documents name) :
    Shows codec (documents.write fileName data) name := by
  by_cases hname : name = fileName
  · subst hname
    obtain ⟨shown, hshown⟩ := hcodec image data hdata
    exact ⟨shown, by rw [DataUtils.load, Album.write_self, Option.bind_some, hshown]⟩
  · obtain ⟨shown, hshown⟩ := h.resolve_left hname
    refine ⟨shown, ?_⟩
    rw [DataUtils.load, Album.write_ne hname]
    exact hshown

/-- Choosing a photo on a form: the form names it, whether it is written or not. -/
theorem step_pick [Platform] {v : WriteDetailView} {documents : Documents} {photoDate : Rat}
    {isWritten : Bool} {chosenImage : Image} {data : Data}
    (hdata : codec.jpegData chosenImage = some data) :
    step nfc codec zone ⟨.detail v, documents⟩ (.pick photoDate isWritten chosenImage) = .ok
      { app := .detail { v with mPhotoPath := fileName zone photoDate }
        documents := if isWritten then documents.write (fileName zone photoDate) data
          else documents } := by
  simp only [step, WriteDetailPhoto.imagePickerController_of_some _ hdata]
  rfl

theorem pick_found_iff (hcodec : ∀ image data, codec.jpegData image = some data →
      ∃ shown, codec.image data = some shown) {v : WriteDetailView} {documents : Documents}
    (hs : Found codec ⟨.detail v, documents⟩) {chosenImage : Image} {data : Data}
    (hdata : codec.jpegData chosenImage = some data) (zone : TimeZone) (photoDate : Rat)
    (isWritten : Bool) :
    Found codec
        { app := .detail { v with mPhotoPath := fileName zone photoDate }
          documents := if isWritten then documents.write (fileName zone photoDate) data
            else documents } ↔
      isWritten = true ∨ Shows codec documents (fileName zone photoDate) := by
  have hold : ∀ b ∈ v.device.realm.rows, b.mImageURl ≠ "" → Shows codec documents b.mImageURl :=
    fun b hb => hs _ (App.mem_names_detail.mpr (.inl ⟨b, hb, rfl⟩))
  cases isWritten with
  | true =>
    refine iff_of_true ?_ (.inl rfl)
    intro name hname hne
    apply shows_write hcodec hdata
    rcases App.mem_names_detail.mp hname with ⟨b, hb, rfl⟩ | rfl
    · exact .inr (hold b hb hne)
    · exact .inl rfl
  | false =>
    simp only [Bool.false_eq_true, if_false, false_or]
    constructor
    · intro h
      exact h _ (App.mem_names_detail.mpr (.inr rfl)) (fileName_ne_empty zone photoDate)
    · intro hthere name hname hne
      rcases App.mem_names_detail.mp hname with ⟨b, hb, rfl⟩ | rfl
      · exact hold b hb hne
      · exact hthere

/-- **In a run of the app every photo that is named is found, in every state, exactly when each
    photo that is picked is written or an image of its name is there.**

    `hcodec` is what the frameworks promise of a picture that they have encoded themselves: it can
    be shown again. The texts of the run are arbitrary. -/
theorem photos_found_iff [Platform] (hcodec : ∀ image data, codec.jpegData image = some data →
      ∃ shown, codec.image data = some shown) {s : Photos} (hs : Found codec s)
    (events : List (Event Image)) :
    Always (step nfc codec zone) (Found codec) s events ↔
      Guarded (step nfc codec zone) (Written codec zone) s events := by
  refine always_iff_guarded (J := fun _ => True) (fun _ _ _ _ _ => trivial) ?_ trivial hs events
  intro s e _ hfound
  cases e with
  | act today event control =>
    refine iff_of_true ?_ trivial
    intro t ht
    obtain ⟨app, happ, ht⟩ := bind_eq_ok.mp ht
    cases ht
    intro name hname hne
    rcases App.names_step control happ name hname with hempty | hold
    · exact absurd hempty hne
    · exact hfound name hold hne
  | pick photoDate isWritten chosenImage =>
    obtain ⟨app, documents⟩ := s
    cases app with
    | detail v =>
      cases hdata : codec.jpegData chosenImage with
      | none =>
        refine iff_of_true ?_ fun _ hsome => absurd hdata hsome
        intro t ht
        simp only [step, WriteDetailPhoto.imagePickerController_of_none _ hdata] at ht
        cases ht
      | some data =>
        have hiff := pick_found_iff hcodec hfound hdata zone photoDate isWritten
        simp only [step_pick hdata, Except.ok.injEq, forall_eq', hiff, Written, hdata]
        simp
    | _ =>
      refine iff_of_true ?_ fun h => absurd h (by simp)
      intro t ht
      cases ht
      exact hfound

/-- A form that is opened on no photo, and no files. -/
def emptyForm : Photos where
  app := .detail WriteDetailView.parisOpened
  documents := fun _ => none

/-- A photo whose file is not written is named by the form, and not found. -/
theorem unwritten_photo_lost :
    ¬ Always (step id plainCodec (.fixed 0)) (Found plainCodec) emptyForm
      [.pick 0 false [0]] := by
  have hcodec : ∀ image data, plainCodec.jpegData image = some data →
      ∃ shown, plainCodec.image data = some shown := fun _ data _ => ⟨data, rfl⟩
  have hempty : ∀ name ∈ emptyForm.app.names, name = "" := by decide
  have hstart : Found plainCodec emptyForm := fun name hname hne => absurd (hempty name hname) hne
  rw [photos_found_iff hcodec hstart]
  intro h
  rcases h.1 ⟨_, rfl⟩ (by decide) with hfalse | ⟨image, hload⟩
  · cases hfalse
  · cases hload

end Photos
end KBucket
