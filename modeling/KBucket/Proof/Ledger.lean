import KBucket.Ledger
import KBucket.Lib.Refinement
import KBucket.Proof.Duplicate

/-!
# The app refines the ledger

What the store knows of a content is an entry of the ledger (`Realm.ledger`), what a screen shows
is the place in it that the user has come to (`abs`), and what a button or a row does there is
one of its actions (`label`): a row stands for the content it shows. `agrees` compares the two
step by step, and the run-level results follow: the app is where the ledger is
(`refines_ledger`), it ends in a trap exactly when an action has no place in the ledger
(`runs_iff_not_crashing`), and it never changes a bucket that no action was about
(`untouched_kept`).

Every statement about runs asks that the contents of the store can be quoted, and the texts that
are typed as well. Without that there is nothing to refine: the deletion of one dream can then take
others with it, and what it takes depends on how a predicate happens to parse.

Rows are told by numbers. The numbers are read in the list on display, which was made from the
store in the order in which the store handed out its rows. That order is an insertion order only
until something is deleted (`Lib.Table.deleteWhere`). None of the results depends on it, as the
label of an action is the text in its row.
-/

namespace KBucket

open Lib

/-! ## The store as a ledger -/

def Bucket.entry (b : Bucket) : Entry where
  achieved := b.mCompleteYN == "Y"
  photo := b.mImageURl
  date := b.mDate
  completeDate := b.mCompleteDate

namespace Realm

def ledger (realm : Realm) : Ledger := fun text => (realm.find? text).map Bucket.entry

theorem ledger_of_mem {realm : Realm} {b : Bucket} (hb : b ∈ realm.rows) :
    realm.ledger b.mContent = some b.entry := by
  rw [ledger, Table.find?_of_mem hb]
  rfl

theorem ledger_eq_none_iff {realm : Realm} {text : String} :
    realm.ledger text = none ↔ text ∉ realm.keys := by
  rw [ledger, Option.map_eq_none_iff, Table.find?_eq_none]

theorem ledger_eq_some_iff {realm : Realm} {text : String} {entry : Entry} :
    realm.ledger text = some entry ↔
      ∃ b ∈ realm.rows, b.mContent = text ∧ b.entry = entry := by
  simp only [ledger, Option.map_eq_some_iff, Table.find?_eq_some, and_assoc]

theorem ledger_erase (realm : Realm) (text : String) :
    ledger (realm.erase text) = realm.ledger.remove text := by
  funext t
  rw [ledger, Table.find?_erase, Ledger.remove_apply]
  split <;> rfl

theorem ledger_added {realm realm' : Realm} {b : Bucket} (hb : b.mContent ∉ realm.keys)
    (hrows : realm'.rows = realm.rows ++ [b]) :
    realm'.ledger = realm.ledger.put b.mContent b.entry := by
  funext t
  rw [ledger, Table.find?_added hb hrows, Ledger.put_apply]
  split <;> rfl

/-- What the to-do screen admits is what the ledger has to do. -/
theorem toDo_ledger_iff {realm : Realm} {text : String} :
    realm.ledger.ToDo text ↔
      ∃ b ∈ realm.rows, WriteView.Admitted b ∧ b.mContent = text := by
  simp only [Ledger.ToDo, ledger_eq_some_iff, WriteView.Admitted]
  constructor
  · rintro ⟨entry, ⟨b, hb, rfl, rfl⟩, hadm⟩
    exact ⟨b, hb, hadm.imp id (by simp [Bucket.entry]), rfl⟩
  · rintro ⟨b, hb, hadm, rfl⟩
    exact ⟨b.entry, ⟨b, hb, rfl, rfl⟩, hadm.imp id (by simp [Bucket.entry])⟩

end Realm

namespace WriteDetailView

/-- What the form says. -/
def form (v : WriteDetailView) : Ledger.Form where
  opened := v.mContents
  fromAchieved := decide (v.BACK = ContextUtils.VIEW_COMPLETE_LIST)
  text := v.etContent
  entry :=
    { achieved := v.btCheckbox, photo := v.mPhotoPath, date := v.etDate,
      completeDate := v.etCompleteDate }

theorem entry_newBucket (v : WriteDetailView) : v.newBucket.entry = v.form.entry := by
  simp only [Bucket.entry, newBucket, form, ifNotEmpty_eq]
  cases v.btCheckbox <;> rfl

theorem ifEmpty_eq (s t : String) : (if s.length > 0 then s else t) = if s = "" then t else s := by
  by_cases h : s = ""
  · simp [h]
  · have hlen : s.length > 0 :=
      Nat.pos_of_ne_zero fun hzero => h (String.length_eq_zero_iff.mp hzero)
    rw [if_pos hlen, if_neg h]

/-- On a bucket of the store, the form is filled as the ledger says. -/
theorem form_showBucket {realm : Realm} {b : Bucket} (hb : b ∈ realm.rows) (today BACK : String)
    (device : Device) :
    (showBucket today { device, CONTENTS := b.mContent, BACK, mContents := b.mContent } b).form
      = Ledger.fill today realm.ledger b.mContent
          (decide (BACK = ContextUtils.VIEW_COMPLETE_LIST)) := by
  unfold Ledger.fill
  rw [Realm.ledger_of_mem hb]
  simp only [form, showBucket, ifNotEmpty_eq]
  simp only [ifEmpty_eq, Bucket.entry]
  rfl

theorem free_form_iff (v : WriteDetailView) : v.form.Free v.device.realm.ledger ↔ v.Free := by
  unfold Ledger.Form.Free Free
  rw [Realm.ledger_eq_none_iff]
  rfl

end WriteDetailView

namespace App

variable {nfc : String → String} {today : String}

/-! ## States and actions -/

def abs : App → Ledger.State
  | .main device => ⟨device.realm.ledger, .home⟩
  | .write v => ⟨v.device.realm.ledger, .todo⟩
  | .detail v => ⟨v.device.realm.ledger, .form v.form⟩
  | .bucketList v => ⟨v.device.realm.ledger, .achieved⟩
  | .addBucket v => ⟨v.device.realm.ledger, .suggestions⟩
  | .dbMgr device => ⟨device.realm.ledger, .settings⟩

theorem abs_ledger (app : App) : app.abs.ledger = app.device.realm.ledger := by
  cases app <;> rfl

/-- The row that a view names when it sends `data`. -/
def row? [Platform] (rows : List String) (data : String) : Option String :=
  (intOfString? data).bind fun i => if 0 ≤ i then rows[i.toNat]? else none

/-- Opening a row, if it is there. -/
def openRow [Platform] (today : String) (rows : List String) (data : String) : Ledger.Event :=
  match row? rows data with
  | some text => .open today text
  | none => .noRow

/-- Deleting a row asks first whether it is there. -/
def deleteRow [Platform] (rows : List String) (data : String) : Ledger.Event :=
  if intOfString? data = none then .noRow
  else match row? rows data with
    | some text => .delete text
    | none => .idle

def formLabel : WriteDetailView.Event → Ledger.Event
  | .etContent text => .setText text
  | .etDate text => .setDate text
  | .etCompleteDate text => .setCompleteDate text
  | .btCheckbox isOn => .setAchieved isOn
  | .imagePicked tempImageName => .setPhoto tempImageName
  | .btRemoveImage => .setPhoto ""
  | .btSave => .save
  | .btDel => .discard
  | .onBackPressed => .leave

/-- What an action is in the ledger. -/
def label [Platform] (app : App) : String × Event → Ledger.Event
  | (today, event) =>
    match app, event with
    | .main _, .openWrite => .goTodo
    | .main _, .openBucketList => .goAchieved
    | .main _, .openAddBucket => .goSuggestions
    | .main _, .openDBMgr => .goSettings
    | .write _, .write (.btAdd text) => .add text
    | .write v, .write (.rowDelete data) => deleteRow v.mDataList data
    | .write v, .rowMod data => openRow today v.mDataList data
    | .detail _, .detail event => formLabel event
    | .bucketList v, .rowDetail data => openRow today (v.mDataList.map PostData.m_contents) data
    | .addBucket _, .rowAdd data => .suggest data
    | .addBucket _, .rowRemove data => .withdraw data
    | .dbMgr _, .reset => .reset
    | .write _, .back | .bucketList _, .back | .addBucket _, .back | .dbMgr _, .back => .goHome
    | _, _ => .idle

/-- What holds of the screen in front: the lists show what is stored, and the form has not
    presented anything yet. -/
def ScreenFits : App → Prop
  | .write v => WriteView.Synced v
  | .detail v => Predicate.Plain v.mContents ∧ Predicate.Plain v.etContent ∧ v.presented = []
  | .bucketList v => ∀ postData ∈ v.mDataList, postData.m_contents ∈ v.device.realm.keys
  | _ => True

structure Fits (app : App) : Prop where
  plain : PlainStore app.device.realm
  screen : ScreenFits app

/-- Two texts that Swift takes for one. -/
def same (nfc : String → String) (a b : String) : Prop := nfc a = nfc b

/-- The outcome of an action beside what the ledger says. -/
abbrev MatchesLedger (outcome : Except Trap App) (spec : Option Ledger.State) : Prop :=
  Matches Fits abs outcome spec

/-! ## One step of each screen -/

theorem row?_eq_some [Platform] {rows : List String} {data text : String} :
    row? rows data = some text ↔
      ∃ i, intOfString? data = some i ∧ arrayGet rows i = .ok text := by
  simp only [row?, Option.bind_eq_some_iff, arrayGet_eq_ok, Option.ite_none_right_eq_some]

theorem arrayGet_map {α β : Type} (f : α → β) (xs : List α) (i : Int) :
    arrayGet (xs.map f) i = (arrayGet xs i).map f := by
  unfold arrayGet
  rw [List.getElem?_map]
  split
  · cases xs[i.toNat]? <;> rfl
  · rfl

theorem mem_of_row? [Platform] {rows : List String} {data text : String}
    (h : row? rows data = some text) :
    text ∈ rows := by
  obtain ⟨i, -, hget⟩ := row?_eq_some.mp h
  exact List.mem_of_getElem? (arrayGet_eq_ok.mp hget).2

/-- Asking for a row that is not there. -/
theorem error_of_row? [Platform] {α : Type} {rows : List String} {data : String}
    (h : row? rows data = none) (f : String → Except Trap α) :
    ∃ e, (unwrap (intOfString? data) >>= fun i => arrayGet rows i >>= f) = .error e := by
  cases hi : intOfString? data with
  | none => exact ⟨.unwrappedNil, rfl⟩
  | some i =>
    cases hget : arrayGet rows i with
    | ok text =>
      have hrow := row?_eq_some.mpr ⟨i, hi, hget⟩
      rw [h] at hrow
      cases hrow
    | error e =>
      refine ⟨e, ?_⟩
      rw [unwrap_some, ok_bind, hget, error_bind]

/-- A stored content is opened on its form. -/
theorem present_writeDetail {device : Device} {text BACK : String}
    (hplain : PlainStore device.realm) (htext : text ∈ device.realm.keys) :
    ∃ app, present today device (.writeDetail text BACK) = .ok app ∧ Fits app ∧
      app.abs = ⟨device.realm.ledger, .form (Ledger.fill today device.realm.ledger text
        (decide (BACK = ContextUtils.VIEW_COMPLETE_LIST)))⟩ := by
  obtain ⟨b, hb, rfl⟩ := Table.mem_keys.mp htext
  let v := WriteDetailView.showBucket today
    { device, CONTENTS := b.mContent, BACK, mContents := b.mContent } b
  have hload : WriteDetailView.viewDidLoad today device b.mContent BACK = .ok v :=
    WriteDetailView.viewDidLoad_of_mem hb (hplain _ htext)
  refine ⟨.detail v, ?_, ⟨hplain, hplain _ htext, hplain _ htext, rfl⟩, ?_⟩
  · rw [present, hload]
    rfl
  · rw [abs, WriteDetailView.form_showBucket hb today BACK device]
    rfl

theorem fits_main {device : Device} (hplain : PlainStore device.realm) : Fits (.main device) :=
  ⟨hplain, trivial⟩

theorem fits_bucketList {device : Device} (hplain : PlainStore device.realm) :
    Fits (.bucketList (.viewDidLoad device)) := by
  refine ⟨hplain, ?_⟩
  unfold ScreenFits BucketListView.viewDidLoad BucketListView.setListData
  simp only [foldl_unless, List.nil_append]
  intro postData hmem
  obtain ⟨b, hb, rfl⟩ := List.mem_map.mp hmem
  exact Table.key_mem (List.mem_filter.mp hb).1

/-- Where the form is left to. -/
theorem present_back {v : WriteDetailView} (hplain : PlainStore v.device.realm) {next : Presented}
    (hnext : (v.back v.BACK).presented.getLast? = some next) :
    ∃ app, present today v.device next = .ok app ∧ Fits app ∧
      app.abs = ⟨v.device.realm.ledger, v.form.back⟩ := by
  unfold WriteDetailView.back at hnext
  by_cases hback : v.BACK = ContextUtils.VIEW_COMPLETE_LIST
  · rw [if_pos hback] at hnext
    simp only [List.getLast?_append, List.getLast?_singleton, Option.some_or,
      Option.some.injEq] at hnext
    subst hnext
    refine ⟨_, rfl, fits_bucketList hplain, ?_⟩
    simp only [abs, Ledger.Form.back, WriteDetailView.form, hback]
    rfl
  · rw [if_neg hback] at hnext
    simp only [List.getLast?_append, List.getLast?_singleton, Option.some_or,
      Option.some.injEq] at hnext
    subst hnext
    refine ⟨_, rfl, fits_main hplain, ?_⟩
    simp only [abs, Ledger.Form.back, WriteDetailView.form, hback]
    rfl

theorem fits_write [Platform] {v v' : WriteView} (event : WriteView.Event) (hfits : Fits (.write v))
    (htext : PlainTexts (.write event)) (h : v.step nfc event = .ok v') : Fits (.write v') := by
  obtain ⟨hplain, hsync⟩ := hfits
  have hch := WriteView.step_change (fun t ht => hplain t (hsync.mem_keys ht)) h
  have htext' : ∀ text, event = .btAdd text → Predicate.Plain text := by
    rintro text rfl
    exact htext
  exact ⟨WriteView.plainStore_change hplain htext' hch, hsync.change hch⟩

/-- Adding on the to-do screen. -/
theorem matches_add [Platform] {v : WriteView} (hfits : Fits (.write v)) {text : String}
    (htext : Predicate.Plain text) :
    MatchesLedger ((v.step nfc (.btAdd text)).map .write)
      (Ledger.step (same nfc) (App.write v).abs (.add text)) := by
  have hlisted : WriteView.checkduplicateData nfc { v with etEdit := text } text = true ↔
      ∃ listed, v.device.realm.ledger.ToDo listed ∧ same nfc listed text := by
    have hsync : WriteView.Synced v := hfits.screen
    simp only [WriteView.checkduplicateData, List.any_eq_true, stringEq, beq_iff_eq, same,
      Realm.toDo_ledger_iff, hsync.mem_iff]
  by_cases hdup : WriteView.checkduplicateData nfc { v with etEdit := text } text = true
  · have hstep := WriteView.onClick_btAdd_duplicate hdup
    refine .ok _ (congrArg (Except.map App.write) hstep)
      (fits_write (.btAdd text) hfits htext hstep) ?_
    exact Ledger.step_add_listed (hlisted.mp hdup)
  · have hnew := Bool.eq_false_iff.mpr hdup
    have hnotListed := mt hlisted.mpr hdup
    by_cases hk : text ∈ v.device.realm.keys
    · have hstep := WriteView.onClick_btAdd_taken hnew hk
      refine .trap _ (congrArg (Except.map App.write) hstep) ?_
      exact Ledger.step_add_taken hnotListed (mt Realm.ledger_eq_none_iff.mp (not_not.mpr hk))
    · obtain ⟨realm, hstep, hrows⟩ :=
        WriteView.onClick_btAdd_new (v := { v with etEdit := text }) hnew hk
      have hledger : realm.ledger = v.device.realm.ledger.put text {} := Realm.ledger_added hk hrows
      refine .ok _ (congrArg (Except.map App.write) hstep)
        (fits_write (.btAdd text) hfits htext hstep) ?_
      show _ = some (Ledger.State.mk realm.ledger .todo)
      rw [hledger]
      exact Ledger.step_add_new hnotListed (Realm.ledger_eq_none_iff.mpr hk)

/-- Deleting a row of the to-do screen. -/
theorem matches_delete [Platform] {v : WriteView} (hfits : Fits (.write v)) (data : String) :
    MatchesLedger ((v.step nfc (.rowDelete data)).map .write)
      (Ledger.step (same nfc) (App.write v).abs (deleteRow v.mDataList data)) := by
  have hsync : WriteView.Synced v := hfits.screen
  unfold deleteRow
  cases hi : intOfString? data with
  | none =>
    rw [if_pos rfl]
    exact .trap _ (congrArg (Except.map App.write) (WriteView.rowDelete_notInt hi)) rfl
  | some i =>
    rw [if_neg (by simp)]
    cases hrow : row? v.mDataList data with
    | none =>
      have hrange : ¬ (0 ≤ i ∧ i < v.mDataList.length) := by
        intro hrange
        have hlt : i.toNat < v.mDataList.length := by omega
        rw [row?, hi, Option.bind_some, if_pos hrange.1, List.getElem?_eq_getElem hlt] at hrow
        cases hrow
      have hstep := WriteView.rowDelete_outOfRange (v := v) hi hrange
      exact .ok _ (congrArg (Except.map App.write) hstep) hfits rfl
    | some text =>
      obtain ⟨j, hj, hget⟩ := row?_eq_some.mp hrow
      rw [hi, Option.some.injEq] at hj
      subst hj
      obtain ⟨hnonneg, hget⟩ := arrayGet_eq_ok.mp hget
      have hlt := (List.getElem?_eq_some_iff.mp hget).1
      have hplain := hfits.plain text (hsync.mem_keys (List.mem_of_getElem? hget))
      have hstep : v.step nfc (.rowDelete data) = .ok _ :=
        WriteView.rowDelete_inRange hi ⟨hnonneg, by omega⟩ hget hplain
      refine .ok _ (congrArg (Except.map App.write) hstep)
        (fits_write (.rowDelete data) hfits trivial hstep) ?_
      show some (Ledger.State.mk (v.device.realm.ledger.remove text) .todo)
        = some ⟨Realm.ledger (v.device.realm.erase text), .todo⟩
      rw [Realm.ledger_erase]

/-- Everything that happens on the to-do screen itself. -/
theorem matches_write [Platform] {v : WriteView} {event : WriteView.Event} (hfits : Fits (.write v))
    (htext : PlainTexts (.write event)) :
    MatchesLedger ((v.step nfc event).map .write)
      (Ledger.step (same nfc) (App.write v).abs (label (.write v) (today, .write event))) := by
  have hsorts : ∀ value, v.step nfc event = .ok (v.writeSortKey value |>.sort nfc) →
      MatchesLedger ((v.step nfc event).map .write) (some (App.write v).abs) := by
    intro value hstep
    refine .ok _ (congrArg (Except.map App.write) hstep) (fits_write event hfits htext hstep) ?_
    obtain ⟨list, heq, -⟩ := WriteView.sort_eq nfc (v.writeSortKey value)
    rw [heq]
    rfl
  cases event with
  | btAdd text => exact matches_add hfits htext
  | rowDelete data => exact matches_delete hfits data
  | btSortLastest => exact hsorts _ rfl
  | btSortName => exact hsorts _ rfl
  | btSortDeadLine => exact hsorts _ rfl

/-- Opening a row: the screen presents the form of the content that the row shows. -/
theorem matches_openRow [Platform] {app : App} {rows : List String} {data BACK : String}
    {fromAchieved : Bool} {x : Except Trap App} (hplain : PlainStore app.device.realm)
    (hback : decide (BACK = ContextUtils.VIEW_COMPLETE_LIST) = fromAchieved)
    (hrows : ∀ text ∈ rows, text ∈ app.device.realm.keys)
    (hx : x = (unwrap (intOfString? data) >>= fun i => arrayGet rows i >>= fun text =>
      present today app.device (.writeDetail text BACK)))
    (hspec : ∀ text, Ledger.step (same nfc) app.abs (.open today text) = some
      ⟨app.device.realm.ledger, .form (Ledger.fill today app.device.realm.ledger text
        fromAchieved)⟩)
    (hnone : Ledger.step (same nfc) app.abs .noRow = none) :
    MatchesLedger x (Ledger.step (same nfc) app.abs (openRow today rows data)) := by
  unfold openRow
  cases hrow : row? rows data with
  | none =>
    obtain ⟨e, he⟩ := error_of_row? hrow fun text =>
      present today app.device (.writeDetail text BACK)
    exact .trap e (hx.trans he) hnone
  | some text =>
    obtain ⟨i, hi, hget⟩ := row?_eq_some.mp hrow
    obtain ⟨next, hpresent, hfits, habs⟩ :=
      @present_writeDetail today _ text BACK hplain (hrows text (mem_of_row? hrow))
    refine .ok next ?_ hfits ?_
    · rw [hx, hi, unwrap_some, ok_bind, hget, ok_bind, hpresent]
    · rw [hspec text, habs, hback]

theorem matches_rowMod [Platform] {v : WriteView} (hfits : Fits (.write v)) (data : String) :
    MatchesLedger (step nfc (.write v) (today, .rowMod data))
      (Ledger.step (same nfc) (App.write v).abs (openRow today v.mDataList data)) := by
  have hsync : WriteView.Synced v := hfits.screen
  have hback : decide (ContextUtils.VIEW_WRITE = ContextUtils.VIEW_COMPLETE_LIST) = false := by
    decide
  refine matches_openRow hfits.plain hback (fun text => hsync.mem_keys) ?_ (fun _ => rfl) rfl
  simp only [step, WriteView.receiveEventFromViewItem, if_pos, bind_assoc]
  refine congrArg _ (funext fun i => congrArg _ (funext fun text => ?_))
  rw [pure_eq_ok, ok_bind, follow, List.getLast?_append, List.getLast?_singleton]
  rfl

/-- Opening a row of the achieved buckets. -/
theorem matches_rowDetail [Platform] {v : BucketListView} (hfits : Fits (.bucketList v))
    (data : String) :
    MatchesLedger (step nfc (.bucketList v) (today, .rowDetail data))
      (Ledger.step (same nfc) (App.bucketList v).abs
        (openRow today (v.mDataList.map PostData.m_contents) data)) := by
  have hback : decide (ContextUtils.VIEW_COMPLETE_LIST = ContextUtils.VIEW_COMPLETE_LIST) = true :=
    decide_eq_true rfl
  have hrows : ∀ text ∈ v.mDataList.map PostData.m_contents, text ∈ v.device.realm.keys := by
    intro text htext
    obtain ⟨postData, hmem, rfl⟩ := List.mem_map.mp htext
    exact hfits.screen postData hmem
  refine matches_openRow hfits.plain hback hrows ?_ (fun _ => rfl) rfl
  simp only [step, BucketListView.receiveEventFromViewItem, BucketListView.changeDetailView,
    if_pos, bind_assoc]
  refine congrArg _ (funext fun i => ?_)
  rw [arrayGet_map]
  cases arrayGet v.mDataList i with
  | error e => rfl
  | ok postData =>
    simp only [ok_bind, pure_eq_ok, follow, List.getLast?_append, List.getLast?_singleton]
    rfl

/-- A handler that leaves the form: what it did to the store, and where to. -/
theorem matches_leave {v : WriteDetailView} {realm : Realm} (hplain : PlainStore realm) :
    ∃ app', follow today (.detail ({ v with device := { v.device with realm } }.back v.BACK))
        ({ v with device := { v.device with realm } }.back v.BACK).presented = .ok app' ∧
      Fits app' ∧ app'.abs = ⟨realm.ledger, v.form.back⟩ := by
  have hnext : ∃ next, ({ v with device := { v.device with realm } }.back v.BACK).presented.getLast?
      = some next := by
    unfold WriteDetailView.back
    split
    · exact ⟨_, by rw [List.getLast?_append]; rfl⟩
    · exact ⟨_, by rw [List.getLast?_append]; rfl⟩
  obtain ⟨next, hnext⟩ := hnext
  have hback := @present_back today { v with device := { v.device with realm } } hplain next hnext
  obtain ⟨app', hpresent, hfits, habs⟩ := hback
  refine ⟨app', ?_, hfits, habs⟩
  rw [follow, hnext]
  show present today (WriteDetailView.back _ _).device next = _
  rw [WriteDetailView.back_device, hpresent]

theorem matches_save [Platform] {v : WriteDetailView} (hfits : Fits (.detail v)) :
    MatchesLedger (step nfc (.detail v) (today, .detail .btSave))
      (Ledger.step (same nfc) (App.detail v).abs .save) := by
  obtain ⟨hcontents, htext, -⟩ := hfits.screen
  by_cases hfree : v.Free
  · obtain ⟨realm, hadd, hrows⟩ := Realm.add_of_notMem (WriteDetailView.free_iff.mp hfree)
    have hplain : PlainStore realm := by
      refine hfits.plain.of_mem fun b hb => ?_
      rw [hrows, List.mem_append, List.mem_singleton] at hb
      rcases hb with hb | rfl
      · exact .inl (Table.mem_erase.mp hb).1
      · exact .inr htext
    have hledger : realm.ledger
        = (v.device.realm.ledger.remove v.form.opened).put v.form.text v.form.entry := by
      rw [Realm.ledger_added (WriteDetailView.free_iff.mp hfree) hrows, Realm.ledger_erase,
        WriteDetailView.entry_newBucket]
      rfl
    obtain ⟨app', hfollow, hfits', habs⟩ := @matches_leave today v realm hplain
    refine .ok app' ?_ hfits' ?_
    · have hstep := WriteDetailView.step_btSave hcontents
      simp only [step, hstep, hadd]
      exact hfollow
    · rw [habs, hledger]
      exact Ledger.step_save_free ((WriteDetailView.free_form_iff v).mpr hfree)
  · have hstep := WriteDetailView.step_btSave_of_not_free hcontents hfree
    refine .trap .primaryKeyExists ?_ ?_
    · simp only [step, hstep]
      rfl
    · exact Ledger.step_save_taken (mt (WriteDetailView.free_form_iff v).mp hfree)

/-- Everything that happens on the form. -/
theorem matches_detail [Platform] {v : WriteDetailView} {event : WriteDetailView.Event}
    (hfits : Fits (.detail v)) (htext : PlainTexts (.detail event)) :
    MatchesLedger (step nfc (.detail v) (today, .detail event))
      (Ledger.step (same nfc) (App.detail v).abs (formLabel event)) := by
  obtain ⟨hcontents, hcontent, hpresented⟩ := hfits.screen
  have hstays : ∀ v' : WriteDetailView, v.step event = .ok v' → v'.presented = [] →
      step nfc (.detail v) (today, .detail event) = .ok (.detail v') := by
    intro v' hstep hnone
    simp only [step, hstep, ok_bind, follow, hnone, List.getLast?_nil]
  cases event with
  | btSave => exact matches_save hfits
  | btDel =>
    have hplain : PlainStore (v.device.realm.erase v.mContents) :=
      hfits.plain.of_mem fun b hb => .inl (Table.mem_erase.mp hb).1
    obtain ⟨app', hfollow, hfits', habs⟩ := @matches_leave today v _ hplain
    refine .ok app' ?_ hfits' ?_
    · simp only [step, WriteDetailView.step, WriteDetailView.removeDBData,
        SQLQuery.deleteUserBucket_plain hcontents]
      exact hfollow
    · rw [habs, Realm.ledger_erase]
      rfl
  | onBackPressed =>
    obtain ⟨app', hfollow, hfits', habs⟩ := @matches_leave today v _ hfits.plain
    refine .ok app' hfollow hfits' ?_
    rw [habs]
    rfl
  | etContent text =>
    exact .ok _ (hstays _ rfl hpresented) ⟨hfits.plain, hcontents, htext, hpresented⟩ rfl
  | imagePicked tempImageName =>
    refine .ok _ (hstays _ rfl hpresented) ⟨hfits.plain, hcontents, hcontent, hpresented⟩ ?_
    simp only [abs, WriteDetailView.form, WriteDetailView.ifNotEmpty_eq]
    rfl
  | etDate date | etCompleteDate date | btCheckbox isOn | btRemoveImage =>
    exact .ok _ (hstays _ rfl hpresented) ⟨hfits.plain, hcontents, hcontent, hpresented⟩ rfl

theorem matches_rowAdd {v : AddBucketView} (hfits : Fits (.addBucket v)) {data : String}
    (hdata : Predicate.Plain data) :
    MatchesLedger ((v.receiveEventFromViewItem today 0 data).map .addBucket)
      (Ledger.step (same nfc) (App.addBucket v).abs (.suggest data)) := by
  unfold AddBucketView.receiveEventFromViewItem AddBucketView.addDBData
  rw [if_pos rfl, SQLQuery.containsKbucket_plain hdata]
  by_cases hk : data ∈ v.device.realm.keys
  · simp only [hk, decide_true]
    refine .ok _ rfl ⟨hfits.plain, trivial⟩ ?_
    exact Ledger.step_suggest_stored (mt Realm.ledger_eq_none_iff.mp (not_not.mpr hk))
  · obtain ⟨realm, hins, hrows⟩ := SQLQuery.insertUserSetting_of_notMem hk today "N" ""
    have hledger : realm.ledger = v.device.realm.ledger.put data {} := Realm.ledger_added hk hrows
    simp only [hk, decide_false, ok_bind, Bool.not_false, if_true, hins]
    refine .ok _ rfl ⟨hfits.plain.added hdata hrows, trivial⟩ ?_
    show _ = some (Ledger.State.mk realm.ledger .suggestions)
    rw [hledger]
    exact Ledger.step_suggest_new (Realm.ledger_eq_none_iff.mpr hk)

theorem matches_rowRemove {v : AddBucketView} (hfits : Fits (.addBucket v)) {data : String}
    (hdata : Predicate.Plain data) :
    MatchesLedger ((v.receiveEventFromViewItem today 1 data).map .addBucket)
      (Ledger.step (same nfc) (App.addBucket v).abs (.withdraw data)) := by
  have hplain : PlainStore (v.device.realm.erase data) :=
    hfits.plain.of_mem fun b hb => .inl (Table.mem_erase.mp hb).1
  unfold AddBucketView.receiveEventFromViewItem AddBucketView.removeDBData
  rw [if_neg (by decide), if_pos rfl, SQLQuery.deleteUserBucket_plain hdata]
  simp only [ok_bind, SQLQuery.containsKbucket_plain hdata]
  refine .ok _ rfl ⟨hplain, trivial⟩ ?_
  show _ = some (Ledger.State.mk (Realm.ledger (v.device.realm.erase data)) .suggestions)
  rw [Realm.ledger_erase]
  rfl

/-! ## Every step -/

/-- The texts of the action, where it has one, can be quoted. -/
def Quotable : Event → Prop
  | .write (.btAdd text) => Predicate.Plain text
  | .detail (.etContent text) => Predicate.Plain text
  | .rowAdd text | .rowRemove text => Predicate.Plain text
  | _ => True

theorem plainTexts_of_quotable {event : Event} (h : Quotable event) : PlainTexts event := by
  unfold PlainTexts
  split
  · exact h
  · exact h
  · exact h
  · trivial

theorem fits_openWrite {device : Device} (hplain : PlainStore device.realm) :
    Fits (.write (.viewDidLoad nfc device)) := by
  refine ⟨?_, WriteView.synced_viewDidLoad nfc device⟩
  rw [App.device, WriteView.viewDidLoad_device]
  exact hplain

/-- **One action of the app is one action of the ledger.** -/
theorem matches_step [Platform] {app : App} {event : Event} (hfits : Fits app)
    (htext : Quotable event) :
    MatchesLedger (step nfc app (today, event))
      (Ledger.step (same nfc) app.abs (app.label (today, event))) := by
  have hplain := hfits.plain
  cases app with
  | main device =>
    cases event with
    | openWrite =>
      refine .ok _ rfl (fits_openWrite hplain) ?_
      show _ = some (Ledger.State.mk (WriteView.viewDidLoad nfc device).device.realm.ledger .todo)
      rw [WriteView.viewDidLoad_device]
      rfl
    | openBucketList => exact .ok _ rfl (fits_bucketList hplain) rfl
    | openAddBucket | openDBMgr => exact .ok _ rfl ⟨hplain, trivial⟩ rfl
    | _ => exact .ok _ rfl hfits rfl
  | write v =>
    cases event with
    | write event => exact matches_write hfits (plainTexts_of_quotable htext)
    | rowMod data => exact matches_rowMod hfits data
    | back => exact .ok _ rfl (fits_main hplain) rfl
    | _ => exact .ok _ rfl hfits rfl
  | detail v =>
    cases event with
    | detail event => exact matches_detail hfits (plainTexts_of_quotable htext)
    | _ => exact .ok _ rfl hfits rfl
  | bucketList v =>
    cases event with
    | rowDetail data => exact matches_rowDetail hfits data
    | back => exact .ok _ rfl (fits_main hplain) rfl
    | _ => exact .ok _ rfl hfits rfl
  | addBucket v =>
    cases event with
    | rowAdd data => exact matches_rowAdd hfits htext
    | rowRemove data => exact matches_rowRemove hfits htext
    | back => exact .ok _ rfl (fits_main hplain) rfl
    | _ => exact .ok _ rfl hfits rfl
  | dbMgr device =>
    cases event with
    | reset =>
      have hempty := SQLQuery.DeleteBucketContents_eq device.realm
      refine .ok _ rfl ⟨?_, trivial⟩ ?_
      · show PlainStore (SQLQuery.DeleteBucketContents device.realm)
        rw [hempty]
        intro c hc
        cases hc
      · show _ = some (Ledger.State.mk (Realm.ledger (SQLQuery.DeleteBucketContents _)) .settings)
        rw [hempty]
        rfl
    | back => exact .ok _ rfl (fits_main hplain) rfl
    | _ => exact .ok _ rfl hfits rfl

/-- The app as a refinement of the ledger. -/
noncomputable def ledgerRefinement [Platform] (nfc : String → String) :
    Refinement (step nfc) (Ledger.step (same nfc)) where
  Inv := Fits
  Guard e := Quotable e.2
  abs := abs
  label := label
  sound hfits htext := matches_step hfits htext

/-! ## Whole runs -/

/-- What the actions of a run are in the ledger. -/
noncomputable def labels [Platform] (nfc : String → String) :
    App → List (String × Event) → List Ledger.Event :=
  (ledgerRefinement nfc).labels

theorem plain_halfAchieved : PlainStore WriteView.halfAchieved.realm := by
  unfold PlainStore
  decide

/-- Opening the to-do screen and adding a text. -/
def addText (text : String) : List (String × Event) :=
  [("24-05-01", .openWrite), ("24-05-01", .write (.btAdd text))]

theorem quotable_addText {text : String} (h : Predicate.Plain text) :
    ∀ e ∈ addText text, Quotable e.2 := by
  intro e he
  simp only [addText, List.mem_cons, List.not_mem_nil, or_false] at he
  rcases he with rfl | rfl
  · trivial
  · exact h

/-- The actions that trap: adding a text that is stored as achieved and like no row of the to-do
    list, deleting a row by a text that is no number, opening a row that is not there, and a Save
    under a content that another bucket has. A row number that is out of range deletes nothing. -/
def Crashes [Platform] (nfc : String → String) (app : App) (event : Event) : Prop :=
  match app, event with
  | .write v, .write (.btAdd text) =>
    text ≠ "" ∧ (∃ b ∈ v.device.realm.rows, b.mContent = text ∧ b.mCompleteYN = "Y") ∧
      ∀ item ∈ v.mDataList, nfc item ≠ nfc text
  | .write _, .write (.rowDelete data) => intOfString? data = none
  | .write v, .rowMod data => row? v.mDataList data = none
  | .detail v, .detail .btSave =>
    v.etContent ≠ v.mContents ∧ v.etContent ∈ v.device.realm.keys
  | .bucketList v, .rowDetail data => row? (v.mDataList.map PostData.m_contents) data = none
  | _, _ => False

theorem achieved_ledger_iff {realm : Realm} {text : String} :
    realm.ledger.Achieved text ↔
      ∃ b ∈ realm.rows, b.mContent = text ∧ b.mCompleteYN = "Y" := by
  simp only [Ledger.Achieved, Realm.ledger_eq_some_iff]
  constructor
  · rintro ⟨entry, ⟨b, hb, htext, rfl⟩, hach⟩
    exact ⟨b, hb, htext, by simpa [Bucket.entry] using hach⟩
  · rintro ⟨b, hb, htext, hyn⟩
    exact ⟨b.entry, ⟨b, hb, htext, rfl⟩, by simp [Bucket.entry, hyn]⟩

theorem refused_openRow [Platform] {s : Ledger.State} {rows : List String} {data : String}
    (hscreen : s.screen = .todo ∨ s.screen = .achieved) :
    Ledger.Refused (same nfc) s (openRow today rows data) ↔ row? rows data = none := by
  unfold openRow Ledger.Refused
  cases row? rows data <;> rcases hscreen with h | h <;> simp [h]

/-- What the ledger refuses is what traps. -/
theorem refused_iff_crashes [Platform] {app : App} {event : Event} (hfits : Fits app) :
    Ledger.Refused (same nfc) app.abs (app.label (today, event)) ↔ Crashes nfc app event := by
  cases app with
  | write v =>
    have hsync : WriteView.Synced v := hfits.screen
    cases event with
    | write event =>
      cases event with
      | btAdd text =>
        show _ ∧ _ ∧ _ ↔ _ ∧ _ ∧ _
        simp only [abs, achieved_ledger_iff, Realm.toDo_ledger_iff, ← hsync.mem_iff, same]
      | rowDelete data =>
        show Ledger.Refused _ _ (deleteRow v.mDataList data) ↔ intOfString? data = none
        unfold deleteRow
        split
        · next hnone => exact ⟨fun _ => hnone, fun _ => trivial⟩
        · next hsome =>
          refine iff_of_false ?_ hsome
          cases row? v.mDataList data <;> exact not_false
      | _ => exact Iff.rfl
    | rowMod data => exact refused_openRow (.inl rfl)
    | _ => exact Iff.rfl
  | detail v =>
    cases event with
    | detail event =>
      cases event with
      | btSave =>
        show ¬ v.form.Free v.device.realm.ledger ↔ _
        rw [WriteDetailView.free_form_iff, WriteDetailView.Free, not_or, not_not]
        rfl
      | _ => exact Iff.rfl
    | _ => exact Iff.rfl
  | bucketList v =>
    cases event with
    | rowDetail data => exact refused_openRow (.inr rfl)
    | _ => exact Iff.rfl
  | main device | addBucket v | dbMgr device => cases event <;> exact Iff.rfl

/-- The contents that an action is about. -/
def About [Platform] (app : App) (event : Event) (text : String) : Prop :=
  match app, event with
  | .write _, .write (.btAdd t) => t = text
  | .write v, .write (.rowDelete data) => row? v.mDataList data = some text
  | .detail v, .detail .btSave => v.mContents = text ∨ v.etContent = text
  | .detail v, .detail .btDel => v.mContents = text
  | .addBucket _, .rowAdd t | .addBucket _, .rowRemove t => t = text
  | .dbMgr _, .reset => True
  | _, _ => False

theorem touches_iff_about [Platform] {app : App} {event : Event} {text : String} :
    Ledger.Touches app.abs (app.label (today, event)) text ↔ About app event text := by
  cases app with
  | write v =>
    cases event with
    | write event =>
      cases event with
      | rowDelete data =>
        show Ledger.Touches _ (deleteRow v.mDataList data) text ↔ row? v.mDataList data = some text
        unfold deleteRow
        split
        · next hnone => simp [row?, hnone, Ledger.Touches, abs]
        · cases row? v.mDataList data <;> simp [Ledger.Touches, abs]
      | _ => exact Iff.rfl
    | rowMod data =>
      show Ledger.Touches _ (openRow today v.mDataList data) text ↔ False
      unfold openRow
      cases row? v.mDataList data <;> exact Iff.rfl
    | _ => exact Iff.rfl
  | detail v =>
    cases event with
    | detail event => cases event <;> exact Iff.rfl
    | _ => exact Iff.rfl
  | bucketList v =>
    cases event with
    | rowDetail data =>
      show Ledger.Touches _ (openRow today _ data) text ↔ False
      unfold openRow
      cases row? (v.mDataList.map PostData.m_contents) data <;> exact Iff.rfl
    | _ => exact Iff.rfl
  | main device | addBucket v | dbMgr device => cases event <;> exact Iff.rfl

/-- **A bucket that no action of a run is about comes out of the run as it was**, whatever else
    was added, edited, achieved or deleted.

    `habout` is the condition that makes a bucket one that the run is not about; `hplain` and
    `htexts` are there because a deletion with a quote in its text picks what it likes. -/
theorem untouched_kept [Platform] {device : Device} {events : List (String × Event)} {app : App}
    {text : String} (hplain : PlainStore device.realm) (htexts : ∀ e ∈ events, Quotable e.2)
    (habout : Guarded (step nfc) (fun app e => ¬ About app e.2 text) (.main device) events)
    (hrun : Runs (step nfc) (.main device) events app) :
    app.device.realm.ledger text = device.realm.ledger text := by
  rw [← abs_ledger]
  refine (ledgerRefinement nfc).invariant (H := fun s a => ¬ Ledger.Touches s a text)
    (J := fun s => s.ledger text = device.realm.ledger text) ?_ (fits_main hplain) htexts rfl ?_
    hrun
  · intro s a s' hs htouch hstep
    rw [(Ledger.step_change hstep).untouched htouch]
    exact hs
  · exact habout.mono fun app e h => mt touches_iff_about.mp h

theorem untouched_kept_rome :
    ∃ app, Runs (step id) (.main WriteView.halfAchieved) (addText "Lyon") app ∧
      app.device.realm.ledger "Rome" = WriteView.halfAchieved.realm.ledger "Rome" := by
  have hrun : Runs (step id) (.main WriteView.halfAchieved) (addText "Lyon") _ :=
    .cons rfl (.single rfl)
  refine ⟨_, hrun, untouched_kept plain_halfAchieved (quotable_addText (by decide)) ?_ hrun⟩
  refine ⟨not_false, fun app happ => ⟨?_, fun _ _ => trivial⟩⟩
  cases happ
  show ¬ "Lyon" = "Rome"
  decide

/-- The form in front of the ledger is the detail screen's. -/
theorem detail_of_form [Platform] {app : App} {event : Event} {form : Ledger.Form}
    (hscreen : app.abs.screen = .form form) (hsave : app.label (today, event) = .save) :
    ∃ v, app = .detail v ∧ v.form = form ∧ event = .detail .btSave := by
  cases app with
  | detail v =>
    cases hscreen
    cases event with
    | detail event =>
      cases event with
      | btSave => exact ⟨v, rfl, rfl, rfl⟩
      | _ => cases hsave
    | _ => cases hsave
  | _ => cases hscreen

/-- Nothing stored under the content is achieved. -/
def NotAchieved (realm : Realm) (text : String) : Prop :=
  ∀ b ∈ realm.rows, b.mContent = text → b.mCompleteYN ≠ "Y"

theorem notAchieved_iff {realm : Realm} {text : String} :
    NotAchieved realm text ↔ ¬ realm.ledger.Achieved text := by
  rw [achieved_ledger_iff]
  simp [NotAchieved]

/-- **A dream becomes achieved on its form, by a Save with the box ticked**: in a run without such
    a Save of a content, the content is not achieved in the end unless it was.

    `hsave` says that there is no such Save in the run. The texts can be quoted, as for the ledger
    that this is read off from. -/
theorem achieved_only_by_save [Platform] {device : Device} {events : List (String × Event)}
    {app : App}
    {text : String} (hplain : PlainStore device.realm) (htexts : ∀ e ∈ events, Quotable e.2)
    (hsave : Guarded (step nfc) (fun app e => ∀ v, app = .detail v → e.2 = .detail .btSave →
      v.etContent = text → v.btCheckbox = false) (.main device) events)
    (hrun : Runs (step nfc) (.main device) events app)
    (hstart : NotAchieved device.realm text) : NotAchieved app.device.realm text := by
  rw [notAchieved_iff] at hstart ⊢
  rw [← abs_ledger]
  refine (ledgerRefinement nfc).invariant (H := fun s a => ∀ form, s.screen = .form form →
      a = .save → form.text = text → form.entry.achieved = false)
    (J := fun s => ¬ s.ledger.Achieved text) ?_ (fits_main hplain) htexts hstart ?_ hrun
  · intro s a s' hs hform hstep
    exact (Ledger.step_change hstep).not_achieved hs hform
  · refine hsave.mono fun app e h form hscreen hlabel htext => ?_
    obtain ⟨v, rfl, rfl, hevent⟩ := detail_of_form hscreen hlabel
    exact h v rfl hevent htext

theorem achieved_only_by_save_paris :
    ∃ app, Runs (step id) (.main WriteView.halfAchieved) (addText "Lyon") app ∧
      NotAchieved app.device.realm "Paris" := by
  have hrun : Runs (step id) (.main WriteView.halfAchieved) (addText "Lyon") _ :=
    .cons rfl (.single rfl)
  have hsave : Guarded (step id) (fun app e => ∀ v, app = .detail v → e.2 = .detail .btSave →
      v.etContent = "Paris" → v.btCheckbox = false) (.main WriteView.halfAchieved)
      (addText "Lyon") := by
    refine Guarded.of_forall fun e he app v _ hevent => ?_
    simp only [addText, List.mem_cons, List.not_mem_nil, or_false] at he
    rcases he with rfl | rfl <;> cases hevent
  have hstart : NotAchieved WriteView.halfAchieved.realm "Paris" := by
    unfold NotAchieved
    decide
  exact ⟨_, hrun, achieved_only_by_save plain_halfAchieved (quotable_addText (by decide)) hsave hrun
    hstart⟩

end App
end KBucket
