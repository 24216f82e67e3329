import KBucket.Lib.Run
import KBucket.Proof.Store

/-!
# Editing a bucket

Save deletes the bucket found under the content the screen was opened on, and adds a record
made from the form. Two results come out of that. `edits_safe_iff`: a session of edits, Saves and
Deletes never raises, and never adds a bucket where it should replace one, exactly when each Save
finds the opened bucket stored and the new content free. `save_replaces`: on a store that the
app's own operations built, a Save of that kind loses nothing, because no such bucket carries
anything the form does not; and saving what is shown again changes nothing.

The opened content is asked to be plain in either, because it is looked up by a predicate. What is
typed need not be, except where the bucket is opened once more under its new content. The first
result does not assume that the opened bucket is still there: `NoCollision` is a condition on the
state before each Save, so that a session in which it was deleted is covered as well.
-/

namespace KBucket

open Lib

namespace WriteDetailView

variable {v v' : WriteDetailView}

/-! ## What an action changes -/

/-- What the user does to the form before pressing a button that leaves it. -/
def Event.isEdit : Event → Bool
  | .btSave | .btDel | .onBackPressed => false
  | _ => true

/-- What one action does: a Save or a Delete works on the store and leaves, and an edit stays with
    the form. -/
inductive Change (v : WriteDetailView) (event : Event) (v' : WriteDetailView) : Prop
  | saved (realm : Realm) : event = .btSave →
      SQLQuery.updateMemoContent v.device.realm v.newBucket v.mContents = .ok realm →
      v' = { v with device := { v.device with realm } }.back v.BACK → Change v event v'
  | deleted (result : Bool) (realm : Realm) : event = .btDel →
      SQLQuery.deleteUserBucket v.device.realm v.mContents = .ok (result, realm) →
      v' = { v with device := { v.device with realm } }.back v.BACK → Change v event v'
  | left : event = .onBackPressed → v' = v.back v.BACK → Change v event v'
  | edited : event.isEdit = true → v'.device = v.device → v'.mContents = v.mContents →
      v'.etContent = v.etContent ∨ event = .etContent v'.etContent → Change v event v'

theorem step_change {event : Event} (h : v.step event = .ok v') : Change v event v' := by
  cases event with
  | btSave =>
    obtain ⟨w, hup, hback⟩ := bind_eq_ok.mp h
    obtain ⟨realm, hrealm, rfl⟩ := updateDBDate_eq_ok.mp hup
    cases hback
    exact .saved realm rfl hrealm rfl
  | btDel =>
    obtain ⟨w, hrem, hback⟩ := bind_eq_ok.mp h
    obtain ⟨r, hdel, hw⟩ := bind_eq_ok.mp hrem
    cases hw
    cases hback
    exact .deleted r.1 r.2 rfl hdel rfl
  | onBackPressed => cases h; exact .left rfl rfl
  | etContent text => cases h; exact .edited rfl rfl rfl (.inr rfl)
  | etDate text | etCompleteDate text | btCheckbox isOn | imagePicked name | btRemoveImage =>
    cases h; exact .edited rfl rfl rfl (.inl rfl)

@[simp] theorem back_device (v : WriteDetailView) (s : String) : (v.back s).device = v.device := by
  unfold back; split <;> rfl

@[simp] theorem back_mContents (v : WriteDetailView) (s : String) :
    (v.back s).mContents = v.mContents := by
  unfold back; split <;> rfl

@[simp] theorem back_etContent (v : WriteDetailView) (s : String) :
    (v.back s).etContent = v.etContent := by
  unfold back; split <;> rfl

theorem step_mContents {event : Event} (h : v.step event = .ok v') :
    v'.mContents = v.mContents := by
  cases step_change h with
  | saved _ _ _ hv => rw [hv, back_mContents]
  | deleted _ _ _ _ hv => rw [hv, back_mContents]
  | left _ hv => rw [hv, back_mContents]
  | edited _ _ hcontents _ => exact hcontents

/-- After an action the store holds old records, and at most one new one: the form's. -/
theorem mem_of_step {event : Event} (h : v.step event = .ok v') {b : Bucket}
    (hb : b ∈ v'.device.realm.rows) : b ∈ v.device.realm.rows ∨ b = v.newBucket := by
  cases step_change h with
  | saved _ _ hup hv => rw [hv, back_device] at hb; exact SQLQuery.mem_of_updateMemoContent hup hb
  | deleted _ _ _ hdel hv =>
    rw [hv, back_device] at hb
    exact .inl (SQLQuery.mem_of_deleteUserBucket hdel hb)
  | left _ hv => rw [hv, back_device] at hb; exact .inl hb
  | edited _ hdevice _ _ => rw [hdevice] at hb; exact .inl hb

/-- The content field holds what it held, or what was typed. -/
theorem step_etContent {event : Event} (h : v.step event = .ok v') :
    v'.etContent = v.etContent ∨ event = .etContent v'.etContent := by
  cases step_change h with
  | saved _ _ _ hv => rw [hv, back_etContent]; exact .inl rfl
  | deleted _ _ _ _ hv => rw [hv, back_etContent]; exact .inl rfl
  | left _ hv => rw [hv, back_etContent]; exact .inl rfl
  | edited _ _ _ hcontent => exact hcontent

/-! ## Save -/

/-- Save on a content that can be quoted: the opened bucket is erased, and the record of the
    form is added. -/
theorem step_btSave (hc : Predicate.Plain v.mContents) :
    v.step .btSave = (Realm.add (v.device.realm.erase v.mContents) v.newBucket).map
      fun realm => { v with device := { v.device with realm } }.back v.BACK := by
  have hup := SQLQuery.updateMemoContent_plain v.device.realm v.newBucket hc
  show (v.updateDBDate >>= fun w => Except.ok (w.back v.BACK)) = _
  unfold updateDBDate
  rw [hup]
  cases Realm.add (v.device.realm.erase v.mContents) v.newBucket <;> rfl

/-- The new content is the opened one, or nobody's. -/
def Free (v : WriteDetailView) : Prop :=
  v.etContent = v.mContents ∨ v.etContent ∉ v.device.realm.keys

theorem free_iff : v.Free ↔ v.newBucket.mContent ∉ (v.device.realm.erase v.mContents).keys := by
  have hnew : v.newBucket.mContent = v.etContent := rfl
  rw [hnew, Table.mem_keys_erase, not_and_not_right, Free]
  by_cases h : v.etContent ∈ v.device.realm.keys <;> simp [h]

theorem step_btSave_of_free (hc : Predicate.Plain v.mContents) (hfree : v.Free) :
    ∃ v', v.step .btSave = .ok v' ∧
      v'.device.realm.rows = (v.device.realm.erase v.mContents).rows ++ [v.newBucket] := by
  obtain ⟨realm, hadd, hrows⟩ := Realm.add_of_notMem (free_iff.mp hfree)
  rw [step_btSave hc, hadd]
  exact ⟨_, rfl, by rw [back_device]; exact hrows⟩

theorem step_btSave_of_not_free (hc : Predicate.Plain v.mContents) (hfree : ¬ v.Free) :
    v.step .btSave = .error .primaryKeyExists := by
  have hmem : v.newBucket.mContent ∈ (v.device.realm.erase v.mContents).keys :=
    not_not.mp (mt free_iff.mpr hfree)
  rw [step_btSave hc, Realm.add_eq_error.mpr ⟨hmem, rfl⟩]
  rfl

/-! ## Sessions of edits, Saves and Deletes -/

/-- The opened bucket is replaced by the edited one. -/
def Replaced (v v' : WriteDetailView) : Prop :=
  v.mContents ∈ v.device.realm.keys ∧
    v'.device.realm.rows.Perm (v.newBucket :: (v.device.realm.erase v.mContents).rows)

/-- A Save does not raise, and replaces the opened bucket or leaves the store as it was. -/
def SaveKeeps (v : WriteDetailView) (event : Event) (outcome : Except Trap WriteDetailView) :
    Prop :=
  event = .btSave → ∃ v', outcome = .ok v' ∧
    (Replaced v v' ∨ v'.device.realm.Same v.device.realm)

/-- A Save finds the opened bucket in the store, and the new content is free. -/
def NoCollision (v : WriteDetailView) (event : Event) : Prop :=
  event = .btSave → v.mContents ∈ v.device.realm.keys ∧ v.Free

theorem saveKeeps_iff (hc : Predicate.Plain v.mContents) (event : Event) :
    SaveKeeps v event (v.step event) ↔ NoCollision v event := by
  refine forall_congr' fun hsave => ?_
  subst hsave
  by_cases hfree : v.Free
  · obtain ⟨v', hstep, hrows⟩ := step_btSave_of_free hc hfree
    have hperm : v'.device.realm.rows.Perm
        (v.newBucket :: (v.device.realm.erase v.mContents).rows) := by
      rw [hrows]
      exact List.perm_append_singleton _ _
    simp only [hstep, hfree, and_true]
    constructor
    · intro h
      rcases h with ⟨w, hw, hrep | hsame⟩
      · exact hrep.1
      · -- Without the opened bucket a Save makes the store longer.
        cases hw
        by_contra hmem
        have hlen := List.Perm.length_eq hsame
        rw [hrows, Table.erase_of_notMem hmem] at hlen
        simp at hlen
    · intro hmem
      exact ⟨v', rfl, .inl ⟨hmem, hperm⟩⟩
  · simp only [step_btSave_of_not_free hc hfree, hfree, and_false, iff_false]
    intro h
    obtain ⟨w, hw, -⟩ := h
    cases hw

/-! ## Opening -/

theorem foldl_showBucket_mContents (today : String) (bucketList : List Bucket)
    (v : WriteDetailView) : (bucketList.foldl (showBucket today) v).mContents = v.mContents := by
  induction bucketList generalizing v with
  | nil => rfl
  | cons b bs ih => exact ih (showBucket today v b)

/-- A detail screen remembers the content it was opened on. -/
theorem mContents_of_viewDidLoad {today CONTENTS BACK : String} {device : Device}
    (h : viewDidLoad today device CONTENTS BACK = .ok v) : v.mContents = CONTENTS := by
  obtain ⟨bucketList, -, hfold⟩ := bind_eq_ok.mp h
  cases hfold
  exact foldl_showBucket_mContents today bucketList _

theorem foldl_showBucket_etContent (today : String) (bucketList : List Bucket)
    (v : WriteDetailView) : (bucketList.foldl (showBucket today) v).etContent = v.etContent ∨
      ∃ b ∈ bucketList, (bucketList.foldl (showBucket today) v).etContent = b.mContent := by
  induction bucketList generalizing v with
  | nil => exact .inl rfl
  | cons b bs ih =>
    rcases ih (showBucket today v b) with h | ⟨b', hb', h⟩
    · exact .inr ⟨b, by simp, h⟩
    · exact .inr ⟨b', List.mem_cons_of_mem _ hb', h⟩

theorem foldl_showBucket_device (today : String) (bucketList : List Bucket)
    (v : WriteDetailView) : (bucketList.foldl (showBucket today) v).device = v.device := by
  induction bucketList generalizing v with
  | nil => rfl
  | cons b bs ih => exact ih (showBucket today v b)

/-- Opening reads the store and leaves it alone; the content it shows, if any, is stored. -/
theorem viewDidLoad_shows {today CONTENTS BACK : String} {device : Device}
    (h : viewDidLoad today device CONTENTS BACK = .ok v) :
    v.device = device ∧ (v.etContent = "" ∨ v.etContent ∈ device.realm.keys) := by
  obtain ⟨bucketList, hsel, hfold⟩ := bind_eq_ok.mp h
  cases hfold
  refine ⟨foldl_showBucket_device today bucketList _, ?_⟩
  rcases foldl_showBucket_etContent today bucketList
      { device, CONTENTS, BACK, mContents := CONTENTS } with h | ⟨b, hb, h⟩
  · exact .inl h
  · exact .inr (h ▸ Table.key_mem (Realm.mem_of_filter hsel hb))

/-- On a bucket of the store the form shows that bucket. -/
theorem viewDidLoad_of_mem {today BACK : String} {device : Device} {b : Bucket}
    (hb : b ∈ device.realm.rows) (hc : Predicate.Plain b.mContent) :
    viewDidLoad today device b.mContent BACK
      = .ok (showBucket today { device, CONTENTS := b.mContent, BACK, mContents := b.mContent } b)
    := by
  have hsel : SQLQuery.selectKbucketContents device.realm b.mContent = .ok [b] := by
    rw [SQLQuery.selectKbucketContents_plain hc, Table.filter_key_of_mem hb]
  unfold viewDidLoad setData
  simp only [hsel]
  rfl

/-- **A session on the detail screen keeps the store safe exactly when every Save of it finds the
    opened bucket stored and the new content free.**

    `hc` says that the bucket was opened on a content that can be quoted; what is typed into the
    form needs no such condition, since only the opened content is looked up. -/
theorem edits_safe_iff {today c BACK : String} {device : Device} (hc : Predicate.Plain c)
    (hopen : viewDidLoad today device c BACK = .ok v) (events : List Event) :
    EachStep step SaveKeeps v events ↔ Guarded step NoCollision v events := by
  have hv : Predicate.Plain v.mContents := by rw [mContents_of_viewDidLoad hopen]; exact hc
  refine @EachStep.congr _ _ _ step _ _ (fun w => Predicate.Plain w.mContents) ?_ ?_ _ hv events
  · intro w event w' hw _ hstep
    rw [step_mContents hstep]
    exact hw
  · intro w event hw
    exact saveKeeps_iff hw event

/-- The store of two buckets that are added by name. -/
def twoBuckets : Realm where
  rows := [SQLQuery.insertedBucket "Paris" "", SQLQuery.insertedBucket "Rome" ""]
  nodup := by decide

def twoBucketDevice : Device where
  realm := twoBuckets
  defaults := fun _ => none

theorem reachable_twoBuckets : Reachable twoBucketDevice.realm :=
  have hparis : Reachable (Table.singleton (SQLQuery.insertedBucket "Paris" "")) :=
    Reachable.empty.added (by decide) rfl
  hparis.added (by decide) rfl

/-- The detail screen on the first of them. -/
def parisOpened : WriteDetailView where
  device := twoBucketDevice
  CONTENTS := "Paris"
  BACK := ContextUtils.VIEW_WRITE
  mContents := "Paris"
  btCheckbox := false
  etContent := "Paris"
  etDate := "24-05-01"
  etCompleteDate := "24-05-01"

theorem paris_mem : SQLQuery.insertedBucket "Paris" "" ∈ twoBucketDevice.realm.rows := by
  simp [twoBucketDevice, twoBuckets]

theorem viewDidLoad_paris :
    viewDidLoad "24-05-01" twoBucketDevice "Paris" ContextUtils.VIEW_WRITE = .ok parisOpened := by
  have hload := @viewDidLoad_of_mem "24-05-01" ContextUtils.VIEW_WRITE _ _ paris_mem (by decide)
  rw [show "Paris" = (SQLQuery.insertedBucket "Paris" "").mContent from rfl, hload]
  rfl

theorem edits_safe_rename :
    EachStep step SaveKeeps parisOpened [.etContent "Lyon", .btSave] := by
  refine (edits_safe_iff (by decide) viewDidLoad_paris _).mpr ?_
  refine ⟨fun h => (by cases h), fun v hv => ⟨fun _ => ?_, fun _ _ => trivial⟩⟩
  cases hv
  exact ⟨by decide, .inr (by decide)⟩

/-- Renaming a bucket to the content of another one raises on Save. -/
theorem colliding_save_raises :
    ¬ ∀ (device : Device) (c today BACK : String) (v : WriteDetailView) (events : List Event),
      Reachable device.realm → c ∈ device.realm.keys → Predicate.Plain c →
      (∀ text, .etContent text ∈ events → Predicate.Plain text) →
      viewDidLoad today device c BACK = .ok v → EachStep step SaveKeeps v events := by
  intro h
  have hplain : ∀ text, Event.etContent text ∈ [.etContent "Rome", .btSave] →
      Predicate.Plain text := by
    intro text htext
    simp only [List.mem_cons, Event.etContent.injEq, reduceCtorEq, List.not_mem_nil, or_false]
      at htext
    subst htext
    decide
  have hrun := h _ "Paris" "24-05-01" ContextUtils.VIEW_WRITE parisOpened
    [.etContent "Rome", .btSave] reachable_twoBuckets (by decide) (by decide) hplain
    viewDidLoad_paris
  obtain ⟨v, hv, -⟩ := (hrun.2 _ rfl).1 rfl
  have hraise : ({ parisOpened with etContent := "Rome" } : WriteDetailView).step .btSave
      = .error .primaryKeyExists :=
    step_btSave_of_not_free (by decide) (by unfold Free; decide)
  rw [hraise] at hv
  cases hv

/-! ## A Save loses nothing -/

/-- The bucket with the form's fields written over it. -/
def edited (b : Bucket) (v : WriteDetailView) : Bucket :=
  { b with
    mContent := v.etContent
    mCompleteYN := if v.btCheckbox then "Y" else "N"
    mImageURl := v.mPhotoPath
    mDate := v.etDate
    mCompleteDate := v.etCompleteDate }

theorem ifNotEmpty_eq (s : String) : (if s.length > 0 then s else "") = s := by
  split
  · rfl
  · next h => exact (String.length_eq_zero_iff.mp (by omega)).symm

/-- The fresh object of Save is the opened bucket with the form written over it, as long as the
    bucket has nothing else. -/
theorem newBucket_eq_edited {b : Bucket} (hb : FormOnly b) (v : WriteDetailView) :
    v.newBucket = edited b v := by
  obtain ⟨hcategory, hidx, hnick, hphone⟩ := hb
  simp only [newBucket, edited, ifNotEmpty_eq, hcategory, hidx, hnick, hphone]

/-- Edits touch neither the store nor what the screen was opened on. -/
theorem edits_keep {v₀ : WriteDetailView} {edits : List Event}
    (hedits : ∀ e ∈ edits, e.isEdit = true) (hrun : Runs step v₀ edits v) :
    v.device = v₀.device ∧ v.mContents = v₀.mContents := by
  have hguard : Guarded step (fun _ e => e.isEdit = true) v₀ edits :=
    Guarded.of_forall fun e he _ => hedits e he
  refine Runs.invariant (I := fun w => w.device = v₀.device ∧ w.mContents = v₀.mContents)
    ?_ hrun ⟨rfl, rfl⟩ hguard
  intro w e w' hw he hstep
  cases step_change hstep with
  | saved _ hevent _ _ => rw [hevent] at he; cases he
  | deleted _ _ hevent _ _ => rw [hevent] at he; cases he
  | left hevent _ => rw [hevent] at he; cases he
  | edited _ hdevice hcontents _ => exact ⟨hdevice.trans hw.1, hcontents.trans hw.2⟩

/-- A record that Save wrote with both dates is what Save writes when it is opened again,
    whatever the day. -/
theorem newBucket_showBucket {b : Bucket} (hb : FormOnly b)
    (hcomplete : b.mCompleteYN = "Y" ∨ b.mCompleteYN = "N") (hdate : b.mDate ≠ "")
    (hcompleteDate : b.mCompleteDate ≠ "") (later BACK : String) (device : Device) :
    (showBucket later { device, CONTENTS := b.mContent, BACK, mContents := b.mContent } b).newBucket
      = b := by
  have pos : ∀ {s : String}, s ≠ "" → s.length > 0 := fun h =>
    Nat.pos_of_ne_zero (mt String.length_eq_zero_iff.mp h)
  rw [newBucket_eq_edited hb]
  have hyn : (if (b.mCompleteYN == "Y") = true then "Y" else "N") = b.mCompleteYN := by
    rcases hcomplete with h | h <;> rw [h] <;> rfl
  simp only [edited, showBucket, if_pos (pos hdate), if_pos (pos hcompleteDate), ifNotEmpty_eq, hyn]

/-- Saving what is stored changes nothing. -/
theorem resave {device : Device} {b : Bucket} (hb : b ∈ device.realm.rows)
    (hc : Predicate.Plain b.mContent) (hform : FormOnly b)
    (hcomplete : b.mCompleteYN = "Y" ∨ b.mCompleteYN = "N") (hdate : b.mDate ≠ "")
    (hcompleteDate : b.mCompleteDate ≠ "") (later BACK : String) :
    ∃ w w', viewDidLoad later device b.mContent BACK = .ok w ∧ w.step .btSave = .ok w' ∧
      w'.device.realm.Same device.realm := by
  have hnew := newBucket_showBucket hform hcomplete hdate hcompleteDate later BACK device
  obtain ⟨w', hsave, hrows⟩ := step_btSave_of_free
    (v := showBucket later { device, CONTENTS := b.mContent, BACK, mContents := b.mContent } b)
    hc (.inl rfl)
  refine ⟨_, w', viewDidLoad_of_mem hb hc, hsave, ?_⟩
  rw [hnew] at hrows
  have hperm : w'.device.realm.rows.Perm (b :: (device.realm.erase b.mContent).rows) := by
    rw [hrows]
    exact List.perm_append_singleton _ _
  exact hperm.trans (Table.perm_cons_erase hb).symm

/-- **A Save that collides with nothing replaces the opened bucket and loses nothing**, and
    opening the saved bucket and saving it again, on whatever day, changes nothing.

    `hreach` excludes stores that the app did not make, whose buckets may carry what no form shows.
    `hdate` and `hcompleteDate` are there because a form that is opened fills an empty date with
    the day. `hnew` is for opening the bucket again, and `hfree` for not colliding. -/
theorem save_replaces {device : Device} {b : Bucket} {today BACK : String} {v₀ v : WriteDetailView}
    {edits : List Event} (hreach : Reachable device.realm) (hb : b ∈ device.realm.rows)
    (hc : Predicate.Plain b.mContent) (hopen : viewDidLoad today device b.mContent BACK = .ok v₀)
    (hedits : ∀ e ∈ edits, e.isEdit = true) (hrun : Runs step v₀ edits v)
    (hdate : v.etDate ≠ "") (hcompleteDate : v.etCompleteDate ≠ "")
    (hnew : Predicate.Plain v.etContent)
    (hfree : v.etContent = b.mContent ∨ v.etContent ∉ device.realm.keys) :
    ∃ v', v.step .btSave = .ok v' ∧
      v'.device.realm.rows.Perm (edited b v :: (device.realm.erase b.mContent).rows) ∧
      ∀ later BACK', ∃ w w', viewDidLoad later v'.device v.etContent BACK' = .ok w ∧
        w.step .btSave = .ok w' ∧ w'.device.realm.Same v'.device.realm := by
  obtain ⟨hdevice, hcontents⟩ := edits_keep hedits hrun
  rw [mContents_of_viewDidLoad hopen] at hcontents
  have hdev : v.device = device := by
    rw [hdevice]
    rw [viewDidLoad_of_mem hb hc] at hopen
    cases hopen
    rfl
  have hform := hreach.formOnly b hb
  obtain ⟨v', hsave, hrows⟩ := step_btSave_of_free (v := v) (by rw [hcontents]; exact hc)
    (by rw [Free, hcontents, hdev]; exact hfree)
  rw [newBucket_eq_edited hform, hcontents, hdev] at hrows
  have hmem : edited b v ∈ v'.device.realm.rows := by rw [hrows]; simp
  refine ⟨v', hsave, ?_, fun later BACK' => ?_⟩
  · rw [hrows]
    exact List.perm_append_singleton _ _
  · have hyn : (edited b v).mCompleteYN = "Y" ∨ (edited b v).mCompleteYN = "N" := by
      cases hbox : v.btCheckbox <;> simp [edited, hbox]
    exact resave hmem hnew ⟨hform.1, hform.2, hform.3, hform.4⟩ hyn hdate hcompleteDate later BACK'

def lyonTyped : WriteDetailView := { parisOpened with etContent := "Lyon" }

theorem save_replaces_paris :
    ∃ v', lyonTyped.step .btSave = .ok v' ∧
      v'.device.realm.rows.Perm (edited (SQLQuery.insertedBucket "Paris" "") lyonTyped
        :: (twoBucketDevice.realm.erase "Paris").rows) ∧
      ∀ later BACK', ∃ w w', viewDidLoad later v'.device "Lyon" BACK' = .ok w ∧
        w.step .btSave = .ok w' ∧ w'.device.realm.Same v'.device.realm := by
  have hedits : ∀ e ∈ [Event.etContent "Lyon"], e.isEdit = true := by decide
  have hrun : Runs step parisOpened [.etContent "Lyon"] lyonTyped := .single rfl
  exact save_replaces reachable_twoBuckets paris_mem (by decide) viewDidLoad_paris hedits hrun
    (by decide) (by decide) (by decide) (.inr (by decide))

end WriteDetailView
end KBucket
