import KBucket.Proof.WriteList
import KBucket.View.BucketListView

/-!
# The to-do list and the list of achieved buckets

The two screens read the same store through conditions of their own. `BucketListView` shows the
buckets that are marked achieved. `WriteView` leaves those out, except one without a content. So
the two lists share the store between them unless it has an achieved bucket whose content is
empty, and such a bucket comes from the form of the detail screen and from nowhere else.

For the store at hand the condition is exact. Over runs it is one direction only: a run may make
such a bucket and delete it again, and the store at its end is partitioned all the same. Nothing is
said of the order in which the two screens list their shares.
-/

namespace KBucket

open Lib

/-! ## The operations -/

/-- What the app does to its store. -/
inductive StoreEvent where
  | add (contents date completeYN completedDate : String)
  | save (form : WriteDetailView)
  | delete (contents : String)
  | reset

namespace StoreEvent

/-- The operation on the store; a form is saved to the store as it is by then. -/
def step (realm : Realm) : StoreEvent → Except Trap Realm
  | .add contents date completeYN completedDate => do
    let (_result, realm) ← SQLQuery.insertUserSetting realm contents date completeYN completedDate
    return realm
  | .save form => do
    let form ← { form with device := { form.device with realm } }.updateDBDate
    return form.device.realm
  | .delete contents => do
    let (_result, realm) ← SQLQuery.deleteUserBucket realm contents
    return realm
  | .reset => .ok (SQLQuery.DeleteBucketContents realm)

/-- A form that is saved with the switch on has a content. -/
def KeepsContent : StoreEvent → Prop
  | .save form => form.btCheckbox = true → form.etContent ≠ ""
  | _ => True

end StoreEvent

/-! ## The two lists -/

variable {nfc : String → String} {device : Device}

/-- The contents on the to-do screen. -/
def todo (nfc : String → String) (device : Device) : List String :=
  (WriteView.viewDidLoad nfc device).mDataList

/-- The contents on the screen of achieved buckets. -/
def achieved (device : Device) : List String :=
  (BucketListView.viewDidLoad device).mDataList.map PostData.m_contents

/-- Every stored content is in exactly one of the lists, once, and nothing else is in either. -/
structure Partitions (nfc : String → String) (device : Device) : Prop where
  exactly_one : ∀ b ∈ device.realm.rows,
    (b.mContent ∈ todo nfc device ↔ b.mContent ∉ achieved device)
  nodup_todo : (todo nfc device).Nodup
  nodup_achieved : (achieved device).Nodup
  stored : ∀ t, t ∈ todo nfc device ∨ t ∈ achieved device → t ∈ device.realm.keys

theorem achieved_eq (device : Device) :
    achieved device
      = (device.realm.rows.filter fun b => b.mCompleteYN == "Y").map Bucket.mContent := by
  unfold achieved BucketListView.viewDidLoad BucketListView.setListData
  simp only [foldl_unless, List.nil_append, List.map_map, ne_eq, decide_not, Bool.not_not]
  rfl

theorem mem_achieved {t : String} :
    t ∈ achieved device ↔ ∃ b ∈ device.realm.rows, b.mCompleteYN = "Y" ∧ b.mContent = t := by
  simp only [achieved_eq, List.mem_map, List.mem_filter, beq_iff_eq, and_assoc]

theorem mem_todo {t : String} :
    t ∈ todo nfc device ↔
      ∃ b ∈ device.realm.rows, WriteView.Admitted b ∧ b.mContent = t := by
  have hsync := WriteView.synced_viewDidLoad nfc device
  rw [todo, hsync.mem_iff, WriteView.viewDidLoad_device]

/-- On a stored content a list decides by the bucket that has it. -/
theorem exists_row_iff {realm : Realm} {P : Bucket → Prop} {b : Bucket} (hb : b ∈ realm.rows) :
    (∃ c ∈ realm.rows, P c ∧ c.mContent = b.mContent) ↔ P b := by
  constructor
  · intro h
    obtain ⟨c, hc, hp, heq⟩ := h
    rw [← realm.eq_of_key_eq hc hb heq]
    exact hp
  · intro h
    exact ⟨b, hb, h, rfl⟩

/-- An achieved bucket without a content, the one kind that both conditions let through. -/
def Unnamed (b : Bucket) : Prop := b.mContent = "" ∧ b.mCompleteYN = "Y"

theorem admitted_iff_not_achieved {b : Bucket} :
    (WriteView.Admitted b ↔ ¬ b.mCompleteYN = "Y") ↔ ¬ Unnamed b := by
  unfold WriteView.Admitted Unnamed
  tauto

theorem partitions_iff (nfc : String → String) (device : Device) :
    Partitions nfc device ↔ ∀ b ∈ device.realm.rows, ¬ Unnamed b := by
  have hone : ∀ b ∈ device.realm.rows,
      ((b.mContent ∈ todo nfc device ↔ b.mContent ∉ achieved device) ↔ ¬ Unnamed b) := by
    intro b hb
    rw [mem_todo, mem_achieved, exists_row_iff hb, exists_row_iff hb]
    exact admitted_iff_not_achieved
  constructor
  · intro h b hb
    exact (hone b hb).mp (h.exactly_one b hb)
  · intro h
    refine ⟨fun b hb => (hone b hb).mpr (h b hb), ?_, ?_, ?_⟩
    · exact (WriteView.synced_viewDidLoad nfc device).nodup
    · rw [achieved_eq]
      exact device.realm.nodup.sublist (List.filter_sublist.map _)
    · intro t ht
      rcases ht with ht | ht
      · obtain ⟨b, hb, -, rfl⟩ := mem_todo.mp ht
        exact Table.key_mem hb
      · obtain ⟨b, hb, -, rfl⟩ := mem_achieved.mp ht
        exact Table.key_mem hb

/-! ## Where an unnamed bucket comes from -/

namespace StoreEvent

theorem unnamed_newBucket {form : WriteDetailView} :
    Unnamed form.newBucket ↔ form.etContent = "" ∧ form.btCheckbox = true := by
  have hyn : form.newBucket.mCompleteYN = "Y" ↔ form.btCheckbox = true := by
    cases h : form.btCheckbox <;> simp [WriteDetailView.newBucket, h]
  exact and_congr_right fun _ => hyn

/-- A step that keeps the content stores no unnamed bucket. -/
theorem step_named {realm realm' : Realm} {e : StoreEvent}
    (hs : ∀ b ∈ realm.rows, ¬ Unnamed b) (he : e.KeepsContent) (h : step realm e = .ok realm') :
    ∀ b ∈ realm'.rows, ¬ Unnamed b := by
  intro b hb
  cases e with
  | add contents date completeYN completedDate =>
    obtain ⟨⟨result, realm₁⟩, hins, hret⟩ := bind_eq_ok.mp h
    cases hret
    obtain ⟨-, -, hrows⟩ := SQLQuery.insertUserSetting_eq_ok.mp hins
    rw [hrows, List.mem_append, List.mem_singleton] at hb
    rcases hb with hb | rfl
    · exact hs b hb
    · simp [Unnamed, SQLQuery.insertedBucket]
  | save form =>
    obtain ⟨form', hsave, hret⟩ := bind_eq_ok.mp h
    cases hret
    obtain ⟨realm₁, hup, rfl⟩ := WriteDetailView.updateDBDate_eq_ok.mp hsave
    rcases SQLQuery.mem_of_updateMemoContent hup hb with hb | rfl
    · exact hs b hb
    · rw [unnamed_newBucket]
      exact fun hform => he hform.2 hform.1
  | delete contents =>
    obtain ⟨⟨result, realm₁⟩, hdel, hret⟩ := bind_eq_ok.mp h
    cases hret
    exact hs b (SQLQuery.mem_of_deleteUserBucket hdel hb)
  | reset =>
    cases h
    rw [SQLQuery.DeleteBucketContents_eq] at hb
    cases hb

/-- **The lists partition every store without an unnamed bucket, and no other; a run leads to such
    stores only, as long as no form is saved as achieved without a content.**

    The second part is one direction only over runs, as a run may save such a bucket and delete it
    again; for the store at hand the first part is exact. -/
theorem partitions_of_runs {events : List StoreEvent} {realm : Realm}
    (hrun : Runs step Table.empty events realm) (nfc : String → String)
    (defaults : UserDefaults) :
    (Partitions nfc { realm, defaults } ↔ ∀ b ∈ realm.rows, ¬ Unnamed b) ∧
    ((∀ e ∈ events, e.KeepsContent) → Partitions nfc { realm, defaults }) := by
  refine ⟨partitions_iff nfc _, fun hevents => ?_⟩
  rw [partitions_iff]
  have hguard : Guarded step (fun _ e => e.KeepsContent) Table.empty events :=
    Guarded.of_forall fun e he _ => hevents e he
  refine Runs.invariant (I := fun realm => ∀ b ∈ realm.rows, ¬ Unnamed b) ?_ hrun ?_ hguard
  · intro realm e realm' hs he hstep
    exact step_named hs he hstep
  · intro b hb
    cases hb

/-- The detail screen opened on "Paris", with the switch on and `content` in the field. -/
def achievedForm (content : String) : WriteDetailView where
  device := { realm := Table.empty, defaults := fun _ => none }
  CONTENTS := "Paris"
  BACK := ContextUtils.VIEW_WRITE
  mContents := "Paris"
  btCheckbox := true
  etContent := content

theorem partitions_of_runs_renamed :
    ∃ realm, Runs step Table.empty
        [.add "Paris" "" "N" "", .save (achievedForm "Rome"), .add "Paris" "" "N" ""] realm ∧
      Partitions id { realm, defaults := fun _ => none } := by
  have hrun : Runs step Table.empty
      [.add "Paris" "" "N" "", .save (achievedForm "Rome"), .add "Paris" "" "N" ""] _ :=
    .cons rfl (.cons rfl (.single rfl))
  refine ⟨_, hrun, (partitions_of_runs hrun id _).2 fun e he => ?_⟩
  simp only [List.mem_cons, List.not_mem_nil, or_false] at he
  rcases he with rfl | rfl | rfl
  · trivial
  · intro _
    decide
  · trivial

/-- A bucket that is achieved while its content is erased is in both lists. -/
theorem unnamed_in_both_lists :
    (¬ ∀ (events : List StoreEvent) (realm : Realm), Runs step Table.empty events realm →
      ∀ (nfc : String → String) (defaults : UserDefaults),
        Partitions nfc { realm, defaults }) ∧
    ∃ realm, Runs step Table.empty [.add "Paris" "" "N" "", .save (achievedForm "")] realm ∧
      todo id { realm, defaults := fun _ => none } = [""] ∧
      achieved { realm, defaults := fun _ => none } = [""] := by
  have hrun : Runs step Table.empty [.add "Paris" "" "N" "", .save (achievedForm "")] _ :=
    .cons rfl (.single rfl)
  refine ⟨fun h => ?_, _, hrun, rfl, rfl⟩
  refine (partitions_iff id _).mp (h _ _ hrun id fun _ => none) _ (List.mem_singleton_self _) ?_
  exact ⟨rfl, rfl⟩

end StoreEvent
end KBucket
