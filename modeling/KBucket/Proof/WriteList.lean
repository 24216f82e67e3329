import KBucket.Lib.Run
import KBucket.Proof.Store
import KBucket.View.WriteView

/-!
# The to-do list and the store

The screen changes its list and the store by separate statements. Each handler is described once,
by what it does to both (`Change`); that the list shows the store (`Synced`) is then kept by
every kind of change, and so by every run.

The trap of a row number that is no number is in the model, and not in `list_synchronised`: a run
has come to an end there. A number out of range is, and changes nothing. Which of several equal
rows is deleted is no question, as no text is there twice.
-/

namespace KBucket

/-- A loop that skips some of the items and appends what it makes of the others. -/
theorem foldl_unless {α β : Type} (skip : α → Prop) [DecidablePred skip] (f : α → β)
    (items : List α) (list : List β) :
    items.foldl (fun list item => if skip item then list else list ++ [f item]) list
      = list ++ (items.filter fun item => !decide (skip item)).map f := by
  induction items generalizing list with
  | nil => simp
  | cons item items ih =>
    rw [List.foldl_cons, ih]
    by_cases hskip : skip item <;> simp [hskip]

namespace WriteView

open Lib

variable {nfc : String → String} {v v' : WriteView}

/-! ## Loading and sorting -/

theorem sortBy_perm (lt : String → String → Bool) (list : List String) :
    (sortBy lt list).Perm list :=
  List.perm_insertionSort _ list

/-- Sorting reorders the list and touches nothing else. -/
theorem sort_eq (nfc : String → String) (v : WriteView) :
    ∃ list, sort nfc v = { v with mDataList := list } ∧ list.Perm v.mDataList := by
  unfold sort
  simp only
  split
  · exact ⟨v.mDataList, rfl, List.Perm.refl _⟩
  · split
    · exact ⟨_, rfl, sortBy_perm _ _⟩
    · split <;> exact ⟨_, rfl, sortBy_perm _ _⟩

/-- The screen after loading: the contents of the buckets that are not skipped, in some order. -/
theorem viewDidLoad_eq (nfc : String → String) (device : Device) :
    ∃ list, viewDidLoad nfc device = { device, mDataList := list } ∧
      list.Perm ((device.realm.rows.filter fun b => !skipped b).map Bucket.mContent) := by
  unfold viewDidLoad
  simp only [foldl_unless, Bool.decide_eq_true, List.nil_append]
  obtain ⟨list, heq, hperm⟩ := sort_eq nfc { device, mDataList :=
    ((SQLQuery.selectKbucket device.realm).filter fun b => !skipped b).map Bucket.mContent }
  exact ⟨list, heq, hperm⟩

theorem viewDidLoad_device (nfc : String → String) (device : Device) :
    (viewDidLoad nfc device).device = device := by
  obtain ⟨list, heq, -⟩ := viewDidLoad_eq nfc device
  rw [heq]

/-! ## What each handler changes -/

theorem onClick_btAdd_duplicate (h : checkduplicateData nfc v v.etEdit = true) :
    onClick nfc v .btAdd
      = .ok { v with toasts := v.toasts ++ ["중복된 내용이 있습니다"], etEdit := "" } := by
  unfold onClick
  simp only [h]
  rfl

theorem onClick_btAdd_new (h : checkduplicateData nfc v v.etEdit = false)
    (hk : v.etEdit ∉ v.device.realm.keys) :
    ∃ realm, onClick nfc v .btAdd = .ok { v with
        mDataList := v.mDataList ++ [v.etEdit]
        device := { v.device with realm }
        etEdit := "" } ∧
      realm.rows = v.device.realm.rows ++ [SQLQuery.insertedBucket v.etEdit ""] := by
  obtain ⟨realm, hins, hrows⟩ := SQLQuery.insertUserSetting_of_notMem hk "" "N" ""
  refine ⟨realm, ?_, hrows⟩
  unfold onClick
  simp only [h, hins]
  rfl

/-- A content that the list does not show and the store has is the one that raises. -/
theorem onClick_btAdd_taken (h : checkduplicateData nfc v v.etEdit = false)
    (hk : v.etEdit ∈ v.device.realm.keys) :
    onClick nfc v .btAdd = .error .primaryKeyExists := by
  have hins := SQLQuery.insertUserSetting_of_mem hk "" "N" ""
  unfold onClick
  simp only [h, hins]
  rfl

theorem rowDelete_inRange [Platform] {data : String} {i : Int} (hi : intOfString? data = some i)
    {row : String} (hrange : 0 ≤ i ∧ i < v.mDataList.length)
    (hrow : v.mDataList[i.toNat]? = some row) (hc : Predicate.Plain row) :
    receiveEventFromViewItem v 1 data = .ok { v with
      mDataList := v.mDataList.eraseIdx i.toNat
      device := { v.device with realm := v.device.realm.erase row } } := by
  have hget : arrayGet v.mDataList i = .ok row := arrayGet_eq_ok.mpr ⟨hrange.1, hrow⟩
  have hrem : arrayRemove v.mDataList i = .ok (v.mDataList.eraseIdx i.toNat) := by
    rw [arrayRemove, if_pos (by omega)]
  have hdel : v.removeDBData row
      = .ok (true, { v with device := { v.device with realm := v.device.realm.erase row } }) := by
    rw [removeDBData, SQLQuery.deleteUserBucket_plain hc]
    rfl
  unfold receiveEventFromViewItem
  rw [if_neg (by decide), if_pos rfl, hi]
  show (if i ≥ 0 ∧ i < v.mDataList.length then _ else _) = _
  rw [if_pos hrange, hget]
  show (v.removeDBData row >>= _) = _
  rw [hdel]
  show (arrayRemove v.mDataList i >>= _) = _
  rw [hrem]
  rfl

theorem rowDelete_outOfRange [Platform] {data : String} {i : Int} (hi : intOfString? data = some i)
    (hrange : ¬ (0 ≤ i ∧ i < v.mDataList.length)) :
    receiveEventFromViewItem v 1 data = .ok v := by
  unfold receiveEventFromViewItem
  rw [if_neg (by decide), if_pos rfl, hi]
  show (if i ≥ 0 ∧ i < v.mDataList.length then _ else _) = _
  rw [if_neg hrange]
  rfl

theorem rowDelete_notInt [Platform] {data : String} (hi : intOfString? data = none) :
    receiveEventFromViewItem v 1 data = .error .unwrappedNil := by
  unfold receiveEventFromViewItem
  rw [if_neg (by decide), if_pos rfl, hi]
  rfl

/-- What one action does to the list and to the store. -/
inductive Change (v : WriteView) (event : Event) (v' : WriteView) : Prop
  | same : v'.device.realm = v.device.realm → v'.mDataList.Perm v.mDataList → Change v event v'
  | added (text : String) : event = .btAdd text → text ∉ v.device.realm.keys →
      v'.device.realm.rows = v.device.realm.rows ++ [SQLQuery.insertedBucket text ""] →
      v'.mDataList = v.mDataList ++ [text] → Change v event v'
  | deleted (i : Nat) (row : String) : v.mDataList[i]? = some row →
      v'.device.realm = v.device.realm.erase row →
      v'.mDataList = v.mDataList.eraseIdx i → Change v event v'

theorem change_sort (v : WriteView) (event : Event) (value : String) :
    Change v event (sort nfc (v.writeSortKey value)) := by
  obtain ⟨list, heq, hperm⟩ := sort_eq nfc (v.writeSortKey value)
  rw [heq]
  exact .same rfl hperm

theorem step_change [Platform] (hplain : ∀ t ∈ v.mDataList, Predicate.Plain t) {event : Event}
    (h : step nfc v event = .ok v') : Change v event v' := by
  cases event with
  | btAdd text =>
    have h' : onClick nfc { v with etEdit := text } .btAdd = .ok v' := h
    by_cases hdup : checkduplicateData nfc { v with etEdit := text } text = true
    · rw [onClick_btAdd_duplicate hdup] at h'
      cases h'
      exact .same rfl (List.Perm.refl _)
    · have hnew : checkduplicateData nfc { v with etEdit := text } text = false :=
        Bool.eq_false_iff.mpr hdup
      by_cases hk : text ∈ v.device.realm.keys
      · rw [onClick_btAdd_taken hnew hk] at h'
        cases h'
      · obtain ⟨realm, heq, hrows⟩ := onClick_btAdd_new (v := { v with etEdit := text }) hnew hk
        rw [heq] at h'
        cases h'
        exact .added text rfl hk hrows rfl
  | rowDelete data =>
    have h' : receiveEventFromViewItem v 1 data = .ok v' := h
    cases hi : intOfString? data with
    | none => rw [rowDelete_notInt hi] at h'; cases h'
    | some i =>
      by_cases hrange : 0 ≤ i ∧ i < v.mDataList.length
      · have hlt : i.toNat < v.mDataList.length := by omega
        have hrow := List.getElem?_eq_getElem hlt
        rw [rowDelete_inRange hi hrange hrow (hplain _ (List.getElem_mem hlt))] at h'
        cases h'
        exact .deleted i.toNat _ hrow rfl rfl
      · rw [rowDelete_outOfRange hi hrange] at h'
        cases h'
        exact .same rfl (List.Perm.refl _)
  | btSortLastest => cases h; exact change_sort v _ _
  | btSortName => cases h; exact change_sort v _ _
  | btSortDeadLine => cases h; exact change_sort v _ _

/-! ## The list shows the store -/

/-- What the loop of `viewDidLoad` lets through. -/
def Admitted (b : Bucket) : Prop := b.mContent = "" ∨ b.mCompleteYN ≠ "Y"

theorem skipped_eq_false {b : Bucket} : skipped b = false ↔ Admitted b := by
  have hlen : b.mContent.length > 0 ↔ b.mContent ≠ "" := by
    rw [gt_iff_lt, Nat.pos_iff_ne_zero, ne_eq, String.length_eq_zero_iff]
  unfold skipped Admitted
  simp only [Bool.and_eq_false_iff, decide_eq_false_iff_not, hlen, beq_eq_false_iff_ne, not_not]

/-- The list has no repetition, and shows the contents of the admitted buckets. -/
structure Synced (v : WriteView) : Prop where
  nodup : v.mDataList.Nodup
  mem_iff : ∀ t, t ∈ v.mDataList ↔ ∃ b ∈ v.device.realm.rows, Admitted b ∧ b.mContent = t

theorem Synced.mem_keys (h : Synced v) {t : String} (ht : t ∈ v.mDataList) :
    t ∈ v.device.realm.keys := by
  obtain ⟨b, hb, -, rfl⟩ := (h.mem_iff t).mp ht
  exact Table.key_mem hb

theorem synced_viewDidLoad (nfc : String → String) (device : Device) :
    Synced (viewDidLoad nfc device) := by
  obtain ⟨list, heq, hperm⟩ := viewDidLoad_eq nfc device
  rw [heq]
  constructor
  · refine hperm.nodup_iff.mpr ?_
    exact device.realm.nodup.sublist (List.filter_sublist.map _)
  · intro t
    rw [show t ∈ list ↔ _ from hperm.mem_iff]
    simp only [List.mem_map, List.mem_filter, Bool.not_eq_true', skipped_eq_false, and_assoc]

/-- Without repetitions, erasing a position is erasing its content. -/
theorem mem_eraseIdx {list : List String} (hnd : list.Nodup) {i : Nat} {row t : String}
    (hrow : list[i]? = some row) : t ∈ list.eraseIdx i ↔ t ∈ list ∧ t ≠ row := by
  obtain ⟨hi, rfl⟩ := List.getElem?_eq_some_iff.mp hrow
  rw [← hnd.erase_getElem i hi, hnd.mem_erase_iff, and_comm]

theorem Synced.change (h : Synced v) {event : Event} (hch : Change v event v') : Synced v' := by
  cases hch with
  | same hrealm hperm =>
    refine ⟨hperm.nodup_iff.mpr h.nodup, fun t => ?_⟩
    rw [hperm.mem_iff, hrealm]
    exact h.mem_iff t
  | added text _ hk hrows hlist =>
    constructor
    · rw [hlist]
      refine List.nodup_append.mpr ⟨h.nodup, List.nodup_singleton _, fun x hx y hy hxy => ?_⟩
      rw [List.mem_singleton] at hy
      exact hk (hy ▸ hxy ▸ h.mem_keys hx)
    · intro t
      have empty_ne : (SQLQuery.insertedBucket text "").mCompleteYN ≠ "Y" := by
        simp [SQLQuery.insertedBucket]
      rw [hlist, hrows]
      simp only [List.mem_append, List.mem_singleton, h.mem_iff t]
      constructor
      · intro h
        rcases h with ⟨b, hb, hrest⟩ | rfl
        · exact ⟨b, .inl hb, hrest⟩
        · exact ⟨_, .inr rfl, .inr empty_ne, rfl⟩
      · intro h
        rcases h with ⟨b, hb | rfl, hadm, rfl⟩
        · exact .inl ⟨b, hb, hadm, rfl⟩
        · exact .inr rfl
  | deleted i row hrow hrealm hlist =>
    constructor
    · rw [hlist]
      exact h.nodup.sublist (List.eraseIdx_sublist _ _)
    · intro t
      rw [hlist, hrealm, mem_eraseIdx h.nodup hrow, h.mem_iff t]
      simp only [Table.mem_erase]
      constructor
      · intro h
        obtain ⟨⟨b, hb, hadm, rfl⟩, hrow'⟩ := h
        exact ⟨b, ⟨hb, hrow'⟩, hadm, rfl⟩
      · intro h
        obtain ⟨b, ⟨hb, hrow'⟩, hadm, rfl⟩ := h
        exact ⟨⟨b, hb, hadm, rfl⟩, hrow'⟩

theorem plainStore_change (h : PlainStore v.device.realm) {event : Event}
    (htext : ∀ text, event = .btAdd text → Predicate.Plain text) (hch : Change v event v') :
    PlainStore v'.device.realm := by
  cases hch with
  | same hrealm _ => rw [hrealm]; exact h
  | added text hevent _ hrows _ => exact h.added (htext text hevent) hrows
  | deleted i row _ hrealm _ =>
    intro c hc
    rw [hrealm] at hc
    exact h c (Table.mem_keys_erase.mp hc).1

/-- In a run on plain texts the list shows the store and the store stays plain. -/
theorem synced_of_runs [Platform] {device : Device} {events : List Event}
    (hplain : PlainStore device.realm)
    (htexts : ∀ text, .btAdd text ∈ events → Predicate.Plain text)
    (hrun : Runs (step nfc) (viewDidLoad nfc device) events v) :
    Synced v ∧ PlainStore v.device.realm := by
  have hguard : Guarded (step nfc) (fun _ e => ∀ text, e = .btAdd text → Predicate.Plain text)
      (viewDidLoad nfc device) events :=
    Guarded.of_forall fun e he _ text htext => htexts text (htext ▸ he)
  refine Runs.invariant (I := fun w => Synced w ∧ PlainStore w.device.realm) ?_ hrun ?_ hguard
  · rintro w event w' ⟨hsync, hstore⟩ htext hstep
    have hch := step_change (fun t ht => hstore t (hsync.mem_keys ht)) hstep
    exact ⟨hsync.change hch, plainStore_change hstore htext hch⟩
  · refine ⟨synced_viewDidLoad nfc device, ?_⟩
    rw [viewDidLoad_device]
    exact hplain

/-- **The list on display and the store stay in step**: after any actions that do not raise, the
    list has no repetition and shows the admitted buckets, and deleting a row takes that row's
    bucket from both, or, when there is no such row, nothing from either.

    Of the store and of the texts that are added it is asked that they can be quoted, as a row is
    deleted by a predicate on its text. A row number is any text that reads as an `Int`; of texts
    that do not, and end the process, nothing is said here. -/
theorem list_synchronised [Platform] {device : Device} {events : List Event}
    (hplain : PlainStore device.realm)
    (htexts : ∀ text, .btAdd text ∈ events → Predicate.Plain text)
    (hrun : Runs (step nfc) (viewDidLoad nfc device) events v) :
    v.mDataList.Nodup ∧
    (∀ t, t ∈ v.mDataList ↔ ∃ b ∈ v.device.realm.rows, Admitted b ∧ b.mContent = t) ∧
    ∀ data i, intOfString? data = some i →
      (0 ≤ i ∧ i < v.mDataList.length →
        ∃ row v', v.mDataList[i.toNat]? = some row ∧ row ∈ v.device.realm.keys ∧
          step nfc v (.rowDelete data) = .ok v' ∧
          v'.mDataList = v.mDataList.eraseIdx i.toNat ∧
          (∀ t, t ∈ v'.mDataList ↔ t ∈ v.mDataList ∧ t ≠ row) ∧
          v'.device.realm = v.device.realm.erase row) ∧
      (¬ (0 ≤ i ∧ i < v.mDataList.length) → step nfc v (.rowDelete data) = .ok v) := by
  obtain ⟨hsync, hstore⟩ := synced_of_runs hplain htexts hrun
  refine ⟨hsync.nodup, hsync.mem_iff, fun data i hi => ⟨fun hrange => ?_, fun hrange => ?_⟩⟩
  · have hlt : i.toNat < v.mDataList.length := by omega
    have hrow := List.getElem?_eq_getElem hlt
    have hkey := hsync.mem_keys (List.getElem_mem hlt)
    refine ⟨_, _, hrow, hkey, rowDelete_inRange hi hrange hrow (hstore _ hkey), rfl, ?_, rfl⟩
    intro t
    exact mem_eraseIdx hsync.nodup hrow
  · exact rowDelete_outOfRange hi hrange

/-- A store with a bucket to do and an achieved one. -/
def halfAchieved : Device where
  realm := { rows := [{ mContent := "Paris" }, { mContent := "Rome", mCompleteYN := "Y" }],
             nodup := by decide }
  defaults := fun _ => none

theorem list_synchronised_halfAchieved :
    ∃ v, Runs (step id) (viewDidLoad id halfAchieved)
        [.btAdd "Lyon", .rowDelete "0", .btSortName] v ∧
      v.mDataList.Nodup ∧
      ∀ t, t ∈ v.mDataList ↔ ∃ b ∈ v.device.realm.rows, Admitted b ∧ b.mContent = t := by
  have hplain : PlainStore halfAchieved.realm := by unfold PlainStore; decide
  have htexts : ∀ text, Event.btAdd text ∈ [.btAdd "Lyon", .rowDelete "0", .btSortName] →
      Predicate.Plain text := by
    intro text htext
    simp only [List.mem_cons, Event.btAdd.injEq, reduceCtorEq, List.not_mem_nil, or_false] at htext
    subst htext
    decide
  have hrun : Runs (step id) (viewDidLoad id halfAchieved)
      [.btAdd "Lyon", .rowDelete "0", .btSortName] _ :=
    .cons rfl (.cons rfl (.single rfl))
  obtain ⟨hnodup, hmem, -⟩ := list_synchronised hplain htexts hrun
  exact ⟨_, hrun, hnodup, hmem⟩

end WriteView
end KBucket
