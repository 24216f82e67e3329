import KBucket.Utils.SQLQuery

/-!
# What an insertion stores

`insertUserSetting` takes the four values of a record and answers that it succeeded. Selecting
the content then finds one bucket, and no other bucket has changed; of the four values that
bucket has the content and the completion date. A date or a completion flag reads back only when
it is the text that a new object starts with.

What a caller can tell from the answer is nothing: it is `true` whenever the insertion returns.
So the result is about what is stored afterwards, and about all four values at once.
-/

namespace KBucket
namespace SQLQuery

open Lib

variable {realm realm' : Realm} {contents date completeYN completedDate : String}

/-- The bucket has the four values of an insertion. -/
structure Carries (b : Bucket) (contents date completeYN completedDate : String) : Prop where
  mContent : b.mContent = contents
  mDate : b.mDate = date
  mCompleteYN : b.mCompleteYN = completeYN
  mCompleteDate : b.mCompleteDate = completedDate

/-- Selecting the content finds one bucket, with all four values, and every bucket with another
    content is in the one store as it is in the other. -/
structure StoresWhole (realm realm' : Realm) (contents date completeYN completedDate : String) :
    Prop where
  selected : ∃ b, selectKbucketContents realm' contents = .ok [b] ∧
    Carries b contents date completeYN completedDate
  others : ∀ b, b.mContent ≠ contents → (b ∈ realm'.rows ↔ b ∈ realm.rows)

theorem carries_insertedBucket :
    Carries (insertedBucket contents completedDate) contents date completeYN completedDate ↔
      date = "" ∧ completeYN = "" := by
  constructor
  · intro h
    exact ⟨h.mDate.symm, h.mCompleteYN.symm⟩
  · intro h
    exact ⟨rfl, h.1.symm, h.2.symm, rfl⟩

/-- What the selection finds is the record of the insertion. -/
theorem selectKbucketContents_inserted (hc : Predicate.Plain contents)
    (hrows : realm'.rows = realm.rows ++ [insertedBucket contents completedDate]) :
    selectKbucketContents realm' contents = .ok [insertedBucket contents completedDate] := by
  have hmem : insertedBucket contents completedDate ∈ realm'.rows := by
    rw [hrows]
    exact List.mem_append_right _ (List.mem_singleton_self _)
  rw [selectKbucketContents_plain hc]
  exact congrArg Except.ok (Table.filter_key_of_mem hmem)

theorem mem_inserted_of_ne
    (hrows : realm'.rows = realm.rows ++ [insertedBucket contents completedDate])
    {b : Bucket} (hb : b.mContent ≠ contents) : b ∈ realm'.rows ↔ b ∈ realm.rows := by
  have hne : b ≠ insertedBucket contents completedDate := fun h => hb (congrArg Bucket.mContent h)
  rw [hrows, List.mem_append, List.mem_singleton, or_iff_left hne]

/-- **An insertion succeeds, and stores the whole record exactly when the two values that it
    drops are empty.**

    `hc` is there because the content is looked up by a predicate, and `hnew` because the insertion
    of a content that is stored raises. -/
theorem insertUserSetting_storesWhole_iff (hc : Predicate.Plain contents)
    (hnew : contents ∉ realm.keys) (date completeYN completedDate : String) :
    ∃ realm', insertUserSetting realm contents date completeYN completedDate = .ok (true, realm') ∧
      (StoresWhole realm realm' contents date completeYN completedDate ↔
        date = "" ∧ completeYN = "") := by
  obtain ⟨realm', hins, hrows⟩ :=
    insertUserSetting_of_notMem hnew date completeYN completedDate
  have hsel := selectKbucketContents_inserted hc hrows
  refine ⟨realm', hins, ?_, ?_⟩
  · intro h
    obtain ⟨b, hb, hcarries⟩ := h.selected
    rw [hsel] at hb
    cases hb
    exact carries_insertedBucket.mp hcarries
  · intro h
    exact ⟨⟨_, hsel, carries_insertedBucket.mpr h⟩, fun b hb => mem_inserted_of_ne hrows hb⟩

theorem insertUserSetting_storesWhole_paris :
    ∃ realm', insertUserSetting Table.empty "Paris" "" "" "24-05-01" = .ok (true, realm') ∧
      StoresWhole Table.empty realm' "Paris" "" "" "24-05-01" := by
  have hnew : "Paris" ∉ (Table.empty : Realm).keys := fun h => by cases h
  obtain ⟨realm', hins, hiff⟩ :=
    insertUserSetting_storesWhole_iff (by decide) hnew "" "" "24-05-01"
  exact ⟨realm', hins, hiff.mpr ⟨rfl, rfl⟩⟩

/-- A suggestion that is added loses today's date and its flag. -/
theorem insertUserSetting_drops_date :
    (¬ ∀ (realm realm' : Realm) (contents date completeYN completedDate : String),
      Predicate.Plain contents → contents ∉ realm.keys →
      insertUserSetting realm contents date completeYN completedDate = .ok (true, realm') →
      StoresWhole realm realm' contents date completeYN completedDate) ∧
    ∃ realm', insertUserSetting Table.empty "Paris" "2017-05-01" "N" "" = .ok (true, realm') ∧
      selectKbucketContents realm' "Paris" = .ok [{ mContent := "Paris" }] := by
  have hnew : "Paris" ∉ (Table.empty : Realm).keys := fun h => by cases h
  obtain ⟨realm', hins, hrows⟩ := insertUserSetting_of_notMem hnew "2017-05-01" "N" ""
  have hsel := selectKbucketContents_inserted (by decide) hrows
  refine ⟨fun h => ?_, realm', hins, hsel⟩
  obtain ⟨b, hb, hcarries⟩ := (h _ _ _ _ _ _ (by decide) hnew hins).selected
  rw [hsel] at hb
  cases hb
  exact absurd hcarries.mCompleteYN (by decide)

end SQLQuery
end KBucket
