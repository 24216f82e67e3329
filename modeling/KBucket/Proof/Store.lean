import KBucket.View.WriteDetailView

/-!
# What holds of the stores

Two properties of a store that the screens keep: nothing in it carries data that the detail form
does not (`FormOnly`, on every store the app's operations lead to), and every content in it can
be quoted (`PlainStore`, as long as the user enters such contents).

Neither is a property of all stores. An older version of the app, or another program, may have
left records with more in them; so the results that need `FormOnly` ask for a store which the
app's own operations lead to (`Reachable`).
-/

namespace KBucket

open Lib

/-! ## The stores the app builds -/

/-- The stores that insertions, saves, deletions and resets lead to. -/
inductive Reachable : Realm → Prop
  | empty : Reachable Table.empty
  | insert {realm realm' : Realm} {contents date completeYN completedDate : String}
      {result : Bool} : Reachable realm →
      SQLQuery.insertUserSetting realm contents date completeYN completedDate
        = .ok (result, realm') → Reachable realm'
  | save {v v' : WriteDetailView} : Reachable v.device.realm →
      v.updateDBDate = .ok v' → Reachable v'.device.realm
  | delete {realm realm' : Realm} {contents : String} {result : Bool} : Reachable realm →
      SQLQuery.deleteUserBucket realm contents = .ok (result, realm') → Reachable realm'
  | reset {realm : Realm} : Reachable realm → Reachable (SQLQuery.DeleteBucketContents realm)

/-- The fields that the form does not carry have the values of a fresh object. -/
structure FormOnly (b : Bucket) : Prop where
  mCategoryCode : b.mCategoryCode = 0
  mIdx : b.mIdx = 0
  mNickName : b.mNickName = ""
  mPhone : b.mPhone = ""

theorem formOnly_newBucket (v : WriteDetailView) : FormOnly v.newBucket := ⟨rfl, rfl, rfl, rfl⟩

theorem formOnly_insertedBucket (contents completedDate : String) :
    FormOnly (SQLQuery.insertedBucket contents completedDate) := ⟨rfl, rfl, rfl, rfl⟩

/-- A store with one more bucket, added by name. -/
theorem Reachable.added {realm realm' : Realm} {contents : String} (h : Reachable realm)
    (hc : contents ∉ realm.keys)
    (hrows : realm'.rows = realm.rows ++ [SQLQuery.insertedBucket contents ""]) :
    Reachable realm' :=
  have hins : SQLQuery.insertUserSetting realm contents "" "N" "" = .ok (true, realm') :=
    SQLQuery.insertUserSetting_eq_ok.mpr ⟨rfl, hc, hrows⟩
  .insert h hins

namespace WriteDetailView

theorem updateDBDate_eq_ok {v v' : WriteDetailView} :
    v.updateDBDate = .ok v' ↔
      ∃ realm, SQLQuery.updateMemoContent v.device.realm v.newBucket v.mContents = .ok realm ∧
        v' = { v with device := { v.device with realm } } := by
  unfold updateDBDate
  rw [bind_eq_ok]
  refine exists_congr fun realm => and_congr_right fun _ => ?_
  exact ⟨fun h => (by cases h; rfl), fun h => (by rw [h]; rfl)⟩

end WriteDetailView

/-- **No bucket of such a store carries anything the form does not.** -/
theorem Reachable.formOnly {realm : Realm} (h : Reachable realm) :
    ∀ b ∈ realm.rows, FormOnly b := by
  induction h with
  | empty => intro b hb; cases hb
  | insert _ hins ih =>
    intro b hb
    obtain ⟨-, -, hrows⟩ := SQLQuery.insertUserSetting_eq_ok.mp hins
    rw [hrows, List.mem_append, List.mem_singleton] at hb
    rcases hb with hb | rfl
    · exact ih b hb
    · exact formOnly_insertedBucket _ _
  | save _ hsave ih =>
    intro b hb
    obtain ⟨realm, hup, rfl⟩ := WriteDetailView.updateDBDate_eq_ok.mp hsave
    rcases SQLQuery.mem_of_updateMemoContent hup hb with hb | rfl
    · exact ih b hb
    · exact formOnly_newBucket _
  | delete _ hdel ih =>
    intro b hb
    exact ih b (SQLQuery.mem_of_deleteUserBucket hdel hb)
  | reset _ _ =>
    intro b hb
    rw [SQLQuery.DeleteBucketContents_eq] at hb
    cases hb

/-! ## Plain stores -/

/-- Every content of the store can be quoted. -/
def PlainStore (realm : Realm) : Prop := ∀ c ∈ realm.keys, Predicate.Plain c

theorem PlainStore.of_mem {realm realm' : Realm} (h : PlainStore realm)
    (hmem : ∀ b ∈ realm'.rows, b ∈ realm.rows ∨ Predicate.Plain b.mContent) :
    PlainStore realm' := by
  intro c hc
  obtain ⟨b, hb, rfl⟩ := Table.mem_keys.mp hc
  rcases hmem b hb with hold | hplain
  · exact h _ (Table.key_mem hold)
  · exact hplain

theorem PlainStore.added {realm realm' : Realm} {contents completedDate : String}
    (h : PlainStore realm) (hc : Predicate.Plain contents)
    (hrows : realm'.rows = realm.rows ++ [SQLQuery.insertedBucket contents completedDate]) :
    PlainStore realm' := by
  refine h.of_mem fun b hb => ?_
  rw [hrows, List.mem_append, List.mem_singleton] at hb
  rcases hb with hb | rfl
  · exact .inl hb
  · exact .inr hc

end KBucket
