import KBucket.Bucket

/-!
# `SQLQuery.swift`

The operations of the app on its Realm. Every one that selects by content builds its predicate
by concatenating the content between two quotes, so each is stated twice below: as the code
computes it, and, for a content that the quotes carry unchanged, as what it is meant to be.
-/

namespace KBucket
namespace SQLQuery

open Lib

def selectKbucket (realm : Realm) : List Bucket := realm.objects

/-- `selectKbucket(memoContents:)`. -/
def selectKbucketContents (realm : Realm) (memoContents : String) : Except Trap (List Bucket) :=
  realm.filter ("mContent = '" ++ memoContents ++ "'")

def containsKbucket (realm : Realm) (memoContents : String) : Except Trap Bool := do
  let bucketList ← realm.filter ("mContent = '" ++ memoContents ++ "'")
  if bucketList.length > 0 then return true
  return false

/-- Of its four arguments the record receives two: `date` and `completeYN` are not stored. -/
def insertUserSetting (realm : Realm) (contents _date _completeYN completedDate : String) :
    Except Trap (Bool × Realm) := do
  let bucketObj : Bucket := { mContent := contents, mCompleteDate := completedDate }
  let realm ← realm.add bucketObj
  return (true, realm)

/-- `updateMemoContent(newBucket:cotents:)`. -/
def updateMemoContent (realm : Realm) (newBucket : Bucket) (cotents : String) :
    Except Trap Realm := do
  let bucketObj ← realm.filter ("mContent = '" ++ cotents ++ "'")
  let realm :=
    if bucketObj.length = 1 then realm.delete (bucketObj.take 1) else realm
  realm.add newBucket

def deleteUserBucket (realm : Realm) (contents : String) : Except Trap (Bool × Realm) := do
  let bucketObj ← realm.filter ("mContent = '" ++ contents ++ "'")
  return (true, realm.delete bucketObj)

def DeleteBucketContents (realm : Realm) : Realm := realm.delete realm.objects

/-! ## On a content without quotes and backslashes -/

variable {realm : Realm} {c : String}

theorem format_eq (c : String) :
    "mContent = '" ++ c ++ "'" = String.ofList (Predicate.equalsText "mContent" c) := by
  rw [← String.toList_inj]
  simp [Predicate.equalsText]

theorem filter_plain (realm : Realm) (hc : Predicate.Plain c) :
    realm.filter ("mContent = '" ++ c ++ "'")
      = .ok (realm.rows.filter fun b => b.mContent == c) := by
  obtain ⟨p, hp, hpc⟩ :=
    @Predicate.predicate_quoted _ Realm.column _ _ _ Realm.isKey_mContent rfl hc
  have hfilter : realm.objects.filter p = realm.rows.filter fun b => b.mContent == c :=
    List.filter_congr fun b _ => by rw [hpc, Bool.eq_iff_iff]; simp
  rw [format_eq, Realm.filter, hp]
  exact congrArg Except.ok hfilter

theorem selectKbucketContents_plain (hc : Predicate.Plain c) :
    selectKbucketContents realm c = .ok (realm.rows.filter fun b => b.mContent == c) :=
  filter_plain realm hc

theorem containsKbucket_plain (hc : Predicate.Plain c) :
    containsKbucket realm c = .ok (decide (c ∈ realm.keys)) := by
  rw [containsKbucket, filter_plain realm hc]
  show (if _ then _ else _) = _
  by_cases hk : c ∈ realm.keys
  · obtain ⟨b, hb, rfl⟩ := Table.mem_keys.mp hk
    simp [Table.filter_key_of_mem hb, hk]
  · simp [Table.filter_key_of_notMem hk, hk]

theorem deleteUserBucket_plain (hc : Predicate.Plain c) :
    deleteUserBucket realm c = .ok (true, realm.erase c) := by
  rw [deleteUserBucket, filter_plain realm hc]
  show Except.ok (true, realm.delete _) = _
  rw [Realm.delete_filter_content]

/-- One matching object is deleted and none is left alone, so the count that guards the
    deletion does not show. -/
theorem updateMemoContent_plain (realm : Realm) (newBucket : Bucket) (hc : Predicate.Plain c) :
    updateMemoContent realm newBucket c = Realm.add (realm.erase c) newBucket := by
  rw [updateMemoContent, filter_plain realm hc]
  show Realm.add (if _ then _ else _) newBucket = _
  congr 1
  by_cases hk : c ∈ realm.keys
  · obtain ⟨b, hb, rfl⟩ := Table.mem_keys.mp hk
    have hone := Table.filter_key_of_mem hb
    rw [hone]
    show realm.delete [b] = _
    rw [← hone, Realm.delete_filter_content]
  · rw [Table.filter_key_of_notMem hk, if_neg (by simp), Table.erase_of_notMem hk]

/-- The record that an insertion stores. -/
def insertedBucket (contents completedDate : String) : Bucket :=
  { mContent := contents, mCompleteDate := completedDate }

theorem insertUserSetting_eq_ok {realm' : Realm} {contents date completeYN completedDate : String}
    {result : Bool} :
    insertUserSetting realm contents date completeYN completedDate = .ok (result, realm') ↔
      result = true ∧ contents ∉ realm.keys ∧
        realm'.rows = realm.rows ++ [insertedBucket contents completedDate] := by
  have hb : (insertedBucket contents completedDate).mContent = contents := rfl
  rw [insertUserSetting]
  show (realm.add (insertedBucket contents completedDate) >>= fun r => .ok (true, r)) = _ ↔ _
  cases h : realm.add (insertedBucket contents completedDate) with
  | ok r =>
    have hr := Realm.add_eq_ok.mp h
    rw [hb] at hr
    show Except.ok (true, r) = _ ↔ _
    simp only [Except.ok.injEq, Prod.mk.injEq]
    constructor
    · rintro ⟨rfl, rfl⟩; exact ⟨rfl, hr⟩
    · rintro ⟨rfl, -, hrows⟩; exact ⟨rfl, Table.ext (hr.2.trans hrows.symm)⟩
  | error e =>
    have hk := (Realm.add_eq_error.mp h).1
    rw [hb] at hk
    show Except.error e = _ ↔ _
    simp [hk]

theorem insertUserSetting_of_notMem {contents : String} (h : contents ∉ realm.keys)
    (date completeYN completedDate : String) :
    ∃ realm', insertUserSetting realm contents date completeYN completedDate = .ok (true, realm') ∧
      realm'.rows = realm.rows ++ [insertedBucket contents completedDate] := by
  obtain ⟨realm', hadd, hrows⟩ := Realm.add_of_notMem (b := insertedBucket contents completedDate) h
  exact ⟨realm', insertUserSetting_eq_ok.mpr ⟨rfl, h, hrows⟩, hrows⟩

/-- Inserting a content that is stored is the exception `realm.add` raises. -/
theorem insertUserSetting_of_mem {contents : String} (h : contents ∈ realm.keys)
    (date completeYN completedDate : String) :
    insertUserSetting realm contents date completeYN completedDate = .error .primaryKeyExists := by
  have : realm.add (insertedBucket contents completedDate) = .error .primaryKeyExists :=
    Realm.add_eq_error.mpr ⟨h, rfl⟩
  rw [insertUserSetting]
  show (realm.add (insertedBucket contents completedDate) >>= _) = _
  rw [this]
  rfl

/-! ## Nothing else gets into the store -/

/-- Whatever the predicate does, an update leaves old records and the new one. -/
theorem mem_of_updateMemoContent {realm realm' : Realm} {newBucket : Bucket} {cotents : String}
    (h : updateMemoContent realm newBucket cotents = .ok realm') {b : Bucket}
    (hb : b ∈ realm'.rows) : b ∈ realm.rows ∨ b = newBucket := by
  unfold updateMemoContent at h
  obtain ⟨bucketObj, -, hadd⟩ := bind_eq_ok.mp h
  obtain ⟨-, hrows⟩ := Realm.add_eq_ok.mp hadd
  rw [hrows, List.mem_append, List.mem_singleton] at hb
  refine hb.imp_left fun hold => ?_
  split at hold
  · exact (Table.mem_deleteWhere.mp hold).1
  · exact hold

theorem mem_of_deleteUserBucket {realm realm' : Realm} {contents : String} {result : Bool}
    (h : deleteUserBucket realm contents = .ok (result, realm')) {b : Bucket}
    (hb : b ∈ realm'.rows) : b ∈ realm.rows := by
  unfold deleteUserBucket at h
  obtain ⟨bucketObj, -, hdel⟩ := bind_eq_ok.mp h
  cases hdel
  exact (Table.mem_deleteWhere.mp hb).1

theorem DeleteBucketContents_eq (realm : Realm) : DeleteBucketContents realm = Table.empty :=
  Table.deleteWhere_eq_empty fun _ hb => decide_eq_true hb

end SQLQuery
end KBucket
