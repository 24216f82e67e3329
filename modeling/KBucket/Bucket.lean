import KBucket.Foundation

/-!
# The record and its store

`Bucket` is the one object type of the app's Realm; `mContent` is its primary key. A realm is a
table of buckets under that key: `add` without an update policy raises on a key that is taken,
`filter` raises on a format string it cannot read. An exception inside `write` reaches `try!`
before the commit, so nothing of the block is stored.

The order of the rows is the one in which the store hands them out. It is the order of insertion
only until a row is deleted, and no query of the app asks for another. That the store can be opened,
and that nobody else writes to it, is taken for granted.
-/

namespace KBucket

open Lib

structure Bucket where
  mCategoryCode : Int := 0
  mContent : String := ""
  mCompleteYN : String := ""
  mCompleteDate : String := ""
  mIdx : Int := 0
  mNickName : String := ""
  mPhone : String := ""
  mImageURl : String := ""
  mDate : String := ""
  deriving DecidableEq, Repr

/-- The parameters of a shared bucket; of the image they tell that there is one. -/
def Bucket.toDictionary (hash : HashOrder) (bucket : Bucket) : Dictionary :=
  hash.order {
    rows := [("CATEGORY_CODE", toString bucket.mCategoryCode), ("NICKNAME", bucket.mNickName),
      ("PHONE", bucket.mPhone), ("CONTENT", bucket.mContent),
      ("IMAGE_URL", if bucket.mImageURl.length > 0 then "Y" else "N"),
      ("CREATE_DT", bucket.mCompleteDate)]
    nodup := by
      show ["CATEGORY_CODE", "NICKNAME", "PHONE", "CONTENT", "IMAGE_URL", "CREATE_DT"].Nodup
      decide }

abbrev Realm := Table Bucket String Bucket.mContent

namespace Realm

/-- The string properties, which a predicate may name. -/
def column : String → Option (Bucket → String)
  | "mContent" => some (·.mContent)
  | "mCompleteYN" => some (·.mCompleteYN)
  | "mCompleteDate" => some (·.mCompleteDate)
  | "mNickName" => some (·.mNickName)
  | "mPhone" => some (·.mPhone)
  | "mImageURl" => some (·.mImageURl)
  | "mDate" => some (·.mDate)
  | _ => none

def objects (realm : Realm) : List Bucket := realm.rows

/-- `objects(Bucket.self).filter(format)`. -/
def filter (realm : Realm) (format : String) : Except Trap (List Bucket) :=
  match Predicate.predicate column format with
  | some p => .ok (realm.objects.filter p)
  | none => .error .invalidPredicate

def add (realm : Realm) (object : Bucket) : Except Trap Realm :=
  match realm.insert? object with
  | some realm' => .ok realm'
  | none => .error .primaryKeyExists

/-- Of an object or of results, whose rows are taken out unordered. -/
def delete (realm : Realm) (results : List Bucket) : Realm :=
  realm.deleteWhere fun b => decide (b ∈ results)

/-! ## Lemmas -/

theorem add_eq_ok {realm realm' : Realm} {b : Bucket} :
    realm.add b = .ok realm' ↔ b.mContent ∉ realm.keys ∧ realm'.rows = realm.rows ++ [b] := by
  unfold add
  rw [← Table.insert?_eq_some]
  cases realm.insert? b <;> simp

theorem add_eq_error {realm : Realm} {b : Bucket} {e : Trap} :
    realm.add b = .error e ↔ b.mContent ∈ realm.keys ∧ e = .primaryKeyExists := by
  rw [← Table.insert?_eq_none]
  unfold add
  cases realm.insert? b <;> simp [eq_comm]

/-- A key that is free can be added, and one more row is what it adds. -/
theorem add_of_notMem {realm : Realm} {b : Bucket} (h : b.mContent ∉ realm.keys) :
    ∃ realm', realm.add b = .ok realm' ∧ realm'.rows = realm.rows ++ [b] := by
  cases hadd : realm.add b with
  | ok realm' => exact ⟨realm', rfl, (add_eq_ok.mp hadd).2⟩
  | error e => exact absurd (add_eq_error.mp hadd).1 h

/-- What a filter finds is stored. -/
theorem mem_of_filter {realm : Realm} {format : String} {results : List Bucket}
    (h : realm.filter format = .ok results) {b : Bucket} (hb : b ∈ results) : b ∈ realm.rows := by
  unfold filter at h
  split at h
  · cases h
    exact List.mem_of_mem_filter hb
  · cases h

/-- Deleting the objects found under a content is erasing the key. -/
theorem delete_filter_content (realm : Realm) (c : String) :
    realm.delete (realm.rows.filter fun b => b.mContent == c) = realm.erase c :=
  Table.deleteWhere_congr fun b hb => by
    simp only [List.mem_filter, hb, true_and]
    cases b.mContent == c <;> simp

theorem isKey_mContent : Predicate.IsKey "mContent" where
  word := by
    have hall : "mContent".toList.all (fun c => Predicate.classify c = .word) = true := by decide
    intro c hc
    exact of_decide_eq_true (List.all_eq_true.mp hall c hc)
  ne_nil := by decide
  token := by decide

end Realm

end KBucket
