import KBucket.ShareScreen

/-!
# What the handlers of the shared buckets do

One statement for each handler of `ShareListView`, as `Proof.RankList` has them for the ranking.

The buttons are among them: that of a category sends a request and leaves the list, and that of a
row reads the number of the row back from a text, which needs a number that an `Int` can hold.
-/

namespace KBucket
namespace ShareListView

open Lib

variable {v t : ShareListView} {type actionId : Int} {data : Option Json}

/-- The list that an answer carries. -/
abbrev Answers [Platform] : Option Json → List Bucket → Prop := Json.Lists "bucketList" bucket

/-- The state after a list has arrived. -/
def listed (v : ShareListView) (buckets : List Bucket) : ShareListView :=
  { v with mBucketDataList := buckets, reloads := v.reloads + 1 }

/-- The ways in which an answer is received. -/
inductive Received [Platform] (v : ShareListView) (type actionId : Int) (data : Option Json) :
    ShareListView → Prop
  | listed (buckets : List Bucket) (htype : type = ConstHTTP.HTTP_OK)
      (hid : actionId = ConstHTTP.BUCKET_LIST) (hdata : Answers data buckets) :
      Received v type actionId data (v.listed buckets)
  | categories (list : List Category) :
      Received v type actionId data { v with mCategoryList := list }
  | failed : Received v type actionId data (v.toast "server_fail_string")
  | ignored : Received v type actionId data v

theorem onHttpReceive_list [Platform] {fields : List (String × Json)}
    (hvalid : Json.isValid (some (.obj fields)) = .ok true) :
    v.onHttpReceive ConstHTTP.HTTP_OK ConstHTTP.BUCKET_LIST (some (.obj fields)) = (do
      let items ← Json.asArray (fields.lookup "bucketList")
      let buckets ← items.mapM bucket
      return v.listed buckets) := by
  unfold onHttpReceive
  rw [hvalid]
  rfl

theorem onHttpReceive_category [Platform] {fields : List (String × Json)}
    (hvalid : Json.isValid (some (.obj fields)) = .ok true) :
    v.onHttpReceive ConstHTTP.HTTP_OK ConstHTTP.CATEGORY_LIST (some (.obj fields)) = (do
      let items ← Json.asArray (fields.lookup "categoryVOList")
      let list ← items.mapM category
      return { v with mCategoryList := v.mCategoryList ++ list }) := by
  unfold onHttpReceive
  rw [hvalid]
  rfl

theorem onHttpReceive_listed [Platform] {buckets : List Bucket} (h : Answers data buckets) :
    v.onHttpReceive ConstHTTP.HTTP_OK ConstHTTP.BUCKET_LIST data = .ok (v.listed buckets) := by
  obtain ⟨hvalid, fields, items, rfl, hitems, hbuckets⟩ := h
  rw [onHttpReceive_list hvalid]
  exact bind_eq_ok.mpr ⟨items, hitems, bind_eq_ok.mpr ⟨buckets, hbuckets, rfl⟩⟩

/-- An answer is read as a list of buckets, or of categories, or not at all. -/
theorem onHttpReceive_cases [Platform] (v : ShareListView) (type actionId : Int)
    (data : Option Json) :
    (type = ConstHTTP.HTTP_OK ∧
      (actionId = ConstHTTP.CATEGORY_LIST ∨ actionId = ConstHTTP.BUCKET_LIST) ∧
      ∃ fields, data = some (.obj fields) ∧ Json.isValid data = .ok true) ∨
    v.onHttpReceive type actionId data = .ok (v.toast "server_fail_string") ∨
    v.onHttpReceive type actionId data = .ok v ∨
    ∃ e, Json.isValid data = .error e ∧ v.onHttpReceive type actionId data = .error e := by
  cases hvalid : Json.isValid data with
  | error e =>
    refine Or.inr (Or.inr (Or.inr ⟨e, rfl, ?_⟩))
    unfold onHttpReceive
    rw [hvalid]
    rfl
  | ok valid =>
    unfold onHttpReceive
    simp only [hvalid]
    by_cases hread : actionId = ConstHTTP.CATEGORY_LIST ∨ actionId = ConstHTTP.BUCKET_LIST
    · by_cases hok : type = ConstHTTP.HTTP_OK ∧ valid = true
      · obtain ⟨htype, rfl⟩ := hok
        obtain ⟨fields, hfields⟩ := Json.isValid_true hvalid
        exact Or.inl ⟨htype, hread, fields, hfields, rfl⟩
      · refine Or.inr (Or.inl ?_)
        rcases hread with rfl | rfl <;>
          simp [hok, handleMessage, ConstHTTP.CATEGORY_LIST, ConstHTTP.BUCKET_LIST]
    · refine Or.inr (Or.inr (Or.inl ?_))
      obtain ⟨hcategory, hlist⟩ := not_or.mp hread
      simp [hcategory, hlist]

/-- **What receiving an answer can do.** -/
theorem received [Platform] (h : v.onHttpReceive type actionId data = .ok t) :
    Received v type actionId data t := by
  rcases onHttpReceive_cases v type actionId data with
    ⟨rfl, rfl | rfl, fields, rfl, hvalid⟩ | heq | heq | ⟨e, -, heq⟩
  · rw [onHttpReceive_category hvalid] at h
    obtain ⟨items, -, h⟩ := bind_eq_ok.mp h
    obtain ⟨list, -, h⟩ := bind_eq_ok.mp h
    cases h
    exact .categories (v.mCategoryList ++ list)
  · rw [onHttpReceive_list hvalid] at h
    obtain ⟨items, hitems, h⟩ := bind_eq_ok.mp h
    obtain ⟨buckets, hbuckets, h⟩ := bind_eq_ok.mp h
    cases h
    exact .listed buckets rfl rfl ⟨hvalid, fields, items, rfl, hitems, hbuckets⟩
  · rw [heq] at h; cases h; exact .failed
  · rw [heq] at h; cases h; exact .ignored
  · rw [heq] at h; cases h

theorem category_trap [Platform] (item : Json) : TrapsOnly .badCast (category item) := by
  refine .bind (Json.asObject_trap _) fun aObject => ?_
  refine .bind (Json.asInt_trap _) fun code => ?_
  exact .bind (Json.asString_trap _) fun name => .pure _

theorem bucket_trap [Platform] (item : Json) : TrapsOnly .badCast (bucket item) := by
  refine .bind (Json.asObject_trap _) fun aObject => ?_
  refine .bind (Json.asString_trap _) fun mContent => ?_
  refine .bind (Json.asString_trap _) fun mDate => ?_
  refine .bind (Json.asString_trap _) fun mPhone => ?_
  refine .bind (Json.asInt_trap _) fun mIdx => ?_
  refine .bind (Json.asString_trap _) fun mImageURl => ?_
  refine .bind (Json.asString_trap _) fun mNickName => ?_
  refine .bind (Json.asInt_trap _) fun mCategoryCode => ?_
  exact .bind (Json.asString_trap _) fun mCompleteDate => .pure _

/-- Receiving an answer ends the process only where a cast fails. -/
theorem onHttpReceive_trap [Platform] (v : ShareListView) (type actionId : Int)
    (data : Option Json) : TrapsOnly .badCast (v.onHttpReceive type actionId data) := by
  rcases onHttpReceive_cases v type actionId data with
    ⟨rfl, rfl | rfl, fields, rfl, hvalid⟩ | heq | heq | ⟨e, hvalid, heq⟩
  · rw [onHttpReceive_category hvalid]
    refine .bind (Json.asArray_trap _) fun items => ?_
    exact .bind (.mapM category_trap items) fun list => .pure _
  · rw [onHttpReceive_list hvalid]
    refine .bind (Json.asArray_trap _) fun items => ?_
    exact .bind (.mapM bucket_trap items) fun buckets => .pure _
  · rw [heq]
    exact .pure _
  · rw [heq]
    exact .pure _
  · rw [heq, ← Json.isValid_trap data e hvalid]
    intro e' h
    cases h
    rfl

/-- The request that asks for the list of a category. -/
def listRequest (sender : CategoryButton) : HttpRequest where
  url := ContextUtils.KBUCKET_BUCKET_LIST_URL
  post := true
  id := ConstHTTP.BUCKET_LIST
  data := "idx=" ++ categoryCode sender

theorem handleMessage_shareBucketList (v : ShareListView) (sender : CategoryButton) :
    v.handleMessage .SHARE_BUCKET_LIST (categoryCode sender) = v.send (listRequest sender) := by
  cases sender <;> rfl

/-- A tap on a category sends a request, if it can, and leaves the list. -/
theorem onClick_keeps (v : ShareListView) (sender : CategoryButton) (isConnect : Bool) :
    (v.onClick sender isConnect).mBucketDataList = v.mBucketDataList ∧
      (v.onClick sender isConnect).requests =
        if isConnect = true then v.requests ++ [listRequest sender] else v.requests := by
  unfold onClick
  split
  · rw [handleMessage_shareBucketList]
    exact ⟨rfl, rfl⟩
  · exact ⟨rfl, rfl⟩

/-- The detail button of a row opens the bucket that the list has there now. -/
theorem receiveEventFromViewItem_row [Platform] (v : ShareListView) {row : Nat}
    (hrow : FitsInt row) : v.receiveEventFromViewItem 0 (toString row) = (do
      let bucket ← arrayGet v.mBucketDataList row
      return { v with presented := v.presented ++ [shareDetail bucket] }) := by
  have hcast : toString (row : Int) = toString row := rfl
  have hindex : intOfString? (toString row) = some (row : Int) := by
    rw [← hcast]
    exact intOfString?_toString hrow
  unfold receiveEventFromViewItem
  rw [if_pos rfl, hindex]
  rfl

end ShareListView
end KBucket
