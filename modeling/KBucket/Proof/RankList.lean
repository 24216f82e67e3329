import KBucket.RankScreen

/-!
# What the handlers of the ranking do

One statement for each handler of `RankListView`: what it can do to the list, to the requests and
to the reloads, and with which traps it can end.

The receipt of a vote is the case to look at: it empties the list before the new ranking is there.
That is what makes a cell trap, and a second vote possible.
-/

namespace KBucket
namespace RankListView

open Lib

variable {v t : RankListView} {type actionId : Int} {data : Option Json}

/-- The list that an answer carries. -/
abbrev Answers [Platform] : Option Json → List BucketRank → Prop :=
  Json.Lists "bucketList" bucketRank

/-- The state after a list has arrived. -/
def listed (v : RankListView) (buckets : List BucketRank) : RankListView :=
  { v with
    mBucketDataList := if buckets = [] then v.mBucketDataList else buckets
    reloads := v.reloads + 1 }

/-- The state after a vote has been acknowledged: the list is empty and asked for again. -/
def acknowledged (v : RankListView) : RankListView :=
  { v with mBucketDataList := [] }.handleMessage .LOAD_BUCKET_RANK ""

/-- The ways in which an answer is received. -/
inductive Received [Platform] (v : RankListView) (type actionId : Int) (data : Option Json) :
    RankListView → Prop
  | listed (buckets : List BucketRank) (htype : type = ConstHTTP.HTTP_OK)
      (hid : actionId = ConstHTTP.RANK_LIST) (hdata : Answers data buckets) :
      Received v type actionId data (v.listed buckets)
  | acknowledged (htype : type = ConstHTTP.HTTP_OK)
      (hid : actionId = ConstHTTP.RANK_UPDATE_COMMENT) (hdata : Json.isValid data = .ok true) :
      Received v type actionId data v.acknowledged
  | failed : Received v type actionId data (v.handleMessage .SERVER_LOADING_FAIL "")
  | ignored : Received v type actionId data v

/-- An empty array is read like any other: nothing is collected from it. -/
theorem onHttpReceive_list [Platform] {fields : List (String × Json)}
    (hvalid : Json.isValid (some (.obj fields)) = .ok true) :
    v.onHttpReceive ConstHTTP.HTTP_OK ConstHTTP.RANK_LIST (some (.obj fields)) = (do
      let items ← Json.asArray (fields.lookup "bucketList")
      let buckets ← items.mapM bucketRank
      return v.listed buckets) := by
  unfold onHttpReceive
  simp only [hvalid]
  cases Json.asArray (fields.lookup "bucketList") with
  | error e => rfl
  | ok items =>
    cases items with
    | nil => rfl
    | cons item items =>
      cases hbuckets : (item :: items).mapM bucketRank with
      | error e => simp [hbuckets]
      | ok buckets =>
        have hne : buckets ≠ [] := by
          rintro rfl
          cases mapM_eq_ok.mp hbuckets
        simp [hbuckets, listed, handleMessage, hne]

theorem onHttpReceive_listed [Platform] {buckets : List BucketRank} (h : Answers data buckets) :
    v.onHttpReceive ConstHTTP.HTTP_OK ConstHTTP.RANK_LIST data = .ok (v.listed buckets) := by
  obtain ⟨hvalid, fields, items, rfl, hitems, hbuckets⟩ := h
  rw [onHttpReceive_list hvalid]
  exact bind_eq_ok.mpr ⟨items, hitems, bind_eq_ok.mpr ⟨buckets, hbuckets, rfl⟩⟩

theorem onHttpReceive_acknowledged [Platform] (h : Json.isValid data = .ok true) :
    v.onHttpReceive ConstHTTP.HTTP_OK ConstHTTP.RANK_UPDATE_COMMENT data =
      .ok v.acknowledged := by
  unfold onHttpReceive
  rw [h]
  rfl

/-- An answer is read as a list, or as an acknowledgement, or not at all. -/
theorem onHttpReceive_cases [Platform] (v : RankListView) (type actionId : Int)
    (data : Option Json) : (type = ConstHTTP.HTTP_OK ∧ actionId = ConstHTTP.RANK_LIST ∧
      ∃ fields, data = some (.obj fields) ∧ Json.isValid data = .ok true) ∨
    (type = ConstHTTP.HTTP_OK ∧ actionId = ConstHTTP.RANK_UPDATE_COMMENT ∧
      Json.isValid data = .ok true) ∨
    v.onHttpReceive type actionId data = .ok (v.handleMessage .SERVER_LOADING_FAIL "") ∨
    v.onHttpReceive type actionId data = .ok v ∨
    ∃ e, Json.isValid data = .error e ∧ v.onHttpReceive type actionId data = .error e := by
  cases hvalid : Json.isValid data with
  | error e =>
    refine Or.inr (Or.inr (Or.inr (Or.inr ⟨e, rfl, ?_⟩)))
    unfold onHttpReceive
    rw [hvalid]
    rfl
  | ok valid =>
    unfold onHttpReceive
    simp only [hvalid]
    by_cases hok : type = ConstHTTP.HTTP_OK ∧ valid = true
    · obtain ⟨htype, rfl⟩ := hok
      by_cases hlist : actionId = ConstHTTP.RANK_LIST
      · obtain ⟨fields, hfields⟩ := Json.isValid_true hvalid
        exact Or.inl ⟨htype, hlist, fields, hfields, rfl⟩
      · by_cases hvote : actionId = ConstHTTP.RANK_UPDATE_COMMENT
        · exact Or.inr (Or.inl ⟨htype, hvote, rfl⟩)
        · refine Or.inr (Or.inr (Or.inr (Or.inl ?_)))
          simp [hlist, hvote]
    · by_cases hread : actionId = ConstHTTP.RANK_LIST ∨ actionId = ConstHTTP.RANK_UPDATE_COMMENT
      · refine Or.inr (Or.inr (Or.inl ?_))
        rcases hread with rfl | rfl <;>
          simp [hok, ConstHTTP.RANK_LIST, ConstHTTP.RANK_UPDATE_COMMENT]
      · refine Or.inr (Or.inr (Or.inr (Or.inl ?_)))
        obtain ⟨hlist, hvote⟩ := not_or.mp hread
        simp [hlist, hvote]

/-- **What receiving an answer can do.** -/
theorem received [Platform] (h : v.onHttpReceive type actionId data = .ok t) :
    Received v type actionId data t := by
  rcases onHttpReceive_cases v type actionId data with
    ⟨rfl, rfl, fields, rfl, hvalid⟩ | ⟨rfl, rfl, hvalid⟩ | heq | heq | ⟨e, -, heq⟩
  · rw [onHttpReceive_list hvalid] at h
    obtain ⟨items, hitems, h⟩ := bind_eq_ok.mp h
    obtain ⟨buckets, hbuckets, h⟩ := bind_eq_ok.mp h
    cases h
    exact .listed buckets rfl rfl ⟨hvalid, fields, items, rfl, hitems, hbuckets⟩
  · rw [onHttpReceive_acknowledged hvalid] at h
    cases h
    exact .acknowledged rfl rfl hvalid
  · rw [heq] at h; cases h; exact .failed
  · rw [heq] at h; cases h; exact .ignored
  · rw [heq] at h; cases h

theorem bucketRank_trap [Platform] (item : Json) : TrapsOnly .badCast (bucketRank item) := by
  refine .bind (Json.asObject_trap _) fun aObject => ?_
  refine .bind (Json.asInt_trap _) fun mCategoryCode => ?_
  refine .bind (Json.asString_trap _) fun mContent => ?_
  refine .bind (Json.asInt_trap _) fun mIdx => ?_
  refine .bind (Json.asInt_trap _) fun mBestCnt => ?_
  refine .bind (Json.asInt_trap _) fun mGoodCnt => ?_
  refine .bind (Json.asInt_trap _) fun mSoSoCnt => ?_
  exact .bind (Json.asInt_trap _) fun mComment => .pure _

/-- Receiving an answer ends the process only where a cast fails. -/
theorem onHttpReceive_trap [Platform] (v : RankListView) (type actionId : Int)
    (data : Option Json) : TrapsOnly .badCast (v.onHttpReceive type actionId data) := by
  rcases onHttpReceive_cases v type actionId data with
    ⟨rfl, rfl, fields, rfl, hvalid⟩ | ⟨rfl, rfl, hvalid⟩ | heq | heq | ⟨e, hvalid, heq⟩
  · rw [onHttpReceive_list hvalid]
    refine .bind (Json.asArray_trap _) fun items => ?_
    exact .bind (.mapM bucketRank_trap items) fun buckets => .pure _
  · rw [onHttpReceive_acknowledged hvalid]
    exact .pure _
  · rw [heq]
    exact .pure _
  · rw [heq]
    exact .pure _
  · rw [heq, ← Json.isValid_trap data e hvalid]
    intro e' h
    cases h
    rfl

/-- A ranking with one bucket, not voted on. -/
def oneRanked : Json :=
  .obj [("isValid", .bool true), ("bucketList", .arr [.obj [("categoryCode", .int 1),
    ("content", .str "travel"), ("idx", .int 7), ("bestCnt", .int 0), ("goodCnt", .int 0),
    ("ssoCnt", .int 0), ("comment", .int 0)]])]

/-! ## Votes -/

/-- The request with which a vote is sent. -/
def vote (defaults : UserDefaults) (idx comment : Int) : HttpRequest where
  url := ContextUtils.KBUCKET_RANK_COMMENT
  post := true
  id := ConstHTTP.RANK_UPDATE_COMMENT
  data := "idx=" ++ toString idx ++ "&comment=" ++ toString comment ++ "&nickname=" ++
    UserDefault.read defaults ContextUtils.KEY_USER_NICKNAME

/-- The state after a button has been pressed on the bucket with a number. -/
def pressed (v : RankListView) (button : RankButton) (idx : Int) : RankListView :=
  if v.getCommentCount idx = true then
    { v with mBucketRankComment := button.gbn }.toast "이미 의견을 반영했습니다! "
  else
    { v with mBucketRankComment := button.gbn, mBucketRankIdx := idx }.send
      (vote v.defaults idx button.gbn)

@[simp] theorem pressed_mBucketDataList (v : RankListView) (button : RankButton) (idx : Int) :
    (v.pressed button idx).mBucketDataList = v.mBucketDataList := by
  unfold pressed
  split <;> rfl

theorem receiveEventFromViewItem_button [Platform] (v : RankListView) (button : RankButton)
    (data : String) :
    v.receiveEventFromViewItem button.gbn data = (do
      let idx ← unwrap (intOfString? data)
      return v.pressed button idx) := by
  unfold receiveEventFromViewItem
  cases intOfString? data with
  | none => rfl
  | some idx =>
    have hcount : ∀ w : RankListView, w.mBucketDataList = v.mBucketDataList →
        w.getCommentCount idx = v.getCommentCount idx := by
      intro w hw
      rw [getCommentCount, hw, getCommentCount]
    by_cases h : v.getCommentCount idx = true
    · cases button <;>
        simp [RankButton.gbn, pressed, handleMessage, hcount, h]
    · cases button <;>
        simp [RankButton.gbn, pressed, handleMessage, vote, hcount, h]

/-- A press that goes through is a press on some number. -/
theorem receiveEventFromViewItem_ok [Platform] {button : RankButton} {data' : String}
    (h : v.receiveEventFromViewItem button.gbn data' = .ok t) :
    ∃ idx, intOfString? data' = some idx ∧ t = v.pressed button idx := by
  rw [receiveEventFromViewItem_button] at h
  obtain ⟨idx, hidx, h⟩ := bind_eq_ok.mp h
  cases h
  refine ⟨idx, ?_, rfl⟩
  cases hread : intOfString? data' with
  | none => rw [hread] at hidx; cases hidx
  | some i => rw [hread] at hidx; cases hidx; rfl

/-- A press reads its number, and nothing else of it can go wrong. -/
theorem receiveEventFromViewItem_trap [Platform] (v : RankListView) (button : RankButton)
    (data : String) :
    TrapsOnly .unwrappedNil (v.receiveEventFromViewItem button.gbn data) := by
  rw [receiveEventFromViewItem_button]
  exact .bind (unwrap_trap _) fun idx => .pure _

end RankListView

namespace RankScreen

variable {s t : RankScreen}

/-- What the table does with a row that it has: the cell carries the number of the bucket that the
    list has there. -/
theorem step_cell [Platform] {row : Nat} (hrow : row < s.table.rows)
    (h : step s (.cell row) = .ok t) :
    ∃ cell bucket, bucket ∈ s.view.mBucketDataList ∧ cell.mData = toString bucket.mIdx ∧
      t = { s with table := s.table.display row (cell, bucket) hrow } := by
  simp only [step, dif_pos hrow] at h
  obtain ⟨cell, hcell, h⟩ := bind_eq_ok.mp h
  obtain ⟨bucket, hbucket, h⟩ := bind_eq_ok.mp h
  obtain ⟨bucket', hbucket', hcell⟩ := bind_eq_ok.mp hcell
  rw [hbucket] at hbucket'
  cases hbucket'
  cases hcell
  cases h
  exact ⟨_, bucket, List.mem_of_getElem? (arrayGet_eq_ok.mp hbucket).2, rfl, rfl⟩

end RankScreen
end KBucket
