import KBucket.View.NoticeView

/-!
# What the handler of the notices does

One statement for each way that an answer can go. One that is no list changes nothing at all, and
a list without notices is passed over, so that the list of an earlier answer stays.
-/

namespace KBucket
namespace NoticeView

variable {v t : NoticeView} {type actionId : Int} {data : Option Json}

/-- The list that an answer carries. -/
abbrev Answers [Platform] : Option Json → List UpdateApp → Prop :=
  Json.Lists "updateVOList" updateApp

/-- The state after a list has arrived; an empty one is passed over. -/
def listed (v : NoticeView) (updates : List UpdateApp) : NoticeView :=
  if updates = [] then v
  else { v with
    mList := updates
    mGroupList := updates.map UpdateApp.mContent
    mChildList := []
    mChildListContent := (updates.map UpdateApp.mContent).getLast?.toList
    reloads := v.reloads + 1 }

theorem listed_mList (v : NoticeView) (updates : List UpdateApp) :
    (v.listed updates).mList = if updates = [] then v.mList else updates := by
  unfold listed
  split <;> rfl

theorem onHttpReceive_list [Platform] {fields : List (String × Json)}
    (hvalid : Json.isValid (some (.obj fields)) = .ok true) :
    v.onHttpReceive ConstHTTP.HTTP_OK ConstHTTP.NOTICE_LIST (some (.obj fields)) = (do
      let items ← Json.asArray (fields.lookup "updateVOList")
      let updates ← items.mapM updateApp
      return v.listed updates) := by
  unfold onHttpReceive
  simp only [hvalid]
  cases Json.asArray (fields.lookup "updateVOList") with
  | error e => rfl
  | ok items =>
    cases items with
    | nil => rfl
    | cons item items =>
      cases hupdates : (item :: items).mapM updateApp with
      | error e => simp [hupdates]
      | ok updates =>
        have hne : updates ≠ [] := by
          rintro rfl
          cases mapM_eq_ok.mp hupdates
        simp [hupdates, listed, handleMessage, hne]

theorem onHttpReceive_listed [Platform] {updates : List UpdateApp} (h : Answers data updates) :
    v.onHttpReceive ConstHTTP.HTTP_OK ConstHTTP.NOTICE_LIST data = .ok (v.listed updates) := by
  obtain ⟨hvalid, fields, items, rfl, hitems, hupdates⟩ := h
  rw [onHttpReceive_list hvalid]
  exact bind_eq_ok.mpr ⟨items, hitems, bind_eq_ok.mpr ⟨updates, hupdates, rfl⟩⟩

/-- An answer is read as a list, or it does nothing. -/
theorem onHttpReceive_cases [Platform] (v : NoticeView) (type actionId : Int) (data : Option Json) :
    (type = ConstHTTP.HTTP_OK ∧ actionId = ConstHTTP.NOTICE_LIST ∧
      ∃ fields, data = some (.obj fields) ∧ Json.isValid data = .ok true) ∨
    (Returns (Json.isValid data) ∧ v.onHttpReceive type actionId data = .ok v) ∨
    ∃ e, Json.isValid data = .error e ∧ v.onHttpReceive type actionId data = .error e := by
  cases hvalid : Json.isValid data with
  | error e =>
    refine Or.inr (Or.inr ⟨e, rfl, ?_⟩)
    unfold onHttpReceive
    rw [hvalid]
    rfl
  | ok valid =>
    by_cases hread : type = ConstHTTP.HTTP_OK ∧ valid = true ∧ actionId = ConstHTTP.NOTICE_LIST
    · obtain ⟨htype, rfl, hid⟩ := hread
      obtain ⟨fields, hfields⟩ := Json.isValid_true hvalid
      exact Or.inl ⟨htype, hid, fields, hfields, rfl⟩
    · refine Or.inr (Or.inl ⟨.ok valid, ?_⟩)
      unfold onHttpReceive
      simp only [hvalid, ok_bind]
      split
      · next hid =>
        rw [if_neg fun hok => hread ⟨hok.1, hok.2, hid⟩]
        rfl
      · rfl

end NoticeView
end KBucket
