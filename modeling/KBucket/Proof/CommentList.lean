import KBucket.Proof.PostData
import KBucket.View.ShareDetailView

/-!
# What the handler of the comments does

`onHttpReceive` is described once, by the cases of its answer, so that neither the exchange with
the server nor the results on casts have to look inside. Only a list answer touches the list; a
receipt makes the screen ask for one.
-/

namespace KBucket
namespace ShareDetailView

variable {v t : ShareDetailView} {type actionId : Int} {data : Option Json}

/-- The list that an answer carries. -/
abbrev Answers [Platform] : Option Json → List Comment → Prop := Json.Lists "CommentVOList" comment

/-- The state after a list has arrived. -/
def listed (v : ShareDetailView) (comments : List Comment) : ShareDetailView :=
  { v with mCommentList := comments, reloads := v.reloads + 1 }

/-- No message traps, and none of them touches the list. -/
theorem handleMessage_returns (v : ShareDetailView) (what : Message) (obj : String) :
    ∃ t, v.handleMessage what obj = .ok t ∧ t.mCommentList = v.mCommentList := by
  cases what with
  | LOAD_COMMENT_LIST =>
    obtain ⟨data, hdata, -⟩ := StringUtils.getHTTPPostSendData_bytes (commentSender v.idx)
    rw [handleMessage, hdata]
    exact ⟨_, rfl, rfl⟩
  | TOAST_MASSEGE => exact ⟨_, rfl, rfl⟩
  | SET_COMMENT_LIST => exact ⟨_, rfl, rfl⟩
  | SERVER_LOADING_FAIL => exact ⟨_, rfl, rfl⟩

theorem onHttpReceive_list [Platform] {fields : List (String × Json)}
    (hvalid : Json.isValid (some (.obj fields)) = .ok true) :
    v.onHttpReceive ConstHTTP.HTTP_OK ConstHTTP.COMMENT_LIST (some (.obj fields)) = (do
      let items ← Json.asArray (fields.lookup "CommentVOList")
      let comments ← items.mapM comment
      return v.listed comments) := by
  unfold onHttpReceive
  rw [hvalid]
  rfl

theorem onHttpReceive_listed [Platform] {comments : List Comment} (h : Answers data comments) :
    v.onHttpReceive ConstHTTP.HTTP_OK ConstHTTP.COMMENT_LIST data = .ok (v.listed comments) := by
  obtain ⟨hvalid, fields, items, rfl, hitems, hcomments⟩ := h
  rw [onHttpReceive_list hvalid]
  exact bind_eq_ok.mpr ⟨items, hitems, bind_eq_ok.mpr ⟨comments, hcomments, rfl⟩⟩

/-- An answer is read as a list, or it leaves the list alone. -/
theorem onHttpReceive_cases [Platform] (v : ShareDetailView) (type actionId : Int)
    (data : Option Json) :
    (type = ConstHTTP.HTTP_OK ∧ actionId = ConstHTTP.COMMENT_LIST ∧
      ∃ fields, data = some (.obj fields) ∧ Json.isValid data = .ok true) ∨
    (Returns (Json.isValid data) ∧
      ∃ t, v.onHttpReceive type actionId data = .ok t ∧ t.mCommentList = v.mCommentList) ∨
    ∃ e, Json.isValid data = .error e ∧ v.onHttpReceive type actionId data = .error e := by
  cases hvalid : Json.isValid data with
  | error e =>
    refine Or.inr (Or.inr ⟨e, rfl, ?_⟩)
    unfold onHttpReceive
    rw [hvalid]
    rfl
  | ok valid =>
    by_cases hread : type = ConstHTTP.HTTP_OK ∧ valid = true ∧ actionId = ConstHTTP.COMMENT_LIST
    · obtain ⟨htype, rfl, hid⟩ := hread
      obtain ⟨fields, hfields⟩ := Json.isValid_true hvalid
      exact Or.inl ⟨htype, hid, fields, hfields, rfl⟩
    · refine Or.inr (Or.inl ⟨.ok valid, ?_⟩)
      unfold onHttpReceive
      simp only [hvalid, ok_bind]
      split
      · next hid =>
        rw [if_neg fun hok => hread ⟨hok.1, hok.2, hid⟩]
        exact handleMessage_returns v .SERVER_LOADING_FAIL ""
      · split
        · split
          · exact handleMessage_returns v .LOAD_COMMENT_LIST ""
          · exact handleMessage_returns v .SERVER_LOADING_FAIL ""
        · exact ⟨v, rfl, rfl⟩

end ShareDetailView
end KBucket
