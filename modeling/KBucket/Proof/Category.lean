import KBucket.Proof.ShareList
import KBucket.ShareExchange

/-!
# The list belongs to the category

Every answer replaces the list, whichever category it is for. So what is shown once nothing is
under way is decided by the answer that comes last, and by nothing else.

The server is a parameter: that it answers a request with the list of the request's own category
is asked of it (`Serves`), and nothing else. No order of the answers is assumed, which the network
does not promise either, and the condition of `list_belongs_iff` is one on that order. A request
that is lost is no event here. It ends the process, and there is no list to speak of then.
-/

namespace KBucket
namespace ShareExchange

open Lib ShareListView

variable {server : String → Json} {list : CategoryButton → List Bucket} {s : ShareExchange}

/-- The server's answer to the request for a category is a valid one, with that category's list. -/
def Serves [Platform] (server : String → Json) (list : CategoryButton → List Bucket) : Prop :=
  ∀ sender, Answers (some (server (listRequest sender).data)) (list sender)

/-- With nothing under way, the list is the server's list for the last tapped category. -/
def Belongs (list : CategoryButton → List Bucket) (s : ShareExchange) : Prop :=
  s.view.requests = [] → ∀ sender, s.lastTapped = some sender →
    s.view.mBucketDataList = list sender

/-- A tap that sends nothing, with nothing under way, is on the category that is shown; and an
    answer that leaves nothing under way is for the category that was tapped last, or for one
    whose list is the same. -/
def LastComesLast (list : CategoryButton → List Bucket) (s : ShareExchange) : Event → Prop
  | .tap sender isConnect =>
    isConnect = false → s.view.requests = [] → s.view.mBucketDataList = list sender
  | .deliver i =>
    ∀ answered sender, s.view.requests = [listRequest answered] → i = 0 →
      s.lastTapped = some sender → list answered = list sender

/-- Every request under way is for the list of a category. -/
def ForLists (s : ShareExchange) : Prop :=
  ∀ r ∈ s.view.requests, ∃ sender, r = listRequest sender

/-- **A delivered answer replaces the list by that of the category it answers.** -/
theorem step_deliver [Platform] (hserver : Serves server list) {i : Nat} {sender : CategoryButton}
    (hi : s.view.requests[i]? = some (listRequest sender)) :
    step server s (.deliver i) = .ok { s with view :=
      { s.view with requests := s.view.requests.eraseIdx i }.listed (list sender) } := by
  simp only [step, hi]
  exact bind_eq_ok.mpr ⟨_, onHttpReceive_listed (hserver sender), rfl⟩

theorem forLists_step [Platform] (hserver : Serves server list) {e : Event} {t : ShareExchange}
    (hs : s.ForLists) (h : step server s e = .ok t) : t.ForLists := by
  cases e with
  | tap sender isConnect =>
    cases h
    intro r hr
    simp only [(onClick_keeps s.view sender isConnect).2] at hr
    split at hr
    · rcases List.mem_append.mp hr with hr | hr
      · exact hs r hr
      · exact ⟨sender, List.mem_singleton.mp hr⟩
    · exact hs r hr
  | deliver i =>
    cases hi : s.view.requests[i]? with
    | none =>
      simp only [step, hi] at h
      cases h
      exact hs
    | some request =>
      obtain ⟨sender, rfl⟩ := hs request (List.mem_of_getElem? hi)
      rw [step_deliver hserver hi] at h
      cases h
      intro r hr
      exact hs r (List.mem_of_mem_eraseIdx hr)

/-- Nothing is left under way by the answer to the only request. -/
theorem eraseIdx_eq_nil {α : Type} {xs : List α} {i : Nat} {x : α} (hi : xs[i]? = some x) :
    xs.eraseIdx i = [] ↔ xs = [x] ∧ i = 0 := by
  rw [List.eraseIdx_eq_nil_iff]
  constructor
  · intro h
    rcases h with rfl | ⟨hone, rfl⟩
    · cases hi
    · obtain ⟨y, rfl⟩ := List.length_eq_one_iff.mp hone
      cases hi
      exact ⟨rfl, rfl⟩
  · intro h
    obtain ⟨rfl, rfl⟩ := h
    exact Or.inr ⟨rfl, rfl⟩

theorem tap_belongs_iff [Platform] {sender : CategoryButton} {isConnect : Bool} :
    (∀ t, step server s (.tap sender isConnect) = .ok t → t.Belongs list) ↔
      s.LastComesLast list (.tap sender isConnect) := by
  obtain ⟨hlist, hrequests⟩ := onClick_keeps s.view sender isConnect
  cases isConnect with
  | true =>
    -- The request just sent is under way.
    refine iff_of_true (fun t h hnil => ?_) (fun h => by cases h)
    cases h
    rw [if_pos rfl] at hrequests
    rw [hrequests] at hnil
    exact absurd hnil (List.append_ne_nil_of_right_ne_nil _ (List.cons_ne_nil _ _))
  | false =>
    rw [if_neg (by simp)] at hrequests
    constructor
    · intro h _ hnil
      have hbelongs := h _ rfl
      rw [← hlist]
      exact hbelongs (hrequests.trans hnil) sender rfl
    · intro h t ht hnil c hc
      cases ht
      cases hc
      rw [hlist]
      exact h rfl (hrequests.symm.trans hnil)

theorem deliver_belongs_iff [Platform] (hserver : Serves server list) {i : Nat} (hf : s.ForLists)
    (hs : s.Belongs list) :
    (∀ t, step server s (.deliver i) = .ok t → t.Belongs list) ↔
      s.LastComesLast list (.deliver i) := by
  cases hi : s.view.requests[i]? with
  | none =>
    refine iff_of_true (fun t h => ?_) (fun answered sender hone hzero => ?_)
    · simp only [step, hi] at h
      cases h
      exact hs
    · rw [hone, hzero] at hi
      cases hi
  | some request =>
    obtain ⟨answered, rfl⟩ := hf request (List.mem_of_getElem? hi)
    constructor
    · intro h answered sender hone hzero hlast
      have hi : s.view.requests[i]? = some (listRequest answered) := by rw [hone, hzero]; rfl
      have hbelongs := h _ (step_deliver hserver hi)
      exact hbelongs ((eraseIdx_eq_nil hi).mpr ⟨hone, hzero⟩) sender hlast
    · intro h t ht hnil sender hlast
      rw [step_deliver hserver hi] at ht
      cases ht
      obtain ⟨hone, hzero⟩ := (eraseIdx_eq_nil hi).mp hnil
      exact h answered sender hone hzero hlast

theorem forLists_load (isConnect : Bool) : (load isConnect).ForLists := by
  intro r hr
  cases isConnect with
  | false => cases hr
  | true => exact ⟨.btCategory0, List.mem_singleton.mp hr⟩

theorem belongs_load (isConnect : Bool) : (load isConnect).Belongs list := by
  intro _ sender h
  cases h

/-- **Throughout a run of taps and answers in any order, the list belongs to the last tapped
    category whenever nothing is under way, exactly when the last answer to come is always the
    one to the last tap.**

    `hserver` says that the server answers the request for a category with that category's list.
    Answers come in any order, and a tap without network sends nothing. -/
theorem list_belongs_iff [Platform] (hserver : Serves server list) (isConnect : Bool)
    (es : List Event) :
    Always (step server) (Belongs list) (load isConnect) es ↔
      Guarded (step server) (LastComesLast list) (load isConnect) es := by
  refine always_iff_guarded (fun s e t hf h => forLists_step hserver hf h) ?_
    (forLists_load isConnect) (belongs_load isConnect) es
  intro s e hf hs
  cases e with
  | tap sender isConnect => exact tap_belongs_iff
  | deliver i => exact deliver_belongs_iff hserver hf hs

/-- A server that has one bucket in each category, named after it. -/
def oneEach (body : String) : Json :=
  .obj [("isValid", .bool true), ("bucketList", .arr [.obj [("content", .str body),
    ("createDt", .str "2017-11-04"), ("phone", .str ""), ("idx", .int 1), ("imageUrl", .str ""),
    ("nickName", .str "kiki"), ("categoryCode", .int 1)]])]

def oneEachList (sender : CategoryButton) : List Bucket :=
  [{ mCategoryCode := 1, mContent := (listRequest sender).data, mCompleteDate := "2017-11-04",
     mIdx := 1, mNickName := "kiki", mDate := "2017-11-04" }]

theorem serves_oneEach : Serves oneEach oneEachList := by
  intro sender
  exact ⟨rfl, _, _, rfl, rfl, rfl⟩

/-- Waiting for each answer before the next tap. -/
theorem list_belongs_waiting :
    Always (step oneEach) (Belongs oneEachList) (load true)
      [.deliver 0, .tap .btCategory1 true, .deliver 0] := by
  apply (list_belongs_iff serves_oneEach true _).mpr
  refine ⟨fun _ _ _ _ h => (by cases h), fun s h => ?_⟩
  obtain rfl := Except.ok.inj h
  refine ⟨fun h => (by cases h), fun s h => ?_⟩
  obtain rfl := Except.ok.inj h
  refine ⟨?_, fun _ _ => trivial⟩
  intro answered sender hone _ hlast
  have hrequest : listRequest .btCategory1 = listRequest answered := List.head_eq_of_cons_eq hone
  cases hlast
  rw [oneEachList, oneEachList, hrequest]

/-- Two taps, and the answer to the first comes last: the list shown is that of a category the
    user has left. -/
theorem late_answer_wins :
    Serves oneEach oneEachList ∧
    ∃ s, Runs (step oneEach) (load true)
        [.deliver 0, .tap .btCategory1 true, .tap .btCategory2 true, .deliver 1, .deliver 0] s ∧
      s.view.requests = [] ∧ s.lastTapped = some .btCategory2 ∧
      s.view.mBucketDataList = oneEachList .btCategory1 ∧
      oneEachList .btCategory1 ≠ oneEachList .btCategory2 := by
  refine ⟨serves_oneEach, _, .cons rfl (.cons rfl (.cons rfl (.cons rfl (.cons rfl (.nil _))))),
    rfl, rfl, rfl, ?_⟩
  decide

end ShareExchange
end KBucket
