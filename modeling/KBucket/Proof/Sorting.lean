import KBucket.Proof.WriteList

/-!
# What the sort buttons sort

`sort` reads the stored key and returns early when there is one, where it should when there is
none. Each of the three buttons stores a key first, so a press changes the key and never the
list; and a list that is loaded is sorted only as long as no key has been stored. What the
buttons promise then holds of the lists that are in order already.

Strings are compared through `nfc`, as Swift compares them. In which order the store hands out its
rows is not asked, and after a deletion it is not the order of insertion: what the screen promises
is about the list that it has, in whatever order that came.
-/

namespace KBucket
namespace WriteView

open Lib

variable {nfc : String → String} {v : WriteView}

/-- The buttons that sort. -/
inductive SortButton where
  | btSortLastest | btSortName | btSortDeadLine
  deriving DecidableEq, Repr

namespace SortButton

def button : SortButton → WriteButton
  | btSortLastest => .btSortLastest
  | btSortName => .btSortName
  | btSortDeadLine => .btSortDeadLine

/-- The key that a button stores. -/
def key : SortButton → String
  | btSortLastest => ContextUtils.SORT_DATE
  | btSortName => ContextUtils.SORT_MEMO
  | btSortDeadLine => ContextUtils.SORT_DEADLINE

end SortButton

def press (nfc : String → String) (v : WriteView) (b : SortButton) : Except Trap WriteView :=
  onClick nfc v b.button

/-- The key that `sort` reads. -/
def storedKey (device : Device) : String :=
  UserDefault.read device.defaults ContextUtils.KBUCKET_SORT_KEY

/-- The contents that the screen loads, in the order of the store. -/
def loaded (device : Device) : List String :=
  (device.realm.rows.filter fun b => !skipped b).map Bucket.mContent

/-- The order that the branches of `sort` give a list: ascending under two of the keys,
    descending under every other. -/
def Ordered (nfc : String → String) (key : String) (list : List String) : Prop :=
  if key = ContextUtils.SORT_DATE ∨ key = ContextUtils.SORT_MEMO then
    list.Pairwise fun a b => stringLt nfc b a = false
  else
    list.Pairwise fun a b => stringLt nfc a b = false

/-- A press stores its key and ends in a reordering of the list, in the order of that key. -/
def Obeys (nfc : String → String) (v : WriteView) (b : SortButton) (o : Except Trap WriteView) :
    Prop :=
  ∃ v', o = .ok v' ∧ storedKey v'.device = b.key ∧ v'.mDataList.Perm v.mDataList ∧
    Ordered nfc b.key v'.mDataList

/-! ## What `sort` does -/

theorem sort_of_key (h : storedKey v.device ≠ "") : sort nfc v = v := by
  have hlen : (storedKey v.device).length > 0 := by
    rw [gt_iff_lt, Nat.pos_iff_ne_zero, ne_eq, String.length_eq_zero_iff]
    exact h
  exact if_pos hlen

theorem sort_of_no_key (h : storedKey v.device = "") :
    sort nfc v = { v with mDataList := sortBy (fun a b => stringLt nfc b a) v.mDataList } := by
  unfold storedKey at h
  unfold sort
  simp only [h]
  rfl

theorem stringLt_eq_false {a b : String} : stringLt nfc a b = false ↔ nfc b ≤ nfc a := by
  rw [stringLt, decide_eq_false_iff_not, String.not_lt]

/-- Sorting by `>` leaves no earlier content below a later one. -/
theorem sortBy_descending (list : List String) :
    (sortBy (fun a b => stringLt nfc b a) list).Pairwise fun a b => stringLt nfc a b = false := by
  have htotal : Std.Total fun a b => (!stringLt nfc a b) = true := by
    constructor
    intro a b
    rw [Bool.not_eq_true', Bool.not_eq_true', stringLt_eq_false, stringLt_eq_false]
    exact String.le_total _ _
  have htrans : IsTrans String fun a b => (!stringLt nfc a b) = true := by
    constructor
    intro a b c hab hbc
    rw [Bool.not_eq_true', stringLt_eq_false] at hab hbc ⊢
    exact String.le_trans hbc hab
  refine (List.pairwise_insertionSort _ list).imp fun h => ?_
  rwa [Bool.not_eq_true'] at h

/-! ## The presses -/

theorem storedKey_writeSortKey (v : WriteView) (key : String) :
    storedKey (v.writeSortKey key).device = key :=
  UserDefault.read_write _ _ _

theorem press_eq (b : SortButton) : press nfc v b = .ok (v.writeSortKey b.key) := by
  have hne : storedKey (v.writeSortKey b.key).device ≠ "" := by
    rw [storedKey_writeSortKey]
    cases b <;> decide
  have hpress : press nfc v b = .ok (sort nfc (v.writeSortKey b.key)) := by cases b <;> rfl
  rw [hpress, sort_of_key hne]

theorem obeys_iff (v : WriteView) (b : SortButton) :
    Obeys nfc v b (press nfc v b) ↔ Ordered nfc b.key v.mDataList := by
  rw [press_eq]
  constructor
  · intro h
    obtain ⟨v', heq, -, -, hord⟩ := h
    cases heq
    exact hord
  · intro h
    exact ⟨_, rfl, storedKey_writeSortKey v b.key, List.Perm.refl _, h⟩

theorem eachStep_obeys_iff (v : WriteView) (presses : List SortButton) :
    EachStep (press nfc) (Obeys nfc) v presses ↔ ∀ b ∈ presses, Ordered nfc b.key v.mDataList := by
  induction presses generalizing v with
  | nil => simp [EachStep]
  | cons b presses ih =>
    rw [EachStep, obeys_iff, List.forall_mem_cons]
    refine and_congr_right fun _ => ?_
    rw [press_eq]
    constructor
    · intro h
      exact (ih (v.writeSortKey b.key)).mp (h _ rfl)
    · intro h t ht
      cases ht
      exact (ih (v.writeSortKey b.key)).mpr h

/-! ## Opening the screen -/

theorem viewDidLoad_loaded (nfc : String → String) (device : Device) :
    viewDidLoad nfc device = sort nfc { device, mDataList := loaded device } := by
  unfold viewDidLoad
  simp only [foldl_unless, Bool.decide_eq_true, List.nil_append]
  rfl

theorem ordered_viewDidLoad_iff (device : Device) :
    Ordered nfc (storedKey device) (viewDidLoad nfc device).mDataList ↔
      storedKey device = "" ∨ Ordered nfc (storedKey device) (loaded device) := by
  rw [viewDidLoad_loaded]
  by_cases hkey : storedKey device = ""
  · rw [sort_of_no_key hkey, hkey]
    refine ⟨fun _ => .inl rfl, fun _ => ?_⟩
    exact sortBy_descending (loaded device)
  · rw [sort_of_key hkey]
    exact (or_iff_right hkey).symm

/-- **The list is in the order of the key exactly when it was before**: a sequence of presses
    obeys its buttons if and only if the list on display is already in the order of each of them,
    and opening the screen sorts what it loads only while no key is stored.

    No assumption is made about the order in which the store hands out its rows, nor about the key
    that is stored. -/
theorem sort_obeys_iff (nfc : String → String) :
    (∀ (v : WriteView) (presses : List SortButton),
      EachStep (press nfc) (Obeys nfc) v presses ↔
        ∀ b ∈ presses, Ordered nfc b.key v.mDataList) ∧
    ∀ device : Device,
      (viewDidLoad nfc device).mDataList.Perm (loaded device) ∧
      (Ordered nfc (storedKey device) (viewDidLoad nfc device).mDataList ↔
        storedKey device = "" ∨ Ordered nfc (storedKey device) (loaded device)) := by
  refine ⟨eachStep_obeys_iff, fun device => ⟨?_, ordered_viewDidLoad_iff device⟩⟩
  obtain ⟨list, heq, hperm⟩ := viewDidLoad_eq nfc device
  rw [heq]
  exact hperm

/-- A store that hands out "b" before "a", on a device where no button has been pressed. -/
def bThenA : Device where
  realm := { rows := [{ mContent := "b" }, { mContent := "a" }], nodup := by decide }
  defaults := fun _ => none

/-- The list by name that the button promises is "a", "b": the press leaves the list as it is, and
    so does opening the screen again. -/
theorem sort_ignores_button :
    (¬ ∀ (v : WriteView) (presses : List SortButton), EachStep (press id) (Obeys id) v presses) ∧
    (¬ ∀ device : Device,
      Ordered id (storedKey device) (viewDidLoad id device).mDataList) ∧
    ∃ v, press id (viewDidLoad id bThenA) .btSortName = .ok v ∧
      storedKey v.device = ContextUtils.SORT_MEMO ∧ v.mDataList = ["b", "a"] ∧
      (viewDidLoad id v.device).mDataList = ["b", "a"] := by
  have hunordered : ¬ Ordered id ContextUtils.SORT_MEMO ["b", "a"] := by
    unfold Ordered
    decide
  refine ⟨fun h => ?_, fun h => ?_, _, rfl, rfl, rfl, rfl⟩
  · obtain ⟨⟨v', heq, -, -, hord⟩, -⟩ := h (viewDidLoad id bThenA) [.btSortName]
    cases heq
    exact hunordered hord
  · exact hunordered (h ((viewDidLoad id bThenA).writeSortKey ContextUtils.SORT_MEMO).device)

end WriteView
end KBucket
