import Mathlib.Order.PiLex

/-!
# The order on versions

A version is a list of components, of which the first that differs decides, and a component that
is not written counts as zero. So it is a function on the naturals that ends in zeros, and the
order is the lexicographic one (`Pi.Lex`), which is total.

`versionOrder xs ys` is what a three-way comparison should give: 1 where `ys` is the later one,
-1 where it is the earlier one, 0 where they are the same version.
-/

namespace Lib

variable {α : Type*} [LinearOrder α] [Zero α] {x y : α} {xs ys zs : List α}

def version (xs : List α) : Lex (ℕ → α) := toLex fun i => xs.getD i 0

/-- `ys` comes after `xs`. -/
def Later (xs ys : List α) : Prop := version xs < version ys

noncomputable def versionOrder (xs ys : List α) : Int :=
  open Classical in if Later xs ys then 1 else if Later ys xs then -1 else 0

theorem Later.asymm (h : Later xs ys) : ¬ Later ys xs := lt_asymm h

theorem Later.trans (h : Later xs ys) (h' : Later ys zs) : Later xs zs := lt_trans h h'

/-- The first component decides, and the others where it is the same. -/
theorem later_cons_iff : Later (x :: xs) (y :: ys) ↔ x < y ∨ (x = y ∧ Later xs ys) := by
  constructor
  · intro h
    obtain ⟨i, hsame, hlt⟩ := h
    cases i with
    | zero => exact Or.inl hlt
    | succ i => exact Or.inr ⟨hsame 0 (Nat.succ_pos i), i,
        fun j hj => hsame (j + 1) (Nat.succ_lt_succ hj), hlt⟩
  · intro h
    rcases h with h | ⟨rfl, i, hsame, hlt⟩
    · exact ⟨0, fun j hj => absurd hj (Nat.not_lt_zero j), h⟩
    · refine ⟨i + 1, fun j hj => ?_, hlt⟩
      cases j with
      | zero => rfl
      | succ j => exact hsame j (Nat.lt_of_succ_lt_succ hj)

theorem versionOrder_of_later (h : Later xs ys) : versionOrder xs ys = 1 := by
  rw [versionOrder, if_pos h]

theorem versionOrder_of_earlier (h : Later ys xs) : versionOrder xs ys = -1 := by
  rw [versionOrder, if_neg h.asymm, if_pos h]

theorem versionOrder_eq_one : versionOrder xs ys = 1 ↔ Later xs ys := by
  constructor
  · intro h
    by_contra hnot
    rw [versionOrder, if_neg hnot] at h
    split at h <;> cases h
  · exact versionOrder_of_later

theorem versionOrder_pos : 0 < versionOrder xs ys ↔ Later xs ys := by
  rw [← versionOrder_eq_one]
  unfold versionOrder
  split
  · simp
  · split <;> simp

/-- Neither is later exactly when they are the same version. -/
theorem versionOrder_eq_zero : versionOrder xs ys = 0 ↔ version xs = version ys := by
  rcases lt_trichotomy (version xs) (version ys) with h | h | h
  · rw [versionOrder_of_later h]
    simp [h.ne]
  · have hnot : ¬ Later xs ys := h.not_lt
    have hnot' : ¬ Later ys xs := h.not_gt
    simp [versionOrder, hnot, hnot', h]
  · rw [versionOrder_of_earlier h]
    simp [h.ne']

theorem versionOrder_swap : versionOrder ys xs = -versionOrder xs ys := by
  by_cases h : Later xs ys
  · rw [versionOrder_of_later h, versionOrder_of_earlier h]
  · by_cases h' : Later ys xs
    · rw [versionOrder_of_later h', versionOrder_of_earlier h']
      rfl
    · rw [versionOrder, versionOrder, if_neg h, if_neg h', if_neg h', if_neg h]
      rfl

theorem versionOrder_cons : versionOrder (x :: xs) (y :: ys) =
    if x < y then 1 else if y < x then -1 else versionOrder xs ys := by
  rcases lt_trichotomy x y with h | rfl | h
  · rw [if_pos h, versionOrder_of_later (later_cons_iff.mpr (Or.inl h))]
  · have hlater : ∀ xs ys : List α, Later (x :: xs) (x :: ys) ↔ Later xs ys := by
      intro xs ys
      rw [later_cons_iff]
      simp
    rw [if_neg (lt_irrefl x), if_neg (lt_irrefl x)]
    by_cases h : Later xs ys
    · rw [versionOrder_of_later h, versionOrder_of_later ((hlater xs ys).mpr h)]
    · have h' := mt (hlater xs ys).mp h
      by_cases hback : Later ys xs
      · rw [versionOrder_of_earlier hback, versionOrder_of_earlier ((hlater ys xs).mpr hback)]
      · have hback' := mt (hlater ys xs).mp hback
        rw [versionOrder, versionOrder, if_neg h, if_neg h', if_neg hback, if_neg hback']
  · rw [if_neg (lt_asymm h), if_pos h,
      versionOrder_of_earlier (later_cons_iff.mpr (Or.inl h))]

end Lib
