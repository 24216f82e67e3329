import Mathlib.Data.List.Nodup

/-!
# Segments of a doubly linked list

A heap of doubly linked cells is seen through two functions, `next` and `previous`, from an
address to the address it links to. `Dlseg next previous before as after` says that the addresses
`as` are linked one to the next in both directions, the first back to `before` and the last on to
`after`.

A program that relinks cells is verified by cutting the segment where it writes
(`Dlseg.append_iff`), moving the parts it does not write (`Dlseg.congr`), and giving the parts
whose end it writes their new neighbour (`Dlseg.relink_after`, `Dlseg.relink_before`).

`Forward next start as` is what a loop that follows `next` from `start` down to `nil` goes through.
-/

namespace Lib

variable {α : Type*} {next previous next' previous' : α → Option α}

def Dlseg (next previous : α → Option α) : Option α → List α → Option α → Prop
  | _, [], _ => True
  | before, a :: as, after =>
    previous a = before ∧ next a = as.head?.or after ∧ Dlseg next previous (some a) as after

/-- The addresses that `next` leads through, from `start` until it gives `none`. -/
inductive Forward (next : α → Option α) : Option α → List α → Prop
  | nil : Forward next none []
  | cons {a : α} {as : List α} : Forward next (next a) as → Forward next (some a) (a :: as)

/-- There is one way forward. -/
theorem Forward.unique {start : Option α} {as bs : List α} (ha : Forward next start as)
    (hb : Forward next start bs) : as = bs := by
  induction ha generalizing bs with
  | nil => cases hb; rfl
  | cons _ ih =>
    cases hb with
    | cons hb => rw [ih hb]

/-- The way forward is read off the links of what is on it. -/
theorem Forward.congr {start : Option α} {as : List α} (h : Forward next start as)
    (hnext : ∀ a ∈ as, next' a = next a) : Forward next' start as := by
  induction h with
  | nil => exact .nil
  | @cons a as _ ih =>
    refine .cons ?_
    rw [hnext a List.mem_cons_self]
    exact ih fun b hb => hnext b (List.mem_cons_of_mem a hb)

theorem Forward.mem {a : α} {as : List α} (h : Forward next (some a) as) : a ∈ as := by
  cases h with
  | cons _ => exact List.mem_cons_self

namespace Dlseg

@[simp] theorem nil (before after : Option α) : Dlseg next previous before [] after := trivial

theorem singleton_iff {before after : Option α} {a : α} :
    Dlseg next previous before [a] after ↔ previous a = before ∧ next a = after := by
  simp [Dlseg]

/-- **A segment is cut anywhere**: each part has its neighbour in the other. -/
theorem append_iff {before after : Option α} {as bs : List α} :
    Dlseg next previous before (as ++ bs) after ↔
      Dlseg next previous before as (bs.head?.or after) ∧
        Dlseg next previous (as.getLast?.or before) bs after := by
  induction as generalizing before with
  | nil => simp
  | cons a as ih =>
    have hlast : (a :: as).getLast?.or before = as.getLast?.or (some a) := by
      rw [List.getLast?_cons]
      cases as.getLast? <;> rfl
    have hhead : (as ++ bs).head?.or after = as.head?.or (bs.head?.or after) := by
      cases as <;> rfl
    simp only [List.cons_append, Dlseg, ih, hlast, hhead]
    constructor
    · intro h
      obtain ⟨hp, hn, has, hbs⟩ := h
      exact ⟨⟨hp, hn, has⟩, hbs⟩
    · intro h
      obtain ⟨⟨hp, hn, has⟩, hbs⟩ := h
      exact ⟨hp, hn, has, hbs⟩

/-- A segment survives what happens to other cells. -/
theorem congr {before after : Option α} {as : List α} (h : Dlseg next previous before as after)
    (hn : ∀ a ∈ as, next' a = next a) (hp : ∀ a ∈ as, previous' a = previous a) :
    Dlseg next' previous' before as after := by
  induction as generalizing before with
  | nil => trivial
  | cons a as ih =>
    obtain ⟨hpa, hna, has⟩ := h
    refine ⟨?_, ?_, ?_⟩
    · rw [hp a (by simp), hpa]
    · rw [hn a (by simp), hna]
    · exact ih has (fun b hb => hn b (by simp [hb])) (fun b hb => hp b (by simp [hb]))

/-- The last cell is given another next. -/
theorem relink_after [DecidableEq α] {before after after' : Option α} {as : List α}
    (h : Dlseg next previous before as after) (hnodup : as.Nodup)
    (hn : ∀ a ∈ as, next' a = if as.getLast? = some a then after' else next a)
    (hp : ∀ a ∈ as, previous' a = previous a) : Dlseg next' previous' before as after' := by
  rcases List.eq_nil_or_concat as with rfl | ⟨as, a, rfl⟩
  · trivial
  · rw [List.concat_eq_append] at h hnodup hn hp ⊢
    obtain ⟨has, ha⟩ := append_iff.mp h
    have hfresh : a ∉ as := by
      intro hmem
      exact (List.disjoint_of_nodup_append hnodup) hmem (by simp)
    refine append_iff.mpr ⟨?_, ?_⟩
    · refine congr has (fun b hb => ?_) (fun b hb => hp b (by simp [hb]))
      have hne : a ≠ b := by
        rintro rfl
        exact hfresh hb
      rw [hn b (by simp [hb]), if_neg (by simpa using hne)]
    · have hpa := (singleton_iff.mp ha).1
      refine singleton_iff.mpr ⟨?_, ?_⟩
      · rw [hp a (by simp), hpa]
      · rw [hn a (by simp), if_pos (by simp)]

/-- The first cell is given another previous. -/
theorem relink_before [DecidableEq α] {before before' after : Option α} {as : List α}
    (h : Dlseg next previous before as after) (hnodup : as.Nodup)
    (hn : ∀ a ∈ as, next' a = next a)
    (hp : ∀ a ∈ as, previous' a = if as.head? = some a then before' else previous a) :
    Dlseg next' previous' before' as after := by
  cases as with
  | nil => trivial
  | cons a as =>
    obtain ⟨-, hna, has⟩ := h
    have hfresh : a ∉ as := (List.nodup_cons.mp hnodup).1
    refine ⟨?_, ?_, ?_⟩
    · rw [hp a (by simp), if_pos (by simp)]
    · rw [hn a (by simp), hna]
    · refine congr has (fun b hb => hn b (by simp [hb])) (fun b hb => ?_)
      have hne : a ≠ b := by
        rintro rfl
        exact hfresh hb
      rw [hp b (by simp [hb]), if_neg (by simpa using hne)]

/-- The neighbours of a cell in the middle. -/
theorem neighbours {before after : Option α} {as bs : List α} {a : α}
    (h : Dlseg next previous before (as ++ a :: bs) after) :
    previous a = as.getLast?.or before ∧ next a = bs.head?.or after := by
  obtain ⟨-, hp, hn, -⟩ := append_iff.mp h
  exact ⟨hp, hn⟩

/-- **`next` and `previous` are inverse to each other along a segment.** -/
theorem next_eq_iff {before after : Option α} {as : List α}
    (h : Dlseg next previous before as after) {a b : α} (ha : a ∈ as) (hb : b ∈ as)
    (hbefore : before ≠ some a) (hafter : after ≠ some b) :
    next a = some b ↔ previous b = some a := by
  constructor
  · intro hab
    obtain ⟨xs, ys, rfl⟩ := List.append_of_mem ha
    have hnext := (neighbours h).2
    rw [hab] at hnext
    cases ys with
    | nil => exact absurd hnext.symm hafter
    | cons c zs =>
      obtain rfl : b = c := Option.some.inj hnext
      obtain ⟨-, -, -, hp, -⟩ := append_iff.mp h
      exact hp
  · intro hba
    obtain ⟨xs, ys, rfl⟩ := List.append_of_mem hb
    have hprevious := (neighbours h).1
    rw [hba] at hprevious
    rcases List.eq_nil_or_concat xs with rfl | ⟨zs, c, rfl⟩
    · exact absurd hprevious.symm hbefore
    · obtain rfl : a = c := by simpa using hprevious
      rw [List.concat_eq_append, List.append_assoc, List.singleton_append] at h
      exact (neighbours h).2

/-- Following `next` from the head goes through the whole segment. -/
theorem forward {before : Option α} {as : List α} (h : Dlseg next previous before as none) :
    Forward next as.head? as := by
  induction as generalizing before with
  | nil => exact .nil
  | cons a as ih =>
    obtain ⟨-, hn, has⟩ := h
    rw [Option.or_none] at hn
    exact .cons (hn ▸ ih has)

end Dlseg
end Lib
