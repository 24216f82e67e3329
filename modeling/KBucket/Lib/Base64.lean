import Mathlib.Data.List.Basic

/-!
# Base64

Three bytes are written as four of sixty-four characters, and what is missing of the last three
as `=`. There are no line breaks.
-/

namespace Lib.Base64

def alphabet : List Char :=
  "ABCDEFGHIJKLMNOPQRSTUVWXYZabcdefghijklmnopqrstuvwxyz0123456789+/".toList

/-- The character of a number below 64. -/
def sextet (n : Nat) : Char := alphabet.getD n 'A'

def encode : List UInt8 → List Char
  | [] => []
  | [a] => [sextet (a.toNat / 4), sextet (a.toNat % 4 * 16), '=', '=']
  | [a, b] =>
    [sextet (a.toNat / 4), sextet (a.toNat % 4 * 16 + b.toNat / 16), sextet (b.toNat % 16 * 4), '=']
  | a :: b :: c :: rest =>
    sextet (a.toNat / 4) :: sextet (a.toNat % 4 * 16 + b.toNat / 16) ::
      sextet (b.toNat % 16 * 4 + c.toNat / 64) :: sextet (c.toNat % 64) :: encode rest

theorem sextet_mem (n : Nat) : sextet n ∈ alphabet := by
  unfold sextet
  rw [List.getD_eq_getElem?_getD]
  cases h : alphabet[n]? with
  | none => decide
  | some c => exact List.mem_of_getElem? h

/-- **Nothing else is written.** -/
theorem mem_encode {bytes : List UInt8} {c : Char} (h : c ∈ encode bytes) :
    c ∈ alphabet ∨ c = '=' := by
  induction bytes using encode.induct with
  | case1 => cases h
  | case2 a =>
    simp only [encode, List.mem_cons, List.not_mem_nil, or_false] at h
    rcases h with rfl | rfl | rfl | rfl
    · exact Or.inl (sextet_mem _)
    · exact Or.inl (sextet_mem _)
    · exact Or.inr rfl
    · exact Or.inr rfl
  | case3 a b =>
    simp only [encode, List.mem_cons, List.not_mem_nil, or_false] at h
    rcases h with rfl | rfl | rfl | rfl
    · exact Or.inl (sextet_mem _)
    · exact Or.inl (sextet_mem _)
    · exact Or.inl (sextet_mem _)
    · exact Or.inr rfl
  | case4 a b c rest ih =>
    simp only [encode, List.mem_cons] at h
    rcases h with rfl | rfl | rfl | rfl | h
    · exact Or.inl (sextet_mem _)
    · exact Or.inl (sextet_mem _)
    · exact Or.inl (sextet_mem _)
    · exact Or.inl (sextet_mem _)
    · exact ih h

example : encode [77, 97, 110] = "TWFu".toList := by decide

end Lib.Base64
