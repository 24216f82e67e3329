import Mathlib.Algebra.Group.Nat.Defs
import Mathlib.Data.List.Induction

/-!
# Hexadecimal numbers

Digits are written in upper case and read in either. A number is written with zeros in front up
to a width (`pad`), and what is written reads back (`read_pad`). Texts written one after the
other read as one number: the first is shifted by the length of the second (`read_append`,
`read_eq`).
-/

namespace Lib.Hex

/-- The value of a digit. -/
def value? (c : Char) : Option Nat :=
  if '0' ≤ c ∧ c ≤ '9' then some (c.toNat - 48)
  else if 'a' ≤ c ∧ c ≤ 'f' then some (c.toNat - 87)
  else if 'A' ≤ c ∧ c ≤ 'F' then some (c.toNat - 55)
  else none

/-- Reads digits on from the number before them. -/
def read (n : Nat) : List Char → Option Nat
  | [] => some n
  | c :: cs => (value? c).bind fun d => read (16 * n + d) cs

/-- The number that one digit or more write. -/
def number? (cs : List Char) : Option Nat := if cs = [] then none else read 0 cs

def digits (n : Nat) : List Char := (Nat.toDigits 16 n).map Char.toUpper

/-- The digits, with zeros in front up to a width. -/
def pad (width n : Nat) : List Char := (digits n).leftpad width '0'

/-! ## Reading -/

theorem value?_lt {c : Char} {d : Nat} (h : value? c = some d) : d < 16 := by
  unfold value? at h
  split at h
  · next hc =>
    cases h
    have hle : c.toNat ≤ 57 := hc.2
    omega
  · split at h
    · next hc =>
      cases h
      have hle : c.toNat ≤ 102 := hc.2
      omega
    · split at h
      · next hc =>
        cases h
        have hle : c.toNat ≤ 70 := hc.2
        omega
      · cases h

theorem read_append (n : Nat) (xs ys : List Char) :
    read n (xs ++ ys) = (read n xs).bind fun m => read m ys := by
  induction xs generalizing n with
  | nil => rfl
  | cons c cs ih =>
    rw [List.cons_append, read, read]
    cases value? c with
    | none => rfl
    | some d => exact ih _

/-- What is read on from a number is read apart and added to the number, shifted. -/
theorem read_eq {cs : List Char} {m : Nat} (h : read 0 cs = some m) (n : Nat) :
    read n cs = some (n * 16 ^ cs.length + m) := by
  induction cs using List.reverseRecOn generalizing m with
  | nil =>
    cases h
    simp [read]
  | append_singleton cs c ih =>
    rw [read_append] at h ⊢
    obtain ⟨k, hk, h⟩ := Option.bind_eq_some_iff.mp h
    rw [ih hk]
    cases hc : value? c with
    | none => simp [read, hc] at h
    | some d =>
      simp only [read, hc, Option.bind_some, Option.some.injEq] at h ⊢
      rw [List.length_append, List.length_singleton, Nat.pow_succ, ← Nat.mul_assoc, ← h]
      omega

theorem read_lt {cs : List Char} {m : Nat} (h : read 0 cs = some m) : m < 16 ^ cs.length := by
  induction cs using List.reverseRecOn generalizing m with
  | nil =>
    cases h
    exact Nat.one_pos
  | append_singleton cs c ih =>
    rw [read_append] at h
    obtain ⟨k, hk, h⟩ := Option.bind_eq_some_iff.mp h
    have hlt := ih hk
    cases hc : value? c with
    | none => simp [read, hc] at h
    | some d =>
      have hd := value?_lt hc
      simp only [read, hc, Option.bind_some, Option.some.injEq] at h
      rw [List.length_append, List.length_singleton, Nat.pow_succ]
      omega

/-- Digits read as a number. -/
theorem exists_read {cs : List Char} (h : ∀ c ∈ cs, (value? c).isSome) (n : Nat) :
    ∃ m, read n cs = some m := by
  induction cs generalizing n with
  | nil => exact ⟨n, rfl⟩
  | cons c cs ih =>
    obtain ⟨hc, hcs⟩ := List.forall_mem_cons.mp h
    obtain ⟨d, hd⟩ := Option.isSome_iff_exists.mp hc
    obtain ⟨m, hm⟩ := ih hcs (16 * n + d)
    refine ⟨m, ?_⟩
    rw [read, hd]
    exact hm

theorem isSome_of_read {cs : List Char} {n m : Nat} (h : read n cs = some m) :
    ∀ c ∈ cs, (value? c).isSome := by
  induction cs generalizing n with
  | nil =>
    intro c hc
    cases hc
  | cons c cs ih =>
    obtain ⟨d, hd, h⟩ := Option.bind_eq_some_iff.mp h
    refine List.forall_mem_cons.mpr ⟨?_, ih h⟩
    rw [hd]
    rfl

/-! ## Writing -/

theorem value?_digitChar {d : Nat} (hd : d < 16) :
    value? (Nat.digitChar d).toUpper = some d := by
  have hall : ∀ d : Fin 16, value? (Nat.digitChar d.val).toUpper = some d.val := by decide
  exact hall ⟨d, hd⟩

/-- **A number that is written reads back.** -/
theorem read_digits (n : Nat) : read 0 (digits n) = some n := by
  induction n using Nat.strongRecOn with
  | ind n ih =>
    unfold digits
    rw [Nat.toDigits_eq_if (by decide)]
    split
    · next hlt =>
      rw [List.map_singleton, read, value?_digitChar hlt]
      simp [read]
    · next hge =>
      have hrest := ih (n / 16) (by omega)
      rw [List.map_append, List.map_singleton, read_append]
      show (read 0 (digits (n / 16))).bind _ = _
      rw [hrest, Option.bind_some, read, value?_digitChar (Nat.mod_lt n (by decide))]
      simp only [Option.bind_some, read, Option.some.injEq]
      omega

theorem read_zeros (k : Nat) : read 0 (List.replicate k '0') = some 0 := by
  induction k with
  | zero => rfl
  | succ k ih => exact ih

theorem read_pad (width n : Nat) : read 0 (pad width n) = some n := by
  rw [pad, List.leftpad, read_append, read_zeros, Option.bind_some]
  exact read_digits n

theorem length_pad {width n : Nat} (hwidth : 0 < width) (hn : n < 16 ^ width) :
    (pad width n).length = width := by
  have hdigits : (digits n).length ≤ width := by
    rw [digits, List.length_map]
    exact (Nat.length_toDigits_le_iff (by decide) hwidth).mpr hn
  rw [pad, List.length_leftpad]
  exact Nat.max_eq_left hdigits

/-- Numbers that are written one after the other, each to its width. -/
theorem read_append_pad {xs : List Char} {m n width : Nat} (hxs : read 0 xs = some m)
    (hwidth : 0 < width) (hn : n < 16 ^ width) :
    read 0 (xs ++ pad width n) = some (m * 16 ^ width + n) := by
  rw [read_append, hxs, Option.bind_some, read_eq (read_pad width n), length_pad hwidth hn]

end Lib.Hex
