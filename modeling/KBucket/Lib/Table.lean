import Mathlib.Data.List.Nodup
import Mathlib.Data.List.Perm.Basic

/-!
# A table with a primary key

A table is a list of rows no two of which share a key; that no two do is a field, so a table
with a repeated key cannot be built. The order of the rows is the order in which a store hands
them out. Stores do not promise that order, so two tables are the `Same` when one is a
permutation of the other.

A row enters through `insert?` at the end, or `none` is answered where a store raises. Rows leave
through `deleteWhere`, which does not keep the order of those that stay: the last row moves to
where one is taken out, so that no other has to move. What is said of the rows that stay is
therefore said of membership, or up to a permutation (`rows_deleteWhere_perm`).
-/

namespace Lib

variable {α κ : Type*} {key : α → κ}

/-- Rows with pairwise distinct keys. -/
structure Table (α : Type*) (κ : Type*) (key : α → κ) where
  rows : List α
  nodup : (rows.map key).Nodup
  deriving DecidableEq

namespace Table

@[ext] theorem ext {t u : Table α κ key} (h : t.rows = u.rows) : t = u := by
  cases t; cases u; cases h; rfl

def keys (t : Table α κ key) : List κ := t.rows.map key

def empty : Table α κ key := ⟨[], List.nodup_nil⟩

def singleton (a : α) : Table α κ key := ⟨[a], List.nodup_singleton _⟩

/-- The same rows, in whatever order. -/
def Same (t u : Table α κ key) : Prop := t.rows.Perm u.rows

theorem Same.mem_iff {t u : Table α κ key} (h : t.Same u) {a : α} : a ∈ t.rows ↔ a ∈ u.rows :=
  List.Perm.mem_iff h

theorem mem_keys {t : Table α κ key} {k : κ} : k ∈ t.keys ↔ ∃ a ∈ t.rows, key a = k := by
  simp [keys]

theorem key_mem {t : Table α κ key} {a : α} (h : a ∈ t.rows) : key a ∈ t.keys :=
  mem_keys.mpr ⟨a, h, rfl⟩

/-- The primary key determines the row. -/
theorem eq_of_key_eq (t : Table α κ key) {a b : α} (ha : a ∈ t.rows) (hb : b ∈ t.rows)
    (h : key a = key b) : a = b :=
  List.inj_on_of_nodup_map t.nodup ha hb h

/-! ## Deleting -/

/-- A row is taken out before these: the last of them moves to where it was. -/
def moveLastOver : List α → List α
  | [] => []
  | a :: rows => (a :: rows).getLast (List.cons_ne_nil a rows) :: (a :: rows).dropLast

/-- Taking out the rows that `p` picks, from the last to the first. -/
def eraseUnordered (p : α → Bool) : List α → List α
  | [] => []
  | a :: rows =>
    if p a then moveLastOver (eraseUnordered p rows) else a :: eraseUnordered p rows

theorem moveLastOver_perm (rows : List α) : (moveLastOver rows).Perm rows := by
  cases rows with
  | nil => exact .nil
  | cons a rows =>
    calc (moveLastOver (a :: rows)).Perm
          ((a :: rows).dropLast ++ [(a :: rows).getLast (List.cons_ne_nil a rows)]) :=
        (List.perm_append_singleton _ _).symm
      _ = a :: rows := List.dropLast_append_getLast _

/-- **The rows that stay are those that are not picked**, in whatever order. -/
theorem eraseUnordered_perm (p : α → Bool) (rows : List α) :
    (eraseUnordered p rows).Perm (rows.filter fun a => !p a) := by
  induction rows with
  | nil => exact .nil
  | cons a rows ih =>
    rw [eraseUnordered]
    cases ha : p a with
    | true =>
      rw [List.filter_cons_of_neg (by simp [ha]), if_pos rfl]
      exact (moveLastOver_perm _).trans ih
    | false =>
      rw [List.filter_cons_of_pos (by simp [ha]), if_neg (by simp)]
      exact ih.cons a

-- The last row is moved to where the first was.
example : eraseUnordered (· == 1) [1, 2, 3] = [3, 2] := by decide

theorem eraseUnordered_congr {p q : α → Bool} {rows : List α} (h : ∀ a ∈ rows, p a = q a) :
    eraseUnordered p rows = eraseUnordered q rows := by
  induction rows with
  | nil => rfl
  | cons a rows ih =>
    rw [eraseUnordered, eraseUnordered, h a List.mem_cons_self,
      ih fun b hb => h b (List.mem_cons_of_mem a hb)]

theorem eraseUnordered_eq_self {p : α → Bool} {rows : List α} (h : ∀ a ∈ rows, p a = false) :
    eraseUnordered p rows = rows := by
  induction rows with
  | nil => rfl
  | cons a rows ih =>
    rw [eraseUnordered, h a List.mem_cons_self, ih fun b hb => h b (List.mem_cons_of_mem a hb)]
    rfl

/-- The table without the rows that `p` picks. -/
def deleteWhere (t : Table α κ key) (p : α → Bool) : Table α κ key where
  rows := eraseUnordered p t.rows
  nodup := ((eraseUnordered_perm p t.rows).map key).nodup_iff.mpr
    (t.nodup.sublist (t.rows.filter_sublist.map key))

theorem rows_deleteWhere_perm (t : Table α κ key) (p : α → Bool) :
    (t.deleteWhere p).rows.Perm (t.rows.filter fun a => !p a) :=
  eraseUnordered_perm p t.rows

theorem mem_deleteWhere {t : Table α κ key} {p : α → Bool} {a : α} :
    a ∈ (t.deleteWhere p).rows ↔ a ∈ t.rows ∧ p a = false := by
  rw [(t.rows_deleteWhere_perm p).mem_iff]
  simp

theorem deleteWhere_congr {t : Table α κ key} {p q : α → Bool}
    (h : ∀ a ∈ t.rows, p a = q a) : t.deleteWhere p = t.deleteWhere q :=
  ext (eraseUnordered_congr h)

theorem deleteWhere_eq_self {t : Table α κ key} {p : α → Bool}
    (h : ∀ a ∈ t.rows, p a = false) : t.deleteWhere p = t :=
  ext (eraseUnordered_eq_self h)

theorem deleteWhere_eq_empty {t : Table α κ key} {p : α → Bool}
    (h : ∀ a ∈ t.rows, p a = true) : t.deleteWhere p = empty := by
  have hnone : t.rows.filter (fun a => !p a) = [] :=
    List.filter_eq_nil_iff.mpr fun a ha => by simp [h a ha]
  have hperm := t.rows_deleteWhere_perm p
  rw [hnone] at hperm
  exact ext hperm.eq_nil

/-! ## Selecting -/

theorem filter_key_of_mem [DecidableEq κ] {t : Table α κ key} {a : α} (ha : a ∈ t.rows) :
    t.rows.filter (fun b => key b == key a) = [a] := by
  have hnd : (t.rows.filter fun b => key b == key a).Nodup :=
    (List.Nodup.of_map key t.nodup).filter _
  have hmem : a ∈ t.rows.filter fun b => key b == key a := by simp [ha]
  have hall : ∀ b ∈ t.rows.filter fun b => key b == key a, b = a := by
    intro b hb
    obtain ⟨hb, hk⟩ := List.mem_filter.mp hb
    exact t.eq_of_key_eq hb ha (by simpa using hk)
  match h : t.rows.filter (fun b => key b == key a) with
  | [] => rw [h] at hmem; cases hmem
  | [b] => rw [h] at hall; rw [hall b (by simp)]
  | b :: c :: rest =>
    rw [h] at hall hnd
    have hbc : b = c := (hall b (by simp)).trans (hall c (by simp)).symm
    simp [hbc] at hnd

/-- The row stored under a key. -/
def find? [DecidableEq κ] (t : Table α κ key) (k : κ) : Option α :=
  t.rows.find? fun a => key a == k

theorem find?_of_mem [DecidableEq κ] {t : Table α κ key} {a : α} (ha : a ∈ t.rows) :
    t.find? (key a) = some a := by
  have hhead : (t.rows.filter fun b => key b == key a).head? = some a := by
    rw [filter_key_of_mem ha]
    rfl
  rw [find?, ← List.head?_filter]
  exact hhead

theorem filter_key_of_notMem [DecidableEq κ] {t : Table α κ key} {k : κ} (hk : k ∉ t.keys) :
    t.rows.filter (fun b => key b == k) = [] := by
  refine List.filter_eq_nil_iff.mpr fun b hb hbk => hk ?_
  exact mem_keys.mpr ⟨b, hb, by simpa using hbk⟩

/-- The table without the row stored under `k`, if there is one. -/
def erase [DecidableEq κ] (t : Table α κ key) (k : κ) : Table α κ key :=
  t.deleteWhere fun a => key a == k

@[simp] theorem mem_erase [DecidableEq κ] {t : Table α κ key} {k : κ} {a : α} :
    a ∈ (t.erase k).rows ↔ a ∈ t.rows ∧ key a ≠ k := by
  simp [erase, mem_deleteWhere]

@[simp] theorem mem_keys_erase [DecidableEq κ] {t : Table α κ key} {k l : κ} :
    l ∈ (t.erase k).keys ↔ l ∈ t.keys ∧ l ≠ k := by
  simp only [mem_keys, mem_erase]
  constructor
  · rintro ⟨a, ⟨ha, hk⟩, rfl⟩; exact ⟨⟨a, ha, rfl⟩, hk⟩
  · rintro ⟨⟨a, ha, rfl⟩, hk⟩; exact ⟨a, ⟨ha, hk⟩, rfl⟩

theorem erase_of_notMem [DecidableEq κ] {t : Table α κ key} {k : κ} (hk : k ∉ t.keys) :
    t.erase k = t :=
  deleteWhere_eq_self fun a ha => by
    simpa using fun h : key a = k => hk (mem_keys.mpr ⟨a, ha, h⟩)

/-- A row and the rest of its table. -/
theorem perm_cons_erase [DecidableEq κ] {t : Table α κ key} {a : α} (ha : a ∈ t.rows) :
    t.rows.Perm (a :: (t.erase (key a)).rows) := by
  have h := List.filter_append_perm (fun b => key b == key a) t.rows
  rw [filter_key_of_mem ha] at h
  exact h.symm.trans ((t.rows_deleteWhere_perm _).symm.cons a)

/-! ## Inserting -/

/-- The table with one more row, or `none` if its key is taken. -/
def insert? [DecidableEq κ] (t : Table α κ key) (a : α) : Option (Table α κ key) :=
  if h : key a ∈ t.keys then none
  else some ⟨t.rows ++ [a], by
    rw [List.map_append, List.map_singleton]
    exact List.nodup_append.mpr ⟨t.nodup, List.nodup_singleton _, fun x hx y hy hxy =>
      h (by rw [List.mem_singleton] at hy; subst hy; exact hxy ▸ hx)⟩⟩

theorem insert?_eq_none [DecidableEq κ] {t : Table α κ key} {a : α} :
    t.insert? a = none ↔ key a ∈ t.keys := by
  unfold insert?; split <;> simp_all

theorem insert?_eq_some [DecidableEq κ] {t u : Table α κ key} {a : α} :
    t.insert? a = some u ↔ key a ∉ t.keys ∧ u.rows = t.rows ++ [a] := by
  unfold insert?
  split
  · next h => simp [h]
  · next h =>
    refine ⟨fun hu => ⟨h, by cases hu; rfl⟩, fun hu => ?_⟩
    rw [Option.some.injEq]
    exact ext hu.2.symm

/-! ## Looking up -/

theorem find?_eq_some [DecidableEq κ] {t : Table α κ key} {k : κ} {a : α} :
    t.find? k = some a ↔ a ∈ t.rows ∧ key a = k := by
  constructor
  · intro h
    exact ⟨List.mem_of_find?_eq_some h, by simpa using List.find?_some h⟩
  · intro h
    obtain ⟨ha, rfl⟩ := h
    exact find?_of_mem ha

theorem find?_eq_none [DecidableEq κ] {t : Table α κ key} {k : κ} :
    t.find? k = none ↔ k ∉ t.keys := by
  simp [find?, mem_keys]

/-- Tables with the same rows are looked up alike. -/
theorem find?_congr [DecidableEq κ] {t u : Table α κ key} {k l : κ}
    (h : ∀ a, (a ∈ t.rows ∧ key a = k) ↔ (a ∈ u.rows ∧ key a = l)) : t.find? k = u.find? l := by
  apply Option.ext
  intro a
  rw [find?_eq_some, find?_eq_some, h a]

theorem find?_erase [DecidableEq κ] (t : Table α κ key) (k l : κ) :
    (t.erase k).find? l = if l = k then none else t.find? l := by
  split
  · next h => rw [find?_eq_none, mem_keys_erase]; simp [h]
  · next h =>
    apply find?_congr
    intro a
    rw [mem_erase, and_assoc]
    refine and_congr_right fun _ => ⟨fun ⟨_, ha⟩ => ha, fun ha => ⟨?_, ha⟩⟩
    rw [ha]
    exact h

/-- A row that was added is found under its key, and the others as before. -/
theorem find?_added [DecidableEq κ] {t u : Table α κ key} {a : α} (ha : key a ∉ t.keys)
    (hrows : u.rows = t.rows ++ [a]) (l : κ) :
    u.find? l = if l = key a then some a else t.find? l := by
  split
  · next h =>
    rw [find?_eq_some, hrows]
    simp [h]
  · next h =>
    apply find?_congr
    intro b
    simp only [hrows, List.mem_append, List.mem_singleton, or_and_right, or_iff_left_iff_imp]
    rintro ⟨rfl, hb⟩
    exact absurd hb.symm h

end Table
end Lib
