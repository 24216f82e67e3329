import Mathlib.Data.List.Basic

/-!
# A table that uses its cells again

A table view displays some of its rows, each on a cell of its own. A cell whose row leaves the
display is not thrown away: it waits in a pool until another row needs one, with all that is on
it. A reload puts every cell back into the pool.

`Holds P Q` says what the cells on display have to do with their rows (`P`), and what is left of
that on a cell of the pool (`Q`). Each operation has one lemma about it, and `Holds.display` is
the one for a data source: it only has to answer for a cell of which nothing but `Q` is known.
-/

namespace Lib

variable {β τ : Type*}

/-- The number of rows at the last reload, the cells on display with their rows, and the cells that
    wait to be used again. -/
structure CellTable (β : Type*) where
  rows : Nat := 0
  visible : List (Nat × β) := []
  pool : List β := []

namespace CellTable

/-- The cell on display at a row. -/
def at? (t : CellTable β) (row : Nat) : Option β := t.visible.lookup row

def reload (t : CellTable β) (count : Nat) : CellTable β where
  rows := count
  pool := t.visible.map Prod.snd ++ t.pool

/-- A cell of the pool, or a new one. -/
def dequeue (t : CellTable β) (fresh : β) (i : Nat) : β × CellTable β :=
  match t.pool[i]? with
  | some cell => (cell, { t with pool := t.pool.eraseIdx i })
  | none => (fresh, t)

/-- A row comes on display. -/
def enter (t : CellTable β) (row : Nat) (cell : β) : CellTable β :=
  { t with visible := (row, cell) :: t.visible }

/-- A row goes out of display. -/
def leave (t : CellTable β) (row : Nat) : CellTable β :=
  { t with
    visible := t.visible.filter fun p => p.1 ≠ row
    pool := (t.visible.filter fun p => p.1 = row).map Prod.snd ++ t.pool }

/-- The cell of a row is written to while it is on display. -/
def modify (t : CellTable β) (row : Nat) (f : β → β) : CellTable β :=
  { t with visible := t.visible.map fun p => if p.1 = row then (p.1, f p.2) else p }

/-- A row is displayed on a cell that its data source writes. -/
def display (t : CellTable β) (fresh : β) (cellForRow : β → Except τ β) (row i : Nat) :
    Except τ (CellTable β) := do
  let (cell, t) := t.dequeue fresh i
  let cell ← cellForRow cell
  return t.enter row cell

/-- What holds of the cells on display, with their rows, and of those in the pool. -/
structure Holds (P : Nat → β → Prop) (Q : β → Prop) (t : CellTable β) : Prop where
  lt : ∀ p ∈ t.visible, p.1 < t.rows
  visible : ∀ p ∈ t.visible, P p.1 p.2
  pool : ∀ cell ∈ t.pool, Q cell

variable {P P' : Nat → β → Prop} {Q : β → Prop} {t : CellTable β} {row : Nat} {cell : β}

theorem mem_of_at? (h : t.at? row = some cell) : (row, cell) ∈ t.visible := by
  obtain ⟨rows, visible, pool⟩ := t
  unfold at? at h
  induction visible with
  | nil => cases h
  | cons p visible ih =>
    obtain ⟨r, c⟩ := p
    rw [List.lookup_cons] at h
    split at h
    · next heq =>
      rw [beq_iff_eq.mp heq, ← Option.some.inj h]
      exact List.mem_cons_self
    · exact List.mem_cons_of_mem _ (ih h)

namespace Holds

theorem empty (P : Nat → β → Prop) (Q : β → Prop) : Holds P Q {} :=
  ⟨fun p hp => (by cases hp), fun p hp => (by cases hp), fun c hc => (by cases hc)⟩

/-- The cell that is found at a row is one of that row. -/
theorem at? (h : t.Holds P Q) (hcell : t.at? row = some cell) : row < t.rows ∧ P row cell :=
  have hmem := mem_of_at? hcell
  ⟨h.lt _ hmem, h.visible _ hmem⟩

/-- Nothing is on display after a reload, whatever the rows are by then. -/
theorem reload (h : t.Holds P Q) (hforget : ∀ row cell, P row cell → Q cell) (count : Nat) :
    (t.reload count).Holds P' Q := by
  refine ⟨fun p hp => (by cases hp), fun p hp => (by cases hp), ?_⟩
  intro cell hcell
  rcases List.mem_append.mp hcell with hmem | hmem
  · obtain ⟨p, hp, rfl⟩ := List.mem_map.mp hmem
    exact hforget _ _ (h.visible p hp)
  · exact h.pool cell hmem

theorem dequeue (h : t.Holds P Q) {fresh : β} (hfresh : Q fresh) (i : Nat) :
    Q (t.dequeue fresh i).1 ∧ (t.dequeue fresh i).2.Holds P Q ∧
      (t.dequeue fresh i).2.rows = t.rows := by
  unfold CellTable.dequeue
  split
  · next cell hcell =>
    refine ⟨h.pool cell (List.mem_of_getElem? hcell), ⟨h.lt, h.visible, ?_⟩, rfl⟩
    intro c hc
    exact h.pool c (List.mem_of_mem_eraseIdx hc)
  · exact ⟨hfresh, h, rfl⟩

theorem enter (h : t.Holds P Q) (hrow : row < t.rows) (hcell : P row cell) :
    (t.enter row cell).Holds P Q := by
  refine ⟨?_, ?_, h.pool⟩
  · intro p hp
    rcases List.mem_cons.mp hp with rfl | hp
    · exact hrow
    · exact h.lt p hp
  · intro p hp
    rcases List.mem_cons.mp hp with rfl | hp
    · exact hcell
    · exact h.visible p hp

theorem leave (h : t.Holds P Q) (hforget : ∀ row cell, P row cell → Q cell) (row : Nat) :
    (t.leave row).Holds P Q := by
  refine ⟨?_, ?_, ?_⟩
  · intro p hp
    exact h.lt p (List.mem_filter.mp hp).1
  · intro p hp
    exact h.visible p (List.mem_filter.mp hp).1
  · intro cell hcell
    rcases List.mem_append.mp hcell with hmem | hmem
    · obtain ⟨p, hp, rfl⟩ := List.mem_map.mp hmem
      exact hforget _ _ (h.visible p (List.mem_filter.mp hp).1)
    · exact h.pool cell hmem

/-- A write to the cell of one row, after which all cells are as `P'` says. -/
theorem modify (h : t.Holds P Q) {f : β → β} (hrow : ∀ cell, P row cell → P' row (f cell))
    (hother : ∀ r cell, r ≠ row → P r cell → P' r cell) : (t.modify row f).Holds P' Q := by
  have hmem : ∀ p ∈ (t.modify row f).visible, ∃ q ∈ t.visible,
      p = if q.1 = row then (q.1, f q.2) else q := by
    intro p hp
    obtain ⟨q, hq, heq⟩ := List.mem_map.mp hp
    exact ⟨q, hq, heq.symm⟩
  refine ⟨?_, ?_, h.pool⟩
  · intro p hp
    obtain ⟨q, hq, rfl⟩ := hmem p hp
    split <;> exact h.lt q hq
  · intro p hp
    obtain ⟨q, hq, rfl⟩ := hmem p hp
    split
    · next heq =>
      subst heq
      exact hrow q.2 (h.visible q hq)
    · next hne => exact hother q.1 q.2 hne (h.visible q hq)

theorem mono (h : t.Holds P Q) (himp : ∀ row cell, P row cell → P' row cell) : t.Holds P' Q :=
  ⟨h.lt, fun p hp => himp _ _ (h.visible p hp), h.pool⟩

/-- A table without rows has nothing on display. -/
theorem of_rows_eq_zero (h : t.Holds P Q) (hrows : t.rows = 0) : t.Holds P' Q := by
  refine ⟨h.lt, fun p hp => ?_, h.pool⟩
  have hlt := h.lt p hp
  rw [hrows] at hlt
  exact absurd hlt (Nat.not_lt_zero _)

/-- **A data source that can write any cell of the pool keeps what holds of the display.** -/
theorem display (h : t.Holds P Q) (fresh : β) (hfresh : Q fresh)
    {cellForRow : β → Except τ β} (hrow : row < t.rows)
    (hwrite : ∀ cell, Q cell → ∃ cell', cellForRow cell = .ok cell' ∧ P row cell') (i : Nat) :
    ∃ t', t.display fresh cellForRow row i = .ok t' ∧ t'.Holds P Q ∧ t'.rows = t.rows := by
  obtain ⟨hcell, hrest, hrows⟩ := h.dequeue hfresh i
  obtain ⟨cell', hok, hshows⟩ := hwrite _ hcell
  refine ⟨(t.dequeue fresh i).2.enter row cell', ?_, hrest.enter (hrows ▸ hrow) hshows, hrows⟩
  show (cellForRow (t.dequeue fresh i).1 >>= _) = _
  rw [hok]
  rfl

end Holds
end CellTable
end Lib
