import Mathlib.Data.List.Basic

/-!
# A table view and the list behind it

A table view asks its data source how many rows there are, remembers the answer until it is told
to reload, and meanwhile asks for cells of any row below that number. The list behind it can
change without the table being told. Two things can then go wrong:

* the list is shorter than the table believes, and a row is asked for that does not exist;
* the cell of a row was made from an item that the list no longer has at that place.

`Covered` and `Faithful` say that neither has happened. Both are about the list and the table
together, so an operation on the list alone can break them, and a reload restores them.
-/

namespace Lib

variable {α β γ : Type*}

/-- The number of rows at the last reload, and what was put into the rows that have been asked
    for since. -/
structure TableView (β : Type*) where
  rows : Nat
  shown : Nat → Option β
  shown_lt : ∀ row b, shown row = some b → row < rows

namespace TableView

/-- A table that has reloaded when there were `count` rows. -/
def reload (count : Nat) : TableView β where
  rows := count
  shown _ := none
  shown_lt _ _ h := by cases h

/-- The cell `b` is put into a row. -/
def display (t : TableView β) (row : Nat) (b : β) (h : row < t.rows) : TableView β where
  rows := t.rows
  shown r := if r = row then some b else t.shown r
  shown_lt r c hc := by
    split at hc
    · next heq => rw [heq]; exact h
    · exact t.shown_lt r c hc

theorem shown_display {t : TableView β} {row r : Nat} {b c : β} {h : row < t.rows}
    (hc : (t.display row b h).shown r = some c) : r = row ∧ c = b ∨ t.shown r = some c := by
  simp only [display] at hc
  split at hc
  · next heq => exact Or.inl ⟨heq, (Option.some.inj hc).symm⟩
  · exact Or.inr hc

/-- Every row that the table may ask for is a row of the list. -/
def Covered (t : TableView β) (xs : List α) : Prop := t.rows ≤ xs.length

/-- Every row on display agrees, as far as `f` and `g` look, with the item of the list there. -/
def Faithful (f : β → γ) (g : α → γ) (t : TableView β) (xs : List α) : Prop :=
  ∀ row b, t.shown row = some b → ∃ x, xs[row]? = some x ∧ g x = f b

theorem covered_reload (xs : List α) : (reload xs.length : TableView β).Covered xs :=
  Nat.le_refl _

/-- **A covered table asks for nothing that is not there**, and a table that is not covered may
    ask for a row that is not. -/
theorem covered_iff {t : TableView β} {xs : List α} :
    t.Covered xs ↔ ∀ row < t.rows, row < xs.length := by
  constructor
  · intro h row hrow
    exact Nat.lt_of_lt_of_le hrow h
  · intro h
    by_contra hlt
    have hlen := h xs.length (Nat.lt_of_not_le hlt)
    exact Nat.lt_irrefl _ hlen

theorem faithful_reload (f : β → γ) (g : α → γ) (count : Nat) (xs : List α) :
    (reload count).Faithful f g xs := by
  intro row b h
  cases h

/-- Displaying an item of the list keeps the table faithful. -/
theorem Faithful.display {f : β → γ} {g : α → γ} {t : TableView β} {xs : List α}
    (ht : t.Faithful f g xs) {row : Nat} {b : β} {x : α} (hx : xs[row]? = some x)
    (hb : g x = f b) (h : row < t.rows) : (t.display row b h).Faithful f g xs := by
  intro r c hc
  rcases shown_display hc with ⟨rfl, rfl⟩ | hold
  · exact ⟨x, hx, hb⟩
  · exact ht r c hold

/-- What is true of every cell on display stays true when a cell of which it is true is added. -/
theorem forall_shown_display {P : Nat → β → Prop} {t : TableView β}
    (ht : ∀ r c, t.shown r = some c → P r c) {row : Nat} {b : β} (hb : P row b)
    (h : row < t.rows) : ∀ r c, (t.display row b h).shown r = some c → P r c := by
  intro r c hc
  rcases shown_display hc with ⟨rfl, rfl⟩ | hold
  · exact hb
  · exact ht r c hold

end TableView
end Lib
