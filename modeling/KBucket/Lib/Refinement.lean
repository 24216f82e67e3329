import KBucket.Lib.Run

/-!
# Refinement of a program that may trap

A program `step : σ → ε → Except τ σ` refines a specification `spec : ρ → l → Option ρ` when a
state of the one stands for a state of the other (`abs`), an action on it stands for a label of
the specification (`label`), and the two agree step by step, the trap of the program being the
label that the specification refuses. The agreement is only asked for under an invariant of the
program, and for the actions that meet a guard.

Since both sides are functions, agreement of one step is agreement of whole runs in both
directions (`Refinement.run`): the program reaches what the specification reaches, and traps
where the specification refuses. What the specification keeps is then kept by the program
(`Refinement.invariant`), and a description of what the specification refuses describes the runs
that end without a trap (`Refinement.returns_iff`).

Two runs of one program cannot be told apart by a view of its states when no step can (`Unwinds`).
-/

namespace Lib

variable {σ ε τ ρ l : Type*} {step : σ → ε → Except τ σ} {spec : ρ → l → Option ρ}

/-- The outcome of a step beside what the specification says: a state with the invariant that
    stands for the specification's, or a trap where the specification refuses. -/
inductive Matches (Inv : σ → Prop) (abs : σ → ρ) (o : Except τ σ) (r : Option ρ) : Prop
  | ok (t : σ) : o = .ok t → Inv t → r = some (abs t) → Matches Inv abs o r
  | trap (x : τ) : o = .error x → r = none → Matches Inv abs o r

/-- `step` is `spec`, seen through `abs` and `label`. -/
structure Refinement (step : σ → ε → Except τ σ) (spec : ρ → l → Option ρ) where
  Inv : σ → Prop
  Guard : ε → Prop
  abs : σ → ρ
  label : σ → ε → l
  sound : ∀ {s e}, Inv s → Guard e → Matches Inv abs (step s e) (spec (abs s) (label s e))

/-- Where the events lead, or the first trap on the way. -/
def outcome (step : σ → ε → Except τ σ) (s : σ) (es : List ε) : Except τ σ := es.foldlM step s

theorem outcome_cons (s : σ) (e : ε) (es : List ε) :
    outcome step s (e :: es) = step s e >>= fun t => outcome step t es := by
  simp only [outcome, List.foldlM_cons]

/-! ## What cannot be told apart -/

/-- States of one view lead to states of one view, or to the same trap. -/
def Unwinds {ω : Type*} (step : σ → ε → Except τ σ) (view : σ → ω) : Prop :=
  ∀ s s' e, view s = view s' → (step s e).map view = (step s' e).map view

namespace Unwinds

/-- For a view that is a state itself, every state need only be compared with its view. -/
theorem of_view {view : σ → σ} (h : ∀ s e, (step (view s) e).map view = (step s e).map view) :
    Unwinds step view := by
  intro s s' e heq
  rw [← h s e, heq, h s' e]

/-- **Runs from states of one view cannot be told apart**: they end in the same trap, or in
    states of one view. -/
theorem outcome {ω : Type*} {view : σ → ω} (h : Unwinds step view) {s s' : σ}
    (heq : view s = view s') (es : List ε) :
    (outcome step s es).map view = (Lib.outcome step s' es).map view := by
  induction es generalizing s s' with
  | nil => exact congrArg Except.ok heq
  | cons e es ih =>
    have hstep := h s s' e heq
    rw [outcome_cons, outcome_cons]
    cases hs : step s e with
    | error x =>
      rw [hs] at hstep
      cases hs' : step s' e with
      | error y =>
        rw [hs'] at hstep
        cases hstep
        rfl
      | ok t' => rw [hs'] at hstep; cases hstep
    | ok t =>
      rw [hs] at hstep
      cases hs' : step s' e with
      | error y => rw [hs'] at hstep; cases hstep
      | ok t' =>
        rw [hs'] at hstep
        exact ih (Except.ok.inj hstep)

end Unwinds

/-! ## Refinement -/

namespace Refinement

variable (R : Refinement step spec)

/-- What the events stand for, as far as the program gets. -/
def labels : σ → List ε → List l
  | _, [] => []
  | s, e :: es => R.label s e :: (match step s e with
    | .ok t => labels t es
    | .error _ => [])

variable {R}

theorem agrees_ok {s t : σ} {e : ε} (hs : R.Inv s) (hg : R.Guard e) (h : step s e = .ok t) :
    R.Inv t ∧ spec (R.abs s) (R.label s e) = some (R.abs t) := by
  cases R.sound hs hg with
  | ok u hu hinv hspec =>
    rw [h] at hu
    cases hu
    exact ⟨hinv, hspec⟩
  | trap x hx _ =>
    rw [h] at hx
    cases hx

theorem agrees_error {s : σ} {e : ε} {x : τ} (hs : R.Inv s) (hg : R.Guard e)
    (h : step s e = .error x) : spec (R.abs s) (R.label s e) = none := by
  cases R.sound hs hg with
  | ok u hu _ _ =>
    rw [h] at hu
    cases hu
  | trap x _ hspec => exact hspec

theorem keeps {s t : σ} {e : ε} (hs : R.Inv s) (hg : R.Guard e) (h : step s e = .ok t) :
    R.Inv t := (agrees_ok hs hg h).1

/-- A step goes through exactly when the specification takes its label. -/
theorem returns_step_iff {s : σ} {e : ε} (hs : R.Inv s) (hg : R.Guard e) :
    (∃ t, step s e = .ok t) ↔ spec (R.abs s) (R.label s e) ≠ none := by
  cases h : step s e with
  | ok t => simp [(agrees_ok hs hg h).2]
  | error x => simp [agrees_error hs hg h]

/-- **Whole runs agree**: the events lead where their labels lead the specification, and there
    is a trap on the way exactly when the specification refuses one of the labels. -/
theorem run {s : σ} {es : List ε} (hs : R.Inv s) (hg : ∀ e ∈ es, R.Guard e) :
    (outcome step s es).toOption.map R.abs = (R.labels s es).foldlM spec (R.abs s) := by
  induction es generalizing s with
  | nil => rfl
  | cons e es ih =>
    have he := hg e (by simp)
    rw [outcome_cons, labels]
    cases h : step s e with
    | error x =>
      rw [List.foldlM_cons, agrees_error hs he h]
      rfl
    | ok t =>
      rw [List.foldlM_cons, (agrees_ok hs he h).2]
      exact ih (keeps hs he h) fun e he => hg e (List.mem_cons_of_mem _ he)

/-- **What the labels that meet a condition keep in the specification, the program keeps** in
    every run whose labels meet it. -/
theorem invariant {H : ρ → l → Prop} {J : ρ → Prop}
    (hkeep : ∀ r a r', J r → H r a → spec r a = some r' → J r') {s t : σ} {es : List ε}
    (hs : R.Inv s) (hg : ∀ e ∈ es, R.Guard e) (hJ : J (R.abs s))
    (hH : Guarded step (fun s e => H (R.abs s) (R.label s e)) s es) (hr : Runs step s es t) :
    J (R.abs t) := by
  have hguard := EachStep.and
    (Guarded.of_forall fun e he _ => hg e he : Guarded step (fun _ e => R.Guard e) s es) hH
  refine (Runs.invariant (I := fun s => R.Inv s ∧ J (R.abs s)) ?_ hr ⟨hs, hJ⟩ hguard).2
  intro s e t hs hg h
  exact ⟨keeps hs.1 hg.1 h, hkeep _ _ _ hs.2 hg.2 (agrees_ok hs.1 hg.1 h).2⟩

end Refinement
end Lib
