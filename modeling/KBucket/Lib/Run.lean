import Mathlib.Data.List.Basic

/-!
# Runs of a step function that may trap

A program that reacts to events is a function `step : σ → ε → Except τ σ`: from a state and an
event to the next state, or to a trap that ends the process. Three things are said about such
a program over and over, and each needs the same induction over the events:

* `Runs step s es t` — the events `es`, none of which traps, lead from `s` to `t`;
* `EachStep step P s es` — every step that the events take, up to and including the first one
  that traps, satisfies `P`, which sees the state, the event and the outcome;
* a property of states is an *invariant* when steps that meet a guard keep it.

`Runs.invariant`, `Runs.simulates` and `EachStep.congr` are those inductions. What a development
proves itself is one step at a time. A run can be followed in something else that its events act on
(`trace`, `Runs.follows`). Of two runs it can be said that what they did does not show in a step
that follows (`Forgets`).
-/

namespace Lib

variable {σ ε τ : Type*} {step : σ → ε → Except τ σ}

/-- The events `es` lead from `s` to `t`, and no step of the way traps. -/
inductive Runs (step : σ → ε → Except τ σ) : σ → List ε → σ → Prop
  | nil (s : σ) : Runs step s [] s
  | cons {s t u : σ} {e : ε} {es : List ε} :
      step s e = .ok t → Runs step t es u → Runs step s (e :: es) u

/-- Every step taken by the events satisfies `P`. A trap is the last step of its run. -/
def EachStep (step : σ → ε → Except τ σ) (P : σ → ε → Except τ σ → Prop) : σ → List ε → Prop
  | _, [] => True
  | s, e :: es => P s e (step s e) ∧ ∀ t, step s e = .ok t → EachStep step P t es

/-- Every step meets a condition on the state before it and on its event alone. -/
abbrev Guarded (step : σ → ε → Except τ σ) (G : σ → ε → Prop) : σ → List ε → Prop :=
  EachStep step fun s e _ => G s e

theorem Runs.single {s t : σ} {e : ε} (h : step s e = .ok t) : Runs step s [e] t :=
  .cons h (.nil t)

/-- A run goes through when its first step does and the rest of it. -/
theorem exists_runs_cons_iff {s : σ} {e : ε} {es : List ε} :
    (∃ u, Runs step s (e :: es) u) ↔ ∃ t, step s e = .ok t ∧ ∃ u, Runs step t es u := by
  constructor
  · intro h
    obtain ⟨u, hrun⟩ := h
    cases hrun with
    | cons hstep hrun => exact ⟨_, hstep, u, hrun⟩
  · intro h
    obtain ⟨t, hstep, u, hrun⟩ := h
    exact ⟨u, .cons hstep hrun⟩

/-- **An invariant that guarded steps keep holds in every state a guarded run reaches.** -/
theorem Runs.invariant {G : σ → ε → Prop} {I : σ → Prop}
    (hstep : ∀ s e t, I s → G s e → step s e = .ok t → I t)
    {s t : σ} {es : List ε} (hr : Runs step s es t) (hs : I s) (hg : Guarded step G s es) :
    I t := by
  induction hr with
  | nil _ => exact hs
  | cons he _ ih => exact ih (hstep _ _ _ hs hg.1 he) (hg.2 _ he)

/-- **A run is simulated step by step.** `R` relates the state to what a specification `spec` makes
    of the same events. -/
theorem Runs.simulates {ρ : Type*} {spec : ρ → ε → ρ} {R : σ → ρ → Prop} {G : σ → ε → Prop}
    (hstep : ∀ s e t r, R s r → G s e → step s e = .ok t → R t (spec r e))
    {s t : σ} {r : ρ} {es : List ε} (hr : Runs step s es t) (hs : R s r)
    (hg : Guarded step G s es) : R t (es.foldl spec r) := by
  induction hr generalizing r with
  | nil _ => exact hs
  | cons he _ ih => exact ih (hstep _ _ _ _ hs hg.1 he) (hg.2 _ he)

/-- **Two step properties that agree under an invariant agree along every run.** The invariant
    need only survive the steps that satisfy `P`. -/
theorem EachStep.congr {P Q : σ → ε → Except τ σ → Prop} {I : σ → Prop}
    (hinv : ∀ s e t, I s → P s e (step s e) → step s e = .ok t → I t)
    (hiff : ∀ s e, I s → (P s e (step s e) ↔ Q s e (step s e))) {s : σ} (hs : I s)
    (es : List ε) : EachStep step P s es ↔ EachStep step Q s es := by
  induction es generalizing s with
  | nil => exact Iff.rfl
  | cons e es ih =>
    constructor
    · intro h
      obtain ⟨hp, hrest⟩ := h
      refine ⟨(hiff s e hs).mp hp, fun t ht => ?_⟩
      exact (ih (hinv s e t hs hp ht)).mp (hrest t ht)
    · intro h
      obtain ⟨hq, hrest⟩ := h
      have hp := (hiff s e hs).mpr hq
      refine ⟨hp, fun t ht => ?_⟩
      exact (ih (hinv s e t hs hp ht)).mpr (hrest t ht)

/-- Two step properties that agree whatever the state and the event. -/
theorem EachStep.congr_of_forall {P Q : σ → ε → Except τ σ → Prop}
    (hiff : ∀ s e, P s e (step s e) ↔ Q s e (step s e)) (s : σ) (es : List ε) :
    EachStep step P s es ↔ EachStep step Q s es := by
  apply EachStep.congr (I := fun _ => True)
  · intro s e t _ _ _
    trivial
  · intro s e _
    exact hiff s e
  · trivial

/-- `I` holds at the start and in every state that the events go through. -/
def Always (step : σ → ε → Except τ σ) (I : σ → Prop) (s : σ) (es : List ε) : Prop :=
  I s ∧ EachStep step (fun _ _ o => ∀ t, o = .ok t → I t) s es

/-- **A guard that says exactly when a step keeps `I` says exactly when a run does.** `J` is what
    every step keeps anyway. -/
theorem always_iff_guarded {I J : σ → Prop} {G : σ → ε → Prop}
    (hJ : ∀ s e t, J s → step s e = .ok t → J t)
    (hiff : ∀ s e, J s → I s → ((∀ t, step s e = .ok t → I t) ↔ G s e)) {s : σ} (hs : J s)
    (hI : I s) (es : List ε) : Always step I s es ↔ Guarded step G s es := by
  have hcongr : EachStep step (fun _ _ o => ∀ t, o = .ok t → I t) s es ↔ Guarded step G s es := by
    apply EachStep.congr (I := fun s => J s ∧ I s)
    · intro s e t hs hp ht
      exact ⟨hJ s e t hs.1 ht, hp t ht⟩
    · intro s e hs
      exact hiff s e hs.1 hs.2
    · exact ⟨hs, hI⟩
  exact ⟨fun h => hcongr.mp h.2, fun h => ⟨hI, hcongr.mpr h⟩⟩

/-- A condition that every event of the run meets whatever the state. -/
theorem Guarded.of_forall {G : σ → ε → Prop} {s : σ} {es : List ε} (h : ∀ e ∈ es, ∀ s, G s e) :
    Guarded step G s es := by
  induction es generalizing s with
  | nil => trivial
  | cons e es ih =>
    exact ⟨h e (by simp) s, fun t _ => ih fun e he => h e (List.mem_cons_of_mem _ he)⟩

/-- A weaker condition. -/
theorem Guarded.mono {G H : σ → ε → Prop} (himp : ∀ s e, G s e → H s e) {s : σ} {es : List ε}
    (h : Guarded step G s es) : Guarded step H s es := by
  induction es generalizing s with
  | nil => trivial
  | cons e es ih => exact ⟨himp s e h.1, fun t ht => ih (h.2 t ht)⟩

/-- A property of every step whatever the state and the event. -/
theorem EachStep.of_forall {P : σ → ε → Except τ σ → Prop} (h : ∀ s e, P s e (step s e)) (s : σ)
    (es : List ε) : EachStep step P s es := by
  induction es generalizing s with
  | nil => trivial
  | cons e es ih => exact ⟨h s e, fun t _ => ih t⟩

theorem EachStep.and {P Q : σ → ε → Except τ σ → Prop} {s : σ} {es : List ε}
    (hp : EachStep step P s es) (hq : EachStep step Q s es) :
    EachStep step (fun s e o => P s e o ∧ Q s e o) s es := by
  induction es generalizing s with
  | nil => trivial
  | cons e es ih => exact ⟨⟨hp.1, hq.1⟩, fun t ht => ih (hp.2 t ht) (hq.2 t ht)⟩

/-! ## What a run does to something else -/

/-- What the events do, as far as the program gets: an action need not do anything. -/
def trace {l : Type*} (step : σ → ε → Except τ σ) (act : σ → ε → Option l) : σ → List ε → List l
  | _, [] => []
  | s, e :: es => (act s e).toList ++ (match step s e with
    | .ok t => trace step act t es
    | .error _ => [])

/-- **A run follows the fold of what its events do**, when each of its steps does. -/
theorem Runs.follows {ρ l : Type*} {act : σ → ε → Option l} {spec : ρ → l → ρ}
    {R : σ → ρ → Prop}
    (hstep : ∀ s e t r, R s r → step s e = .ok t → R t ((act s e).toList.foldl spec r))
    {s t : σ} {r : ρ} {es : List ε} (hr : Runs step s es t) (hs : R s r) :
    R t ((trace step act s es).foldl spec r) := by
  induction hr generalizing r with
  | nil _ => exact hs
  | cons he _ ih =>
    rw [trace, he, List.foldl_append]
    exact ih (hstep _ _ _ _ hs he)

/-- **A run ends without a trap exactly when each of its steps meets a guard**, when the guard
    says so of every step from a state with an invariant of all steps. -/
theorem exists_runs_iff {I : σ → Prop} {G : σ → ε → Prop} {es : List ε}
    (hkeep : ∀ s e t, e ∈ es → I s → step s e = .ok t → I t)
    (hiff : ∀ s e, e ∈ es → I s → ((∃ t, step s e = .ok t) ↔ G s e)) {s : σ} (hs : I s) :
    (∃ t, Runs step s es t) ↔ Guarded step G s es := by
  induction es generalizing s with
  | nil => exact ⟨fun _ => trivial, fun _ => ⟨s, .nil s⟩⟩
  | cons e es ih =>
    have hfirst := hiff s e List.mem_cons_self hs
    have hrest : ∀ t, step s e = .ok t → ((∃ u, Runs step t es u) ↔ Guarded step G t es) :=
      fun t ht => ih (fun s e' t he' => hkeep s e' t (List.mem_cons_of_mem _ he'))
        (fun s e' he' => hiff s e' (List.mem_cons_of_mem _ he'))
        (hkeep s e t List.mem_cons_self hs ht)
    constructor
    · intro h
      obtain ⟨u, hr⟩ := h
      cases hr with
      | cons ht hr =>
        refine ⟨hfirst.mp ⟨_, ht⟩, fun t' ht' => ?_⟩
        rw [ht] at ht'
        cases ht'
        exact (hrest _ ht).mp ⟨u, hr⟩
    · intro h
      obtain ⟨t, ht⟩ := hfirst.mpr h.1
      obtain ⟨u, hr⟩ := (hrest t ht).mpr (h.2 t ht)
      exact ⟨u, .cons ht hr⟩

/-- What the events do when it does not depend on the state. -/
theorem Runs.trace_eq {l : Type*} {act : ε → Option l} {s t : σ} {es : List ε}
    (hr : Runs step s es t) : trace step (fun _ e => act e) s es = es.filterMap act := by
  induction hr with
  | nil _ => rfl
  | @cons s t u e es he _ ih =>
    simp only [trace, he]
    rw [ih, List.filterMap_cons]
    cases act e <;> rfl

/-- **What a run holds is conserved**, up to what its bad events lose, when each step keeps what
    it held and what its event brings. -/
theorem Runs.conserves {α : Type*} {I : σ → Prop} (held : σ → List α)
    {brings : σ → ε → Option α} {bad : ε → Bool}
    (hstep : ∀ s e t, I s → step s e = .ok t → I t ∧
      ∃ lost, (held t ++ lost).Perm (held s ++ (brings s e).toList) ∧
        lost.length ≤ if bad e then 1 else 0)
    {s t : σ} {es : List ε} (hr : Runs step s es t) (hs : I s) :
    ∃ lost, (held t ++ lost).Perm (held s ++ trace step brings s es) ∧
      lost.length ≤ es.countP bad := by
  induction hr with
  | nil s => exact ⟨[], by simp [trace], by simp⟩
  | @cons s u t e es he _ ih =>
    obtain ⟨hu, lost₁, hperm₁, hlen₁⟩ := hstep _ _ _ hs he
    obtain ⟨lost₂, hperm₂, hlen₂⟩ := ih hu
    refine ⟨lost₂ ++ lost₁, ?_, ?_⟩
    · simp only [trace, he]
      rw [← List.append_assoc, ← List.append_assoc]
      calc (held t ++ lost₂ ++ lost₁).Perm _ := hperm₂.append_right lost₁
        _ = held u ++ (trace step brings u es ++ lost₁) := List.append_assoc ..
        List.Perm _ (held u ++ (lost₁ ++ trace step brings u es)) :=
          List.perm_append_comm.append_left _
        _ = held u ++ lost₁ ++ trace step brings u es := (List.append_assoc ..).symm
        List.Perm _ _ := hperm₁.append_right _
    · rw [List.length_append, List.countP_cons]
      exact Nat.add_le_add hlen₂ hlen₁

/-! ## Forgetting -/

/-- The step on `e` comes to the same whatever events led up to it. -/
def Forgets (step : σ → ε → Except τ σ) (s : σ) (e : ε) : Prop :=
  ∀ es es' t u, Runs step s es t → Runs step s es' u → step t e = step u e

/-- **A step forgets when it comes to the same from any two states with an invariant of all
    steps.** -/
theorem Forgets.of_invariant {I : σ → Prop} {s : σ} {e : ε} (hs : I s)
    (hkeep : ∀ t e u, I t → step t e = .ok u → I u)
    (hdep : ∀ t u, I t → I u → step t e = step u e) : Forgets step s e := by
  have hinv : ∀ {es t}, Runs step s es t → I t := by
    intro es t hr
    refine hr.invariant (G := fun _ _ => True) ?_ hs ?_
    · intro t e u ht _ hstep
      exact hkeep t e u ht hstep
    · exact Guarded.of_forall fun _ _ _ => trivial
  intro es es' t u ht hu
  exact hdep t u (hinv ht) (hinv hu)

end Lib
