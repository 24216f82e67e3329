import Mathlib.Data.List.Basic

/-!
# Search and replacement

A text is a list of characters of any type. `contains` looks for a target, and `replace` replaces
its occurrences from the left, none of which overlap. Of a text that is written in words,
`cs.flatMap word`, the two say which words are the target and replace just these, when the target
starts nowhere in any other word, however the text goes on there (`NoStart`). Words that open with
one mark and close with another, and have neither inside, are apart in this way.
-/

namespace Lib.Replace

variable {α β : Type*} {target new : List α}

def contains [DecidableEq α] (target : List α) : List α → Bool
  | [] => target.isEmpty
  | c :: cs => target.isPrefixOf (c :: cs) || contains target cs

/-- `skip` characters are left of an occurrence that has been replaced. -/
def replaceFrom [DecidableEq α] (target new : List α) : Nat → List α → List α
  | _, [] => []
  | skip + 1, _ :: cs => replaceFrom target new skip cs
  | 0, c :: cs =>
    if target.isPrefixOf (c :: cs) then new ++ replaceFrom target new (target.length - 1) cs
    else c :: replaceFrom target new 0 cs

def replace [DecidableEq α] (target new text : List α) : List α := replaceFrom target new 0 text

/-! ## Where a target starts -/

/-- The target starts nowhere in the word, whatever follows it. -/
def NoStart (target word : List α) : Prop :=
  ∀ rest front back, word = front ++ back → back ≠ [] → ¬ target <+: back ++ rest

theorem NoStart.of_cons {c : α} {cs : List α} (h : NoStart target (c :: cs)) :
    NoStart target cs := by
  intro rest front back heq
  exact h rest (c :: front) back (by rw [heq, List.cons_append])

theorem NoStart.ne {word : List α} (hne : target ≠ []) (h : NoStart target word) :
    word ≠ target := by
  rintro rfl
  exact h [] [] word rfl hne (List.prefix_append word [])

/-- A target starts with its first character. -/
theorem NoStart.of_notMem {c : α} {cs word : List α} (h : c ∉ word) : NoStart (c :: cs) word := by
  intro rest front back heq hback hprefix
  obtain ⟨d, ds, rfl⟩ := List.exists_cons_of_ne_nil hback
  rw [List.cons_append, List.cons_prefix_cons] at hprefix
  apply h
  rw [heq, hprefix.1]
  exact List.mem_append_right front (List.mem_cons_self ..)

/-- Words with one mark at their end are no prefixes of each other. -/
theorem eq_of_prefix_closed {close : α} {body body' rest : List α} (hclose : close ∉ body)
    (hclose' : close ∉ body') (h : body ++ [close] <+: body' ++ close :: rest) : body = body' := by
  induction body generalizing body' with
  | nil =>
    cases body' with
    | nil => rfl
    | cons d ds =>
      rw [List.nil_append, List.cons_append, List.cons_prefix_cons] at h
      exact absurd (h.1 ▸ List.mem_cons_self ..) hclose'
  | cons c cs ih =>
    cases body' with
    | nil =>
      rw [List.nil_append, List.cons_append, List.cons_prefix_cons] at h
      exact absurd (h.1 ▸ List.mem_cons_self ..) hclose
    | cons d ds =>
      rw [List.cons_append, List.cons_append, List.cons_prefix_cons] at h
      rw [List.mem_cons, not_or] at hclose hclose'
      rw [h.1, ih hclose.2 hclose'.2 h.2]

/-- A word between two marks, which are not inside. -/
structure Marked (start close : α) (body : List α) : Prop where
  start_notMem : start ∉ body
  close_notMem : close ∉ body

def marked (start close : α) (body : List α) : List α := start :: (body ++ [close])

theorem noStart_marked {start close : α} (hmarks : start ≠ close) {body body' : List α}
    (h : Marked start close body) (h' : Marked start close body') (hne : body ≠ body') :
    NoStart (marked start close body) (marked start close body') := by
  intro rest front back heq hback
  cases front with
  | nil =>
    rw [List.nil_append] at heq
    subst heq
    intro hprefix
    unfold marked at hprefix
    rw [List.cons_append, List.cons_prefix_cons, List.append_assoc,
      List.singleton_append] at hprefix
    exact hne (eq_of_prefix_closed h.close_notMem h'.close_notMem hprefix.2)
  | cons c cs =>
    -- Behind its first character the word has no mark to start with.
    have hbody : start ∉ body' ++ [close] := by
      rw [List.mem_append, List.mem_singleton, not_or]
      exact ⟨h'.start_notMem, hmarks⟩
    unfold marked at heq
    rw [List.cons_append, List.cons.injEq] at heq
    exact NoStart.of_notMem hbody rest cs back heq.2 hback

/-! ## One occurrence -/

variable [DecidableEq α]

theorem replaceFrom_skip (skip : Nat) (text : List α) :
    replaceFrom target new skip text = replace target new (text.drop skip) := by
  induction skip generalizing text with
  | zero => rfl
  | succ skip ih =>
    cases text with
    | nil => rfl
    | cons c cs => exact ih cs

theorem isPrefixOf_append (target rest : List α) : target.isPrefixOf (target ++ rest) = true :=
  List.isPrefixOf_iff_prefix.mpr (List.prefix_append target rest)

theorem contains_target (hne : target ≠ []) (rest : List α) :
    contains target (target ++ rest) = true := by
  obtain ⟨c, cs, rfl⟩ := List.exists_cons_of_ne_nil hne
  have hprefix := isPrefixOf_append (c :: cs) rest
  rw [List.cons_append] at hprefix ⊢
  rw [contains, hprefix, Bool.true_or]

theorem replace_target (hne : target ≠ []) (rest : List α) :
    replace target new (target ++ rest) = new ++ replace target new rest := by
  obtain ⟨c, cs, rfl⟩ := List.exists_cons_of_ne_nil hne
  have hprefix := isPrefixOf_append (c :: cs) rest
  have hskip : (cs ++ rest).drop ((c :: cs).length - 1) = rest := by simp
  rw [List.cons_append] at hprefix ⊢
  rw [replace, replaceFrom, if_pos hprefix, replaceFrom_skip, hskip]

theorem NoStart.isPrefixOf {c : α} {cs : List α} (h : NoStart target (c :: cs)) (rest : List α) :
    target.isPrefixOf (c :: (cs ++ rest)) = false := by
  rw [Bool.eq_false_iff, ne_eq, List.isPrefixOf_iff_prefix]
  exact h rest [] (c :: cs) rfl (List.cons_ne_nil c cs)

theorem contains_noStart {word : List α} (h : NoStart target word) (rest : List α) :
    contains target (word ++ rest) = contains target rest := by
  induction word with
  | nil => rfl
  | cons c cs ih =>
    rw [List.cons_append, contains, h.isPrefixOf rest, Bool.false_or]
    exact ih h.of_cons

theorem replace_noStart {word : List α} (h : NoStart target word) (rest : List α) :
    replace target new (word ++ rest) = word ++ replace target new rest := by
  induction word with
  | nil => rfl
  | cons c cs ih =>
    have hrest := ih h.of_cons
    rw [List.cons_append, List.cons_append, ← hrest, replace, replaceFrom, h.isPrefixOf rest]
    rfl

/-! ## Texts of words -/

variable {word : β → List α} {cs : List β}

/-- The words that are not the target have no part in it. -/
def Apart (target : List α) (word : β → List α) (cs : List β) : Prop :=
  ∀ c ∈ cs, word c = target ∨ NoStart target (word c)

theorem contains_flatMap (hne : target ≠ []) (h : Apart target word cs) :
    contains target (cs.flatMap word) = true ↔ ∃ c ∈ cs, word c = target := by
  induction cs with
  | nil => simp [contains, hne]
  | cons c cs ih =>
    obtain ⟨hc, hcs⟩ := List.forall_mem_cons.mp h
    rw [List.flatMap_cons, List.exists_mem_cons_iff]
    rcases hc with hc | hc
    · rw [hc, contains_target hne]
      exact iff_of_true rfl (.inl rfl)
    · rw [contains_noStart hc, ih hcs, or_iff_right (hc.ne hne)]

/-- **Replacing a word that is apart from the others replaces that word.** -/
theorem replace_flatMap (hne : target ≠ []) (h : Apart target word cs) :
    replace target new (cs.flatMap word)
      = cs.flatMap fun c => if word c = target then new else word c := by
  induction cs with
  | nil => rfl
  | cons c cs ih =>
    obtain ⟨hc, hcs⟩ := List.forall_mem_cons.mp h
    rw [List.flatMap_cons, List.flatMap_cons, ← ih hcs]
    rcases hc with hc | hc
    · rw [if_pos hc, hc, replace_target hne]
    · rw [if_neg (hc.ne hne), replace_noStart hc]

omit [DecidableEq α] in
/-- No word is shorter than what it stands for, so a text that is its own spelling is spelled
    letter by letter. -/
theorem flatMap_eq_self_iff {word : α → List α} {cs : List α}
    (hword : ∀ c ∈ cs, word c = [c] ∨ 1 < (word c).length) :
    cs.flatMap word = cs ↔ ∀ c ∈ cs, word c = [c] := by
  have hlength : ∀ {cs : List α}, (∀ c ∈ cs, word c = [c] ∨ 1 < (word c).length) →
      cs.length ≤ (cs.flatMap word).length := by
    intro cs hcs
    induction cs with
    | nil => exact Nat.le_refl 0
    | cons c cs ih =>
      obtain ⟨hc, hcs⟩ := List.forall_mem_cons.mp hcs
      have hone : 1 ≤ (word c).length := by
        rcases hc with hc | hc
        · rw [hc]
          exact Nat.le_refl 1
        · exact Nat.le_of_lt hc
      have hrest := ih hcs
      rw [List.flatMap_cons, List.length_append, List.length_cons]
      omega
  induction cs with
  | nil => simp
  | cons c cs ih =>
    obtain ⟨hc, hcs⟩ := List.forall_mem_cons.mp hword
    rw [List.flatMap_cons, List.forall_mem_cons]
    rcases hc with hc | hc
    · rw [hc, List.singleton_append, List.cons.injEq]
      exact and_congr (iff_of_true rfl rfl) (ih hcs)
    · refine iff_of_false (fun heq => ?_) (fun h => ?_)
      · have hrest := hlength hcs
        have htotal := congrArg List.length heq
        rw [List.length_append, List.length_cons] at htotal
        omega
      · rw [h.1] at hc
        exact Nat.lt_irrefl 1 hc

/-! ## Targets of one character -/

theorem apart_singleton (c : α) (text : List α) : Apart [c] (fun d => [d]) text := by
  intro d _
  by_cases h : d = c
  · exact .inl (congrArg (fun e => [e]) h)
  · refine .inr (NoStart.of_notMem ?_)
    rw [List.mem_singleton]
    exact fun heq => h heq.symm

theorem contains_singleton (c : α) (text : List α) : contains [c] text = true ↔ c ∈ text := by
  have h := contains_flatMap (List.cons_ne_nil c []) (apart_singleton c text)
  rw [List.flatMap_singleton'] at h
  rw [h]
  simp

theorem replace_singleton (c : α) (new text : List α) :
    replace [c] new text = text.flatMap fun d => if d = c then new else [d] := by
  have h : replace [c] new (text.flatMap fun d => [d]) = _ :=
    replace_flatMap (List.cons_ne_nil c []) (apart_singleton c text)
  rw [List.flatMap_singleton'] at h
  rw [h]
  simp

end Lib.Replace
