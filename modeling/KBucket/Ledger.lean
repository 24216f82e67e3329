import Mathlib.Logic.Function.Basic

/-!
# The ledger of dreams

What the app is for, without its views, its lists and its database: a ledger of dreams, each
under its text, of which some are achieved. The user goes through the dreams that are to do and
through those that are achieved, opens one of them on a form, and writes the form back.

This is a specification. It knows of a screen only what can be done there: not what is listed,
not in what order, not by which statements of a query language a text is looked up. `step`
answers `none` for an action that has no place in the ledger: one on a row that is not there,
or one that would give two dreams the same text.

`same` is the relation by which a new text counts as one that is already listed.
-/

namespace KBucket

/-- What the ledger knows of a dream, beside its text. -/
structure Entry where
  achieved : Bool := false
  photo : String := ""
  date : String := ""
  completeDate : String := ""
  deriving DecidableEq, Repr

/-- The entries, by text. -/
abbrev Ledger := String → Option Entry

namespace Ledger

/-- The dreams to do: those that are not achieved, and the one without a text. -/
def ToDo (ledger : Ledger) (text : String) : Prop :=
  ∃ entry, ledger text = some entry ∧ (text = "" ∨ entry.achieved = false)

def Achieved (ledger : Ledger) (text : String) : Prop :=
  ∃ entry, ledger text = some entry ∧ entry.achieved = true

def put (ledger : Ledger) (text : String) (entry : Entry) : Ledger :=
  Function.update ledger text (some entry)

def remove (ledger : Ledger) (text : String) : Ledger := Function.update ledger text none

/-- A form: the dream it was opened on, what it says now, and whether it was opened from the
    achieved dreams. -/
structure Form where
  opened : String
  fromAchieved : Bool
  text : String := ""
  entry : Entry := {}
  deriving DecidableEq, Repr

inductive Screen where
  | home
  | todo
  | form (form : Form)
  | achieved
  | suggestions
  | settings
  deriving DecidableEq, Repr

structure State where
  ledger : Ledger
  screen : Screen

inductive Event where
  | goTodo
  | goAchieved
  | goSuggestions
  | goSettings
  | goHome
  | add (text : String)
  | delete (text : String)
  | open (today text : String)
  | noRow
  | setText (text : String)
  | setDate (date : String)
  | setCompleteDate (date : String)
  | setAchieved (isOn : Bool)
  | setPhoto (name : String)
  | save
  | discard
  | leave
  | suggest (text : String)
  | withdraw (text : String)
  | reset
  | idle
  deriving DecidableEq, Repr

/-- The form of a dream. A date it does not have is today. -/
def fill (today : String) (ledger : Ledger) (text : String) (fromAchieved : Bool) : Form :=
  match ledger text with
  | some entry =>
    { opened := text, fromAchieved, text,
      entry := { entry with
        date := if entry.date = "" then today else entry.date
        completeDate := if entry.completeDate = "" then today else entry.completeDate } }
  | none => { opened := text, fromAchieved }

/-- Where a form is left to. -/
def Form.back (form : Form) : Screen := if form.fromAchieved then .achieved else .home

/-- The text under which the form is saved is the one it was opened on, or nobody's. -/
def Form.Free (ledger : Ledger) (form : Form) : Prop :=
  form.text = form.opened ∨ ledger form.text = none

open Classical in
/-- One action. What the screen in front has no place for does nothing. -/
noncomputable def step (same : String → String → Prop) (s : State) (event : Event) :
    Option State :=
  match s.screen, event with
  | .home, .goTodo => some { s with screen := .todo }
  | .home, .goAchieved => some { s with screen := .achieved }
  | .home, .goSuggestions => some { s with screen := .suggestions }
  | .home, .goSettings => some { s with screen := .settings }
  | .todo, .add text =>
    if ∃ listed, ToDo s.ledger listed ∧ same listed text then some s
    else if s.ledger text = none then some { s with ledger := s.ledger.put text {} }
    else none
  | .todo, .delete text => some { s with ledger := s.ledger.remove text }
  | .todo, .open today text => some { s with screen := .form (fill today s.ledger text false) }
  | .achieved, .open today text => some { s with screen := .form (fill today s.ledger text true) }
  | .todo, .noRow | .achieved, .noRow => none
  | .form form, .setText text => some { s with screen := .form { form with text } }
  | .form form, .setDate date =>
    some { s with screen := .form { form with entry := { form.entry with date } } }
  | .form form, .setCompleteDate completeDate =>
    some { s with screen := .form { form with entry := { form.entry with completeDate } } }
  | .form form, .setAchieved achieved =>
    some { s with screen := .form { form with entry := { form.entry with achieved } } }
  | .form form, .setPhoto photo =>
    some { s with screen := .form { form with entry := { form.entry with photo } } }
  | .form form, .save =>
    if form.Free s.ledger then
      some { ledger := (s.ledger.remove form.opened).put form.text form.entry, screen := form.back }
    else none
  | .form form, .discard =>
    some { ledger := s.ledger.remove form.opened, screen := form.back }
  | .form form, .leave => some { s with screen := form.back }
  | .suggestions, .suggest text =>
    if s.ledger text = none then some { s with ledger := s.ledger.put text {} } else some s
  | .suggestions, .withdraw text => some { s with ledger := s.ledger.remove text }
  | .settings, .reset => some { s with ledger := fun _ => none }
  | .todo, .goHome | .achieved, .goHome | .suggestions, .goHome | .settings, .goHome =>
    some { s with screen := .home }
  | _, _ => some s

/-- What the ledger has no place for: a text that is an achieved dream's already and is like no
    text to do, a row that is not there, a form whose text is another dream's. -/
def Refused (same : String → String → Prop) (s : State) (event : Event) : Prop :=
  match s.screen, event with
  | .todo, .add text =>
    text ≠ "" ∧ Achieved s.ledger text ∧ ∀ listed, ToDo s.ledger listed → ¬ same listed text
  | .todo, .noRow | .achieved, .noRow => True
  | .form form, .save => ¬ form.Free s.ledger
  | _, _ => False

/-- The dreams that an action can change. -/
def Touches (s : State) (event : Event) (text : String) : Prop :=
  match s.screen, event with
  | .todo, .add t | .todo, .delete t => t = text
  | .suggestions, .suggest t | .suggestions, .withdraw t => t = text
  | .form form, .save => form.opened = text ∨ form.text = text
  | .form form, .discard => form.opened = text
  | .settings, .reset => True
  | _, _ => False

/-! ## Lemmas -/

theorem put_apply (ledger : Ledger) (text : String) (entry : Entry) (t : String) :
    ledger.put text entry t = if t = text then some entry else ledger t := by
  simp [put, Function.update_apply]

theorem remove_apply (ledger : Ledger) (text t : String) :
    ledger.remove text t = if t = text then none else ledger t := by
  simp [remove, Function.update_apply]

variable {same : String → String → Prop} {s s' : State} {event : Event} {ledger : Ledger}
  {text : String} {form : Form}

/-! Where a step depends on what is stored, it is an `if` on that. -/

theorem step_add_listed (h : ∃ listed, ToDo ledger listed ∧ same listed text) :
    step same ⟨ledger, .todo⟩ (.add text) = some ⟨ledger, .todo⟩ := by
  exact if_pos h

theorem step_add_new (h : ¬ ∃ listed, ToDo ledger listed ∧ same listed text)
    (hfree : ledger text = none) :
    step same ⟨ledger, .todo⟩ (.add text) = some ⟨ledger.put text {}, .todo⟩ := by
  refine (if_neg h).trans ?_
  exact if_pos hfree

theorem step_add_taken (h : ¬ ∃ listed, ToDo ledger listed ∧ same listed text)
    (hstored : ledger text ≠ none) : step same ⟨ledger, .todo⟩ (.add text) = none := by
  refine (if_neg h).trans ?_
  exact if_neg hstored

theorem step_save_free (h : form.Free ledger) :
    step same ⟨ledger, .form form⟩ .save
      = some ⟨(ledger.remove form.opened).put form.text form.entry, form.back⟩ := by
  exact if_pos h

theorem step_save_taken (h : ¬ form.Free ledger) :
    step same ⟨ledger, .form form⟩ .save = none := by
  exact if_neg h

theorem step_suggest_new (h : ledger text = none) :
    step same ⟨ledger, .suggestions⟩ (.suggest text)
      = some ⟨ledger.put text {}, .suggestions⟩ := by
  exact if_pos h

theorem step_suggest_stored (h : ledger text ≠ none) :
    step same ⟨ledger, .suggestions⟩ (.suggest text) = some ⟨ledger, .suggestions⟩ := by
  exact if_neg h

/-! What such a step has done, when there is one. -/

theorem of_step_add (h : step same ⟨ledger, .todo⟩ (.add text) = some s') :
    s' = ⟨ledger, .todo⟩ ∨ ledger text = none ∧ s' = ⟨ledger.put text {}, .todo⟩ := by
  by_cases hlisted : ∃ listed, ToDo ledger listed ∧ same listed text
  · rw [step_add_listed hlisted] at h
    exact .inl (Option.some.inj h).symm
  · by_cases hfree : ledger text = none
    · rw [step_add_new hlisted hfree] at h
      exact .inr ⟨hfree, (Option.some.inj h).symm⟩
    · rw [step_add_taken hlisted hfree] at h
      cases h

theorem of_step_save (h : step same ⟨ledger, .form form⟩ .save = some s') :
    form.Free ledger ∧
      s' = ⟨(ledger.remove form.opened).put form.text form.entry, form.back⟩ := by
  by_cases hfree : form.Free ledger
  · rw [step_save_free hfree] at h
    exact ⟨hfree, (Option.some.inj h).symm⟩
  · rw [step_save_taken hfree] at h
    cases h

theorem of_step_suggest (h : step same ⟨ledger, .suggestions⟩ (.suggest text) = some s') :
    s' = ⟨ledger, .suggestions⟩ ∨ ledger text = none ∧ s' = ⟨ledger.put text {}, .suggestions⟩ := by
  by_cases hfree : ledger text = none
  · rw [step_suggest_new hfree] at h
    exact .inr ⟨hfree, (Option.some.inj h).symm⟩
  · rw [step_suggest_stored hfree] at h
    exact .inl (Option.some.inj h).symm

theorem step_idle (same : String → String → Prop) (s : State) : step same s .idle = some s := by
  obtain ⟨ledger, screen⟩ := s
  cases screen <;> rfl

/-- A stored text that is not to do is an achieved dream's. -/
theorem achieved_of_not_toDo (h : ledger text ≠ none) :
    ¬ ToDo ledger text ↔ text ≠ "" ∧ Achieved ledger text := by
  obtain ⟨entry, hentry⟩ := Option.ne_none_iff_exists'.mp h
  simp [ToDo, Achieved, hentry]

theorem not_achieved_of_none (h : ledger text = none) :
    ¬ Achieved ledger text := by
  simp [Achieved, h]

/-- **Exactly the refused actions have no step.** -/
theorem step_eq_none_iff (hsame : ∀ text, same text text) :
    step same s event = none ↔ Refused same s event := by
  obtain ⟨ledger, screen⟩ := s
  cases screen with
  | todo =>
    cases event with
    | add text =>
      by_cases hlisted : ∃ listed, ToDo ledger listed ∧ same listed text
      · rw [step_add_listed hlisted]
        obtain ⟨listed, htodo, hlike⟩ := hlisted
        simp only [reduceCtorEq, false_iff]
        intro h
        exact h.2.2 listed htodo hlike
      · have hnot : ∀ listed, ToDo ledger listed → ¬ same listed text := fun listed htodo hlike =>
          hlisted ⟨listed, htodo, hlike⟩
        by_cases hfree : ledger text = none
        · rw [step_add_new hlisted hfree]
          simp [Refused, not_achieved_of_none hfree]
        · rw [step_add_taken hlisted hfree]
          -- A text that is stored and like no text to do is not to do itself.
          have hach := (achieved_of_not_toDo hfree).mp fun htodo => hnot text htodo (hsame text)
          exact ⟨fun _ => ⟨hach.1, hach.2, hnot⟩, fun _ => rfl⟩
    | _ => simp [step, Refused]
  | form form =>
    cases event with
    | save =>
      by_cases hfree : form.Free ledger
      · simp [step_save_free hfree, Refused, hfree]
      · simp [step_save_taken hfree, Refused, hfree]
    | _ => simp [step, Refused]
  | suggestions =>
    cases event with
    | suggest text =>
      by_cases hfree : ledger text = none
      · simp [step_suggest_new hfree, Refused]
      · simp [step_suggest_stored hfree, Refused]
    | _ => simp [step, Refused]
  | home | achieved | settings => cases event <;> simp [step, Refused]

/-- What one action makes of the ledger. -/
inductive Change (s : State) (event : Event) : Ledger → Prop
  | kept : Change s event s.ledger
  | added (text : String) : Touches s event text → s.ledger text = none →
      Change s event (s.ledger.put text {})
  | removed (text : String) : Touches s event text → Change s event (s.ledger.remove text)
  | saved (form : Form) : s.screen = .form form → event = .save → form.Free s.ledger →
      Change s event ((s.ledger.remove form.opened).put form.text form.entry)
  | emptied : (∀ text, Touches s event text) → Change s event fun _ => none

theorem step_change (h : step same s event = some s') : Change s event s'.ledger := by
  obtain ⟨ledger, screen⟩ := s
  cases screen with
  | todo =>
    cases event with
    | add text =>
      rcases of_step_add h with rfl | ⟨hfree, rfl⟩
      · exact .kept
      · exact .added text rfl hfree
    | delete text => cases h; exact .removed text rfl
    | _ => cases h <;> exact .kept
  | form form =>
    cases event with
    | save =>
      obtain ⟨hfree, rfl⟩ := of_step_save h
      exact .saved form rfl rfl hfree
    | discard => cases h; exact .removed form.opened rfl
    | _ => cases h; exact .kept
  | suggestions =>
    cases event with
    | suggest text =>
      rcases of_step_suggest h with rfl | ⟨hfree, rfl⟩
      · exact .kept
      · exact .added text rfl hfree
    | withdraw text => cases h; exact .removed text rfl
    | _ => cases h; exact .kept
  | settings =>
    cases event with
    | reset => cases h; exact .emptied fun _ => trivial
    | _ => cases h; exact .kept
  | home | achieved => cases event <;> cases h <;> exact .kept

/-- **An action leaves alone the dreams that it does not touch.** -/
theorem Change.untouched {ledger : Ledger} (hch : Change s event ledger)
    (h : ¬ Touches s event text) : ledger text = s.ledger text := by
  cases hch with
  | kept => rfl
  | added t ht _ =>
    rw [put_apply, if_neg]
    rintro rfl
    exact h ht
  | removed t ht =>
    rw [remove_apply, if_neg]
    rintro rfl
    exact h ht
  | saved form hscreen hevent _ =>
    have htouch : ¬ (form.opened = text ∨ form.text = text) := by
      intro htext
      apply h
      unfold Touches
      rw [hscreen, hevent]
      exact htext
    rw [put_apply, if_neg fun heq => htouch (.inr heq.symm), remove_apply,
      if_neg fun heq => htouch (.inl heq.symm)]
  | emptied hall => exact absurd (hall text) h

/-- **A dream becomes achieved by being saved as achieved**, and by nothing else. -/
theorem Change.not_achieved {ledger : Ledger} (hch : Change s event ledger)
    (hnot : ¬ Achieved s.ledger text)
    (hsave : ∀ form, s.screen = .form form → event = .save → form.text = text →
      form.entry.achieved = false) : ¬ Achieved ledger text := by
  cases hch with
  | kept => exact hnot
  | added t _ _ =>
    unfold Achieved
    rw [put_apply]
    split
    · simp
    · exact hnot
  | removed t _ =>
    unfold Achieved
    rw [remove_apply]
    split
    · simp
    · exact hnot
  | saved form hscreen hevent _ =>
    unfold Achieved
    rw [put_apply]
    split
    · next htext => simp [hsave form hscreen hevent htext.symm]
    · rw [remove_apply]
      split
      · simp
      · exact hnot
  | emptied _ => simp [Achieved]

/-- What an action makes of the entry on a form. -/
def Event.edit (entry : Entry) : Event → Entry
  | .setDate date => { entry with date }
  | .setCompleteDate completeDate => { entry with completeDate }
  | .setAchieved achieved => { entry with achieved }
  | .setPhoto photo => { entry with photo }
  | _ => entry

/-- **A form has been opened on a dream, or is the form that was there, edited.** -/
theorem step_form (h : step same s event = some s') (hform : s'.screen = .form form) :
    (∃ today text isAchieved, event = .open today text ∧
        form = fill today s.ledger text isAchieved) ∨
      ∃ before, s.screen = .form before ∧ form.entry = event.edit before.entry := by
  obtain ⟨ledger, screen⟩ := s
  cases screen with
  | form before =>
    refine .inr ⟨before, rfl, ?_⟩
    cases event with
    | save =>
      obtain ⟨-, rfl⟩ := of_step_save h
      cases hback : before.fromAchieved <;> simp [Form.back, hback] at hform
    | discard | leave =>
      cases h
      cases hback : before.fromAchieved <;> simp [Form.back, hback] at hform
    | _ =>
      cases h
      cases hform
      rfl
  | todo =>
    cases event with
    | «open» today text =>
      cases h
      cases hform
      exact .inl ⟨today, text, false, rfl, rfl⟩
    | add text =>
      rcases of_step_add h with rfl | ⟨-, rfl⟩ <;> cases hform
    | _ => cases h <;> cases hform
  | achieved =>
    cases event with
    | «open» today text =>
      cases h
      cases hform
      exact .inl ⟨today, text, true, rfl, rfl⟩
    | _ => cases h <;> cases hform
  | suggestions =>
    cases event with
    | suggest text =>
      rcases of_step_suggest h with rfl | ⟨-, rfl⟩ <;> cases hform
    | _ => cases h <;> cases hform
  | home | settings => cases event <;> cases h <;> cases hform

/-- Every entry has a property. -/
def Each (P : Entry → Prop) (ledger : Ledger) : Prop :=
  ∀ text entry, ledger text = some entry → P entry

theorem Each.put {P : Entry → Prop} (h : Each P ledger) {entry : Entry} (hentry : P entry)
    (text : String) : Each P (ledger.put text entry) := by
  intro t e he
  rw [put_apply] at he
  split at he
  · cases he
    exact hentry
  · exact h t e he

theorem Each.remove {P : Entry → Prop} (h : Each P ledger) (text : String) :
    Each P (ledger.remove text) := by
  intro t e he
  rw [remove_apply] at he
  split at he
  · cases he
  · exact h t e he

/-- Every entry has a property, those that are stored and the one on the form. -/
structure All (P : Entry → Prop) (s : State) : Prop where
  stored : Each P s.ledger
  form : ∀ form, s.screen = .form form → P form.entry

/-- **A property that a new entry has, and that an action keeps on the form, is one of all
    entries.** -/
theorem All.step {P : Entry → Prop} (hs : All P s) (hnew : P {})
    (hedit : ∀ entry, P entry → P (event.edit entry))
    (hopen : ∀ today text isAchieved, event = .open today text →
      P (fill today s.ledger text isAchieved).entry)
    (h : Ledger.step same s event = some s') : All P s' := by
  constructor
  · have hchange := step_change h
    generalize s'.ledger = ledger at hchange ⊢
    cases hchange with
    | kept => exact hs.stored
    | added text _ _ => exact hs.stored.put hnew text
    | removed text _ => exact hs.stored.remove text
    | saved form hscreen _ _ => exact (hs.stored.remove _).put (hs.form form hscreen) _
    | emptied _ => exact fun text entry hentry => nomatch hentry
  · intro form hform
    rcases step_form h hform with ⟨today, text, isAchieved, hevent, rfl⟩ | ⟨before, hbefore, hentry⟩
    · exact hopen today text isAchieved hevent
    · rw [hentry]
      exact hedit _ (hs.form before hbefore)

end Ledger
end KBucket
