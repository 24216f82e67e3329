import KBucket.Proof.PassWord

/-!
# The indicators of the PIN pad

What the four indicators show persists between presses, so it depends on the way to an entry
and not on the entry alone. Every way is good except through the first digit: one digit sets no
star, and the first indicator keeps what it showed. The ranges and the indices of `setButtonText`
are always good.

No assumption is made on the titles at first, nor on the mode that the pad was opened in. Only
the first digit can do harm, and it does none where the first indicator has its star already:
the condition (`FirstStarred`) is one on the state before a press.
-/

namespace KBucket
namespace PassWordView

open Lib

variable {nfc : String → String} {v v' : PassWordView} {sender : UIButton} {data : List String}

/-- As many indicators as there are digits show a star, from the first one on; the others are
    blank. -/
def Mirrors (v : PassWordView) : Prop :=
  ∀ b k, indicator? b = some k →
    v.title b = some (if k ≤ v.mPasswordData.length then "*" else " ")

/-- The press traps in no range and at no index, leaves at most four digits, and where it changes
    the entry the indicators mirror the new one. -/
structure Mirrored (v : PassWordView) (_ : UIButton) (o : Except Trap PassWordView) : Prop where
  badRange : o ≠ .error .badRange
  indexOutOfRange : o ≠ .error .indexOutOfRange
  length : ∀ v', o = .ok v' → v'.mPasswordData.length ≤ 4
  mirrors : ∀ v', o = .ok v' → v'.mPasswordData ≠ v.mPasswordData → v'.Mirrors

/-- A first digit finds the star already on its indicator. -/
def FirstStarred (v : PassWordView) : UIButton → Prop
  | .num d => v.mPasswordData = [] → v.title (.num d) ≠ none → v.title .btnPass1 = some "*"
  | _ => True

/-! ## One press -/

/-- The screen after the entry has become `data`. -/
structure Shows (v : PassWordView) (data : List String) (v' : PassWordView) : Prop where
  mButton : v'.mButton = v.mButton
  mPasswordData : v'.mPasswordData = data
  title : v'.title = shown data.length v.title

/-- In either mode the fourth digit presents a screen. -/
theorem setButtonText_presents (nfc : String → String) (hb : v.mButton = buttons)
    (hl : data.length = 4) :
    ∃ view, setButtonText nfc { v with mPasswordData := data } = .ok (present { v with
      mPasswordData := data
      title := shown 4 v.title
      defaults := UserDefault.write v.defaults ContextUtils.KEY_CONF_PASSWORD
        (String.join data) } view) := by
  rw [setButtonText_full nfc hb hl]
  by_cases hset : v.isPasswordset = true
  · rw [if_pos hset]
    exact ⟨_, rfl⟩
  · obtain ⟨view, hview⟩ := start_eq { v with
      mPasswordData := data
      title := shown 4 v.title
      defaults := UserDefault.write v.defaults ContextUtils.KEY_CONF_PASSWORD
        (String.join data) }
    rw [if_neg hset, hview]
    exact ⟨view, rfl⟩

theorem setButtonText_shows (nfc : String → String) (hb : v.mButton = buttons)
    (hl : data.length ≤ 4) :
    ∃ v', setButtonText nfc { v with mPasswordData := data } = .ok v' ∧ Shows v data v' := by
  rcases Nat.lt_or_eq_of_le hl with hlt | hfour
  · refine ⟨_, setButtonText_lt hb hlt, ?_⟩
    exact ⟨rfl, rfl, rfl⟩
  · obtain ⟨view, heq⟩ := setButtonText_presents nfc hb hfour
    refine ⟨_, heq, ?_⟩
    exact ⟨rfl, rfl, by rw [hfour]; rfl⟩

/-- What a press comes to: nothing, the trap of a number key without a title, one digit more or
    one digit less. -/
inductive Press (v : PassWordView) (sender : UIButton) : Except Trap PassWordView → Prop
  | same : (∀ d, sender = .num d → v.mPasswordData ≠ []) → Press v sender (.ok v)
  | untitled (d : Fin 10) : sender = .num d → v.title (.num d) = none →
      Press v sender (.error .unwrappedNil)
  | digit (d : Fin 10) (text : String) (v' : PassWordView) : sender = .num d →
      v.title (.num d) = some text → v.mPasswordData.length < 4 →
      Shows v (v.mPasswordData ++ [text]) v' → Press v sender (.ok v')
  | clear (v' : PassWordView) : sender = .btnClear → v.mPasswordData ≠ [] →
      Shows v v.mPasswordData.dropLast v' → Press v sender (.ok v')

/-- The buttons are in place, no more digits are entered than there are indicators, and an entry
    has its first star. -/
structure InPlace (v : PassWordView) : Prop where
  buttons : v.mButton = buttons
  length : v.mPasswordData.length ≤ 4
  first : v.mPasswordData ≠ [] → v.title .btnPass1 = some "*"

theorem press_num (hv : InPlace v) (d : Fin 10) :
    Press v (.num d) (onClick nfc v (.num d)) := by
  by_cases hlt : v.mPasswordData.length < 4
  · rw [onClick, if_pos hlt]
    cases htitle : v.title (.num d) with
    | none => exact .untitled d rfl htitle
    | some text =>
      have hl : (v.mPasswordData ++ [text]).length ≤ 4 := by
        rw [List.length_append, List.length_singleton]
        exact hlt
      obtain ⟨v', heq, hshows⟩ := setButtonText_shows nfc hv.buttons hl
      show Press v _ (setButtonText nfc { v with mPasswordData := v.mPasswordData ++ [text] })
      rw [heq]
      exact .digit d text v' rfl htitle hlt hshows
  · rw [onClick, if_neg hlt]
    refine .same fun _ _ hnil => hlt ?_
    rw [hnil]
    exact Nat.zero_lt_succ 3

theorem press_btnClear (hv : InPlace v) : Press v .btnClear (onClick nfc v .btnClear) := by
  have hl := hv.length
  by_cases hnil : v.mPasswordData = []
  · rw [onClick, hnil]
    exact .same fun _ h => by cases h
  · have hpos : 0 < v.mPasswordData.length := List.length_pos_iff.mpr hnil
    have hdrop : v.mPasswordData.dropLast.length ≤ 4 := by
      rw [List.length_dropLast]
      omega
    obtain ⟨v', heq, hshows⟩ := setButtonText_shows nfc hv.buttons hdrop
    rw [onClick, if_pos ⟨hpos, hl⟩, arrayRemove_last hnil]
    show Press v _ (setButtonText nfc { v with mPasswordData := v.mPasswordData.dropLast })
    rw [heq]
    exact .clear v' rfl hnil hshows

theorem press (hv : InPlace v) (sender : UIButton) : Press v sender (onClick nfc v sender) := by
  cases sender with
  | num d => exact press_num hv d
  | btnClear => exact press_btnClear hv
  | btnPass1 | btnPass2 | btnPass3 | btnPass4 => exact .same fun _ h => by cases h

/-! ## What the indicators show -/

theorem Shows.mirrors_iff (h : Shows v data v') :
    v'.Mirrors ↔ (data.length = 1 → v.title .btnPass1 = some "*") := by
  unfold Mirrors
  rw [h.title, h.mPasswordData]
  constructor
  · intro hm hone
    have hfirst := hm .btnPass1 1 rfl
    rw [hone] at hfirst
    exact hfirst
  · intro hone b k hb
    unfold shown
    rw [hb]
    show (if _ then _ else _) = _
    by_cases hk : k ≤ data.length
    · rw [if_neg (Nat.not_lt.mpr hk), if_pos hk]
      split
      · rfl
      · -- One digit: the star is the one that the first indicator has.
        cases b <;> cases hb
        all_goals
          first
          | exact hone (by omega)
          | omega
    · rw [if_pos (Nat.lt_of_not_le hk), if_neg hk]

theorem mirrored_iff (hv : InPlace v) {o : Except Trap PassWordView} (h : Press v sender o) :
    Mirrored v sender o ↔ FirstStarred v sender := by
  cases h with
  | same hsame =>
    refine iff_of_true ⟨nofun, nofun, ?_, ?_⟩ ?_
    · intro v' h
      cases h
      exact hv.length
    · intro v' h hne
      cases h
      exact absurd rfl hne
    · cases sender with
      | num d => exact fun hnil => absurd hnil (hsame d rfl)
      | _ => trivial
  | untitled d hsender htitle =>
    subst hsender
    exact iff_of_true ⟨nofun, nofun, nofun, nofun⟩ fun _ h => absurd htitle h
  | digit d text v' hsender htitle hlt hshows =>
    subst hsender
    have hlen : (v.mPasswordData ++ [text]).length = v.mPasswordData.length + 1 := by simp
    have hmirrors := hshows.mirrors_iff
    rw [hlen, Nat.add_eq_right, List.length_eq_zero_iff] at hmirrors
    constructor
    · intro h hnil _
      refine hmirrors.mp (h.mirrors v' rfl ?_) hnil
      rw [hshows.mPasswordData]
      simp
    · intro h
      refine ⟨nofun, nofun, ?_, ?_⟩
      · intro w hw
        cases hw
        rw [hshows.mPasswordData, hlen]
        exact hlt
      · intro w hw _
        cases hw
        refine hmirrors.mpr fun hnil => h hnil ?_
        rw [htitle]
        nofun
  | clear v' hsender hne hshows =>
    subst hsender
    refine iff_of_true ⟨nofun, nofun, ?_, ?_⟩ trivial
    · intro w hw
      cases hw
      rw [hshows.mPasswordData, List.length_dropLast]
      exact Nat.le_trans (Nat.sub_le _ 1) hv.length
    · intro w hw _
      cases hw
      exact hshows.mirrors_iff.mpr fun _ => hv.first hne

/-- A press that the indicators mirror leaves the first star in place. -/
theorem inPlace_press (hv : InPlace v) {o : Except Trap PassWordView} (h : Press v sender o)
    (hm : Mirrored v sender o) (ho : o = .ok v') : InPlace v' := by
  have changed : ∀ {data : List String}, data ≠ v.mPasswordData → Shows v data v' →
      InPlace v' := by
    intro data hne hshows
    refine ⟨hshows.mButton.trans hv.buttons, hm.length v' ho, fun hnil => ?_⟩
    have hone : 1 ≤ v'.mPasswordData.length := List.length_pos_iff.mpr hnil
    rw [hm.mirrors v' ho (by rw [hshows.mPasswordData]; exact hne) .btnPass1 1 rfl, if_pos hone]
  cases h with
  | same _ => cases ho; exact hv
  | untitled _ _ _ => cases ho
  | digit d text w _ _ _ hshows =>
    cases ho
    exact changed (by simp) hshows
  | clear w _ hne hshows =>
    cases ho
    refine changed (fun heq => hne ?_) hshows
    have hlen := congrArg List.length heq
    rw [List.length_dropLast] at hlen
    exact List.length_eq_zero_iff.mp (by omega)

/-- **From any titles, the indicators mirror every entry of a session exactly as long as no digit
    is the first one without a star on the first indicator.**

    The titles that the buttons have at first are arbitrary, and so is the way in which the pad was
    opened. -/
theorem indicators_mirror_iff (nfc : String → String) (mSetting mStartView : String)
    (title : UIButton → Option String) (defaults : UserDefaults) (presses : List UIButton) :
    EachStep (onClick nfc) Mirrored
        (viewDidLoad { mSetting, mStartView, title, defaults }) presses ↔
      Guarded (onClick nfc) FirstStarred
        (viewDidLoad { mSetting, mStartView, title, defaults }) presses := by
  have hinit : InPlace (viewDidLoad { mSetting, mStartView, title, defaults }) := by
    unfold viewDidLoad
    simp only
    split
    · exact ⟨rfl, Nat.zero_le 4, fun h => absurd rfl h⟩
    · split <;> exact ⟨rfl, Nat.zero_le 4, fun h => absurd rfl h⟩
  refine EachStep.congr (I := InPlace) ?_ ?_ hinit presses
  · intro v sender v' hv hm h
    exact inPlace_press hv (press hv sender) hm h
  · intro v sender hv
    exact mirrored_iff hv (press hv sender)

/-- The first digit of an entry, on the titles of the storyboard: no indicator shows a star. -/
theorem first_digit_unstarred :
    (¬ ∀ (mSetting mStartView : String) (title : UIButton → Option String)
      (defaults : UserDefaults) (presses : List UIButton),
      EachStep (onClick id) Mirrored
        (viewDidLoad { mSetting, mStartView, title, defaults }) presses) ∧
    ∃ v, onClick id (opened (fun _ => none) "GET" "") (.num 5) = .ok v ∧
      v.mPasswordData = ["5"] ∧ v.title .btnPass1 = none := by
  refine ⟨fun h => ?_, _, rfl, by decide, rfl⟩
  have hfirst := (h "GET" "" storyboardTitle (fun _ => none) [.num 5]).1
  have hmirrors := hfirst.mirrors _ rfl (by decide) .btnPass1 1 rfl
  exact absurd hmirrors (by decide)

end PassWordView
end KBucket
