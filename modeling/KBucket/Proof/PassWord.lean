import Mathlib.Data.List.Basic
import KBucket.Lib.Run
import KBucket.View.PassWordView

/-!
# What a press on the PIN pad does

One lemma for each kind of press, over the screens whose buttons are in place (`Ready`). From
them the verdict on a session that is to verify a password: it is sound exactly as long as
nobody enters a wrong one. The text entered is stored under `KEY_CONF_PASSWORD` before it is
compared with what is stored there.

The verdict is about sessions, and so is its condition: it is on the state before each press and
on the press, and says that an entry which is completed is the password. Nothing less would do. The
first wrong entry is accepted, and from then on it is what is stored.

Other modes of the pad are described as far as the presses go (`Ready`), which is what
`Proof.Indicators` and the whole app (`Proof.Preferences`) need of them.
-/

namespace KBucket
namespace PassWordView

open Lib

/-! ## The indicators -/

def indicator? : UIButton → Option Nat
  | .btnPass1 => some 1
  | .btnPass2 => some 2
  | .btnPass3 => some 3
  | .btnPass4 => some 4
  | _ => none

/-- What the buttons show when `count` digits are entered: a single digit sets no star, and
    leaves on the first indicator what was there. -/
def shown (count : Nat) (title : UIButton → Option String) (b : UIButton) : Option String :=
  match indicator? b with
  | some k => if count < k then some " " else if 1 < count then some "*" else title b
  | none => title b

/-- The ranges and the indices of the two loops are always good. -/
theorem setIndicators_eq {v : PassWordView} (hb : v.mButton = buttons)
    (hl : v.mPasswordData.length ≤ 4) :
    v.setIndicators = .ok { v with title := shown v.mPasswordData.length v.title } := by
  obtain ⟨data, isSet, setting, startView, mButton, title, defaults, presented, toasts⟩ := v
  simp only at hb hl
  subst hb
  -- One case per number of digits, in which both loops run on closed lists of indices.
  match data, hl with
  | [], _ | [_], _ | [_, _], _ | [_, _, _], _ | [_, _, _, _], _ =>
    refine congrArg (fun f => Except.ok
      (mk _ isSet setting startView buttons f defaults presented toasts)) (funext fun b => ?_)
    cases b <;> rfl

/-! ## Presses -/

/-- The buttons are in place, the number keys carry their digits, and no more digits are entered
    than there are indicators. -/
structure Ready (v : PassWordView) : Prop where
  buttons : v.mButton = buttons
  digits : ∀ d : Fin 10, v.title (.num d) = some (toString d.val)
  length : v.mPasswordData.length ≤ 4

variable {nfc : String → String} {v : PassWordView} {data : List String}

theorem setButtonText_lt (hb : v.mButton = buttons) (hl : data.length < 4) :
    setButtonText nfc { v with mPasswordData := data }
      = .ok { v with mPasswordData := data, title := shown data.length v.title } := by
  have hind : setIndicators { v with mPasswordData := data }
      = .ok { v with mPasswordData := data, title := shown data.length v.title } :=
    setIndicators_eq hb (Nat.le_of_lt hl)
  rw [setButtonText, hind]
  show (if data.length = 4 then _ else _) = _
  rw [if_neg (Nat.ne_of_lt hl)]
  rfl

/-- **The fourth digit proceeds, whatever the digits are.** What is compared with the entry is
    what has just been stored: the entry itself. -/
theorem setButtonText_full (nfc : String → String) (hb : v.mButton = buttons)
    (hl : data.length = 4) :
    let v' := { v with
      mPasswordData := data
      title := shown 4 v.title
      defaults := UserDefault.write v.defaults ContextUtils.KEY_CONF_PASSWORD (String.join data) }
    setButtonText nfc { v with mPasswordData := data }
      = .ok (if v.isPasswordset then v'.back ContextUtils.MAIN_VIEW else v'.start) := by
  have hind : setIndicators { v with mPasswordData := data }
      = .ok { v with mPasswordData := data, title := shown data.length v.title } :=
    setIndicators_eq hb (Nat.le_of_eq hl)
  rw [setButtonText, hind]
  obtain ⟨a, b, c, d, rfl⟩ := List.length_eq_four.mp hl
  have hjoin : String.join [a, b, c, d] = a ++ "" ++ b ++ "" ++ c ++ "" ++ d := by
    simp [String.join]
  show (if v.isPasswordset then _ else
    if !stringEq nfc (a ++ "" ++ b ++ "" ++ c ++ "" ++ d) (UserDefault.read
      (UserDefault.write v.defaults ContextUtils.KEY_CONF_PASSWORD _) _) then _ else _) = _
  rw [UserDefault.read_write, stringEq_refl, hjoin]
  split <;> rfl

theorem setButtonText_four (hb : v.mButton = buttons) (hset : v.isPasswordset = false)
    (hl : data.length = 4) :
    setButtonText nfc { v with mPasswordData := data } = .ok (start { v with
      mPasswordData := data
      title := shown 4 v.title
      defaults := UserDefault.write v.defaults ContextUtils.KEY_CONF_PASSWORD
        (String.join data) }) := by
  rw [setButtonText_full nfc hb hl, hset]
  rfl

theorem onClick_num_lt (hv : Ready v) (d : Fin 10) (hl : v.mPasswordData.length < 3) :
    onClick nfc v (.num d) = .ok { v with
      mPasswordData := v.mPasswordData ++ [toString d.val]
      title := shown (v.mPasswordData.length + 1) v.title } := by
  have hlen : (v.mPasswordData ++ [toString d.val]).length = v.mPasswordData.length + 1 := by simp
  rw [onClick, if_pos (by omega), hv.digits d]
  show setButtonText nfc { v with mPasswordData := v.mPasswordData ++ [toString d.val] } = _
  rw [setButtonText_lt hv.buttons (by rw [hlen]; omega), hlen]

theorem onClick_num_three (hv : Ready v) (hset : v.isPasswordset = false) (d : Fin 10)
    (hl : v.mPasswordData.length = 3) :
    onClick nfc v (.num d) = .ok (start { v with
      mPasswordData := v.mPasswordData ++ [toString d.val]
      title := shown 4 v.title
      defaults := UserDefault.write v.defaults ContextUtils.KEY_CONF_PASSWORD
        (String.join (v.mPasswordData ++ [toString d.val])) }) := by
  rw [onClick, if_pos (by omega), hv.digits d]
  show setButtonText nfc { v with mPasswordData := v.mPasswordData ++ [toString d.val] } = _
  rw [setButtonText_four hv.buttons hset (by simp [hl])]

theorem onClick_num_four (d : Fin 10) (hl : v.mPasswordData.length = 4) :
    onClick nfc v (.num d) = .ok v := by
  rw [onClick, if_neg (by omega)]
  rfl

/-- Clearing drops the last digit, and changes nothing but titles when there is none. -/
theorem onClick_btnClear (nfc : String → String) (hv : Ready v) :
    ∃ title, onClick nfc v .btnClear = .ok { v with
        mPasswordData := v.mPasswordData.dropLast, title := title } ∧
      ∀ d : Fin 10, title (.num d) = v.title (.num d) := by
  have hl := hv.length
  by_cases h0 : v.mPasswordData.length = 0
  · refine ⟨v.title, ?_, fun _ => rfl⟩
    have hnil : v.mPasswordData = [] := List.length_eq_zero_iff.mp h0
    rw [onClick, if_neg (by omega)]
    show Except.ok v = _
    rw [hnil, List.dropLast_nil, ← hnil]
  · have hpos : v.mPasswordData.length > 0 ∧ v.mPasswordData.length ≤ 4 := by omega
    have hne : v.mPasswordData ≠ [] := List.length_pos_iff.mp hpos.1
    refine ⟨shown (v.mPasswordData.length - 1) v.title, ?_, fun _ => rfl⟩
    rw [onClick, if_pos hpos, arrayRemove_last hne]
    show setButtonText nfc { v with mPasswordData := v.mPasswordData.dropLast } = _
    rw [setButtonText_lt hv.buttons (by rw [List.length_dropLast]; omega), List.length_dropLast]

theorem start_eq (v : PassWordView) : ∃ view, start v = v.present view := by
  unfold start back
  split
  · split <;> exact ⟨_, rfl⟩
  · split
    · split <;> exact ⟨_, rfl⟩
    · split
      · split <;> exact ⟨_, rfl⟩
      · split
        · exact ⟨_, rfl⟩
        · split <;> exact ⟨_, rfl⟩

/-! ## Verifying a password -/

/-- The digits that a press completes, when it is the fourth digit. -/
def entered (v : PassWordView) : UIButton → Option String
  | .num d =>
    if v.mPasswordData.length = 3 then some (String.join (v.mPasswordData ++ [toString d.val]))
    else none
  | _ => none

/-- What verifying against `p` promises of one press: the stored password stays, the screen
    proceeds on `p` only, and any other entry is emptied. -/
structure Verifies (p : String) (v : PassWordView) (sender : UIButton) (v' : PassWordView) :
    Prop where
  stored : v'.defaults ContextUtils.KEY_CONF_PASSWORD = some p
  proceeds : v'.presented ≠ v.presented → entered v sender = some p
  rejects : ∀ entry, entered v sender = some entry → entry ≠ p →
    v'.mPasswordData = [] ∧ v'.presented = v.presented

/-- The press does not trap, and keeps the promise. -/
def Verified (p : String) (v : PassWordView) (sender : UIButton)
    (outcome : Except Trap PassWordView) : Prop :=
  ∃ v', outcome = .ok v' ∧ Verifies p v sender v'

/-- An entry that the press completes is `p`. -/
def EntersOnly (p : String) (v : PassWordView) (sender : UIButton) : Prop :=
  ∀ entry, entered v sender = some entry → entry = p

/-- A screen that verifies the password `p`. -/
structure Verifying (p : String) (v : PassWordView) : Prop where
  ready : Ready v
  isPasswordset : v.isPasswordset = false
  stored : v.defaults ContextUtils.KEY_CONF_PASSWORD = some p

theorem verifying_opened {p mStartView : String} {defaults : UserDefaults}
    (hp : defaults ContextUtils.KEY_CONF_PASSWORD = some p) :
    Verifying p (opened defaults "GET" mStartView) where
  ready := ⟨rfl, fun _ => rfl, Nat.zero_le _⟩
  isPasswordset := rfl
  stored := hp

/-- A press leaves the buttons in place and the mode of the screen alone. -/
theorem onClick_ready {p : String} (hv : Verifying p v) {sender : UIButton} {v' : PassWordView}
    (h : onClick nfc v sender = .ok v') : Ready v' ∧ v'.isPasswordset = false := by
  have hl := hv.ready.length
  cases sender with
  | num d =>
    by_cases h3 : v.mPasswordData.length < 3
    · rw [onClick_num_lt hv.ready d h3] at h
      cases h
      refine ⟨⟨hv.ready.buttons, hv.ready.digits, ?_⟩, hv.isPasswordset⟩
      simp only [List.length_append, List.length_singleton]
      omega
    · by_cases h4 : v.mPasswordData.length = 4
      · rw [onClick_num_four d h4] at h
        cases h
        exact ⟨hv.ready, hv.isPasswordset⟩
      · rw [onClick_num_three hv.ready hv.isPasswordset d (by omega)] at h
        cases h
        obtain ⟨view, hview⟩ := start_eq { v with
          mPasswordData := v.mPasswordData ++ [toString d.val]
          title := shown 4 v.title
          defaults := UserDefault.write v.defaults ContextUtils.KEY_CONF_PASSWORD
            (String.join (v.mPasswordData ++ [toString d.val])) }
        rw [hview]
        refine ⟨⟨hv.ready.buttons, hv.ready.digits, ?_⟩, hv.isPasswordset⟩
        simp only [present, List.length_append, List.length_singleton]
        omega
  | btnClear =>
    obtain ⟨title, heq, htitle⟩ := onClick_btnClear nfc hv.ready
    rw [heq] at h
    cases h
    refine ⟨⟨hv.ready.buttons, fun d => (htitle d).trans (hv.ready.digits d), ?_⟩,
      hv.isPasswordset⟩
    simp only [List.length_dropLast]
    omega
  | btnPass1 | btnPass2 | btnPass3 | btnPass4 =>
    cases h
    exact ⟨hv.ready, hv.isPasswordset⟩

/-- A press that completes no entry keeps the promise. -/
theorem verified_of_entered_none {p : String} (hv : Verifying p v) {sender : UIButton}
    (he : entered v sender = none) : Verified p v sender (onClick nfc v sender) := by
  have keep : ∀ v' : PassWordView, onClick nfc v sender = .ok v' →
      v'.defaults = v.defaults → v'.presented = v.presented →
      Verified p v sender (onClick nfc v sender) := by
    intro v' h hd hpres
    refine ⟨v', h, by rw [hd]; exact hv.stored, fun hne => absurd hpres hne, fun entry hentry => ?_⟩
    rw [he] at hentry
    cases hentry
  cases sender with
  | num d =>
    have h3 : v.mPasswordData.length ≠ 3 := by
      intro h3
      simp [entered, h3] at he
    by_cases hlt : v.mPasswordData.length < 3
    · exact keep _ (onClick_num_lt hv.ready d hlt) rfl rfl
    · have hl := hv.ready.length
      exact keep _ (onClick_num_four d (by omega)) rfl rfl
  | btnClear =>
    obtain ⟨title, heq, -⟩ := onClick_btnClear nfc hv.ready
    exact keep _ heq rfl rfl
  | btnPass1 | btnPass2 | btnPass3 | btnPass4 => exact keep v rfl rfl rfl

theorem verified_iff_entersOnly {p : String} (hv : Verifying p v) (sender : UIButton) :
    Verified p v sender (onClick nfc v sender) ↔ EntersOnly p v sender := by
  cases he : entered v sender with
  | none =>
    refine ⟨fun _ entry hentry => ?_, fun _ => verified_of_entered_none hv he⟩
    rw [he] at hentry
    cases hentry
  | some entry =>
    cases sender with
    | num d =>
      have h3 : v.mPasswordData.length = 3 := by
        by_contra h3
        simp [entered, h3] at he
      have hentry : String.join (v.mPasswordData ++ [toString d.val]) = entry := by
        simpa [entered, h3] using he
      have hclick := @onClick_num_three nfc v hv.ready hv.isPasswordset d h3
      rw [hentry] at hclick
      obtain ⟨view, hview⟩ := start_eq { v with
        mPasswordData := v.mPasswordData ++ [toString d.val]
        title := shown 4 v.title
        defaults := UserDefault.write v.defaults ContextUtils.KEY_CONF_PASSWORD entry }
      rw [hview] at hclick
      constructor
      · -- The entry is what the press stored, and only `p` may be stored.
        rintro ⟨v', hv', hver⟩ entry' hentry'
        rw [he] at hentry'
        cases hentry'
        rw [hclick] at hv'
        cases hv'
        have hstored := hver.stored
        simpa [present, UserDefault.write] using hstored
      · intro honly
        have hep : entry = p := honly entry he
        subst hep
        refine ⟨_, hclick, ?_, fun _ => he, fun entry' hentry' hne => ?_⟩
        · simp [present, UserDefault.write]
        · rw [he] at hentry'
          cases hentry'
          exact absurd rfl hne
    | btnClear | btnPass1 | btnPass2 | btnPass3 | btnPass4 => cases he

/-- **A session that verifies the password `p` keeps its promises exactly as long as every entry
    that is completed in it is `p`.**

    `hp` says what is verified against: the password that is stored when the pad is opened in this
    mode. Nothing is asked of the presses, of the name under which the pad was opened, or of how
    strings compare. -/
theorem verification_sound_iff {nfc : String → String} {p mStartView : String}
    {defaults : UserDefaults} (hp : defaults ContextUtils.KEY_CONF_PASSWORD = some p)
    (presses : List UIButton) :
    EachStep (onClick nfc) (Verified p) (opened defaults "GET" mStartView) presses ↔
      Guarded (onClick nfc) (EntersOnly p) (opened defaults "GET" mStartView) presses := by
  have hinv : ∀ v sender v', Verifying p v → Verified p v sender (onClick nfc v sender) →
      onClick nfc v sender = .ok v' → Verifying p v' := by
    rintro v sender v' hv ⟨w, hw, hver⟩ h
    rw [hw] at h
    cases h
    obtain ⟨hready, hset⟩ := onClick_ready hv hw
    exact ⟨hready, hset, hver.stored⟩
  exact EachStep.congr hinv (fun v sender hv => verified_iff_entersOnly hv sender)
    (verifying_opened hp) presses

/-- The stored password of a device on which nothing else is stored. -/
def storing (password : String) : UserDefaults :=
  UserDefault.write (fun _ => none) ContextUtils.KEY_CONF_PASSWORD password

theorem verification_sound_right_password :
    EachStep (onClick id) (Verified "1234") (opened (storing "1234") "GET" "")
      [.num 1, .num 2, .num 3, .num 4] := by
  refine (verification_sound_iff (by decide) _).mpr ?_
  refine ⟨?_, fun v h => ⟨?_, fun v' h' => ⟨?_, fun v'' h'' => ⟨?_, fun _ _ => trivial⟩⟩⟩⟩
  · intro entry hentry; cases hentry
  · cases h; intro entry hentry; cases hentry
  · cases h; cases h'; intro entry hentry; cases hentry
  · cases h; cases h'; cases h''
    intro entry hentry
    exact (Option.some.inj hentry).symm.trans (by decide)

/-- Four zeros open the screen that `1234` locks, and are the password from then on. -/
theorem wrong_password_accepted :
    (¬ ∀ (p : String) (presses : List UIButton),
      EachStep (onClick id) (Verified p) (opened (storing p) "GET" "") presses) ∧
    ∃ v, Runs (onClick id) (opened (storing "1234") "GET" "") [.num 0, .num 0, .num 0, .num 0] v ∧
      v.presented = [.view ContextUtils.MAIN_VIEW] ∧
      v.defaults ContextUtils.KEY_CONF_PASSWORD = some "0000" := by
  constructor
  · intro h
    obtain ⟨v, hv, hver⟩ :=
      ((((h "1234" [.num 0, .num 0, .num 0, .num 0]).2 _ rfl).2 _ rfl).2 _ rfl).1
    cases hv
    exact absurd hver.stored (by decide)
  · exact ⟨_, .cons rfl (.cons rfl (.cons rfl (.single rfl))), by decide, by decide⟩

end PassWordView
end KBucket
