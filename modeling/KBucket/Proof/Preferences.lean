import KBucket.Preferences
import KBucket.Proof.PassWord
import KBucket.Proof.Theme
import KBucket.Shell

/-!
# The preferences over whole runs

What is stored under the app's keys are the texts of well-formed preferences, and each action
sets one of them or none. So after any run a screen that is loaded finds the password, the name,
the order and the token that were set last, and a colour that can be read: the one that was
chosen last, on the 256 levels.

The statements are about texts: `Stores` says that what is under each key is the text of a
preference. For a colour that is more than an equality. It is written with the roundings of the
device, whatever they are, and read back by an `Int` of the platform's width, for which the number
in the text can be too large: then the screen that reads it has no colour (`stores_of_runs`).

Most lemmas say of one handler what it leaves alone, and a run passes through many handlers. The
answers to main screens are among the events, whichever screen is in front, and set nothing.
-/

namespace KBucket

open Lib

/-! ## Preferences as texts -/

def Theme.color (theme : Theme) : UIColor where
  red := (theme.red.val : Rat) / 255
  green := (theme.green.val : Rat) / 255
  blue := (theme.blue.val : Rat) / 255
  alpha := 1

def Theme.level (x : Rat) : Fin 256 := ⟨(UIColor.bounded x).toNat, UIColor.bounded_toNat_lt x⟩

/-- The theme that a colour is stored as. -/
def Theme.of (float : Rat → Rat) (c : UIColor) : Theme where
  red := level (float c.red)
  green := level (float c.green)
  blue := level (float c.blue)

theorem Theme.color_of (float : Rat → Rat) (c : UIColor) :
    (Theme.of float c).color = UIColor.onLevels float c := by
  simp only [color, of, level, UIColor.onLevels, UIColor.cast_bounded]

/-- The theme of a device where none was chosen. -/
def Theme.first : Theme := ⟨255, 228, 82⟩

def SortOrder.text : SortOrder → String
  | .date => ContextUtils.SORT_DATE
  | .memo => ContextUtils.SORT_MEMO
  | .deadline => ContextUtils.SORT_DEADLINE

def Pin.ofText? (text : String) : Option Pin :=
  if h : text.toList.length = 4 ∧ text.toList.all Char.isDigit = true then
    some ⟨text, h.1, List.all_eq_true.mp h.2⟩
  else none

theorem Pin.ofText?_text (pin : Pin) : Pin.ofText? pin.text = some pin :=
  dif_pos ⟨pin.length, List.all_eq_true.mpr pin.digits⟩

/-- A text of the app whose digits write the levels of the theme, or none where no theme is
    set. -/
def ThemeText (text : String) : Option Theme → Prop
  | some theme => ∃ c : UIColor.HexColor, text = c.text ∧
      UIColor.ofNumber (c.number * 256 + 255) = theme.color
  | none => text = ""

namespace Preferences

variable {p : Preferences} {key : Key} {change : Change} {text : String}

def Key.name : Key → String
  | .password => ContextUtils.KEY_CONF_PASSWORD
  | .nickname => ContextUtils.KEY_USER_NICKNAME
  | .theme => ContextUtils.BACK_MEMO
  | .sort => ContextUtils.KBUCKET_SORT_KEY
  | .token => ContextUtils.KEY_USER_FCM

theorem Key.name_inj {key key' : Key} (h : key.name = key'.name) : key = key' := by
  revert h
  cases key <;> cases key' <;> decide

/-- The text that is stored for a preference. -/
def Spells (p : Preferences) : Key → String → Prop
  | .password, text => text = (p.password.map Pin.text).getD ""
  | .nickname, text => text = p.nickname
  | .theme, text => ThemeText text p.theme
  | .sort, text => text = (p.sort.map SortOrder.text).getD ""
  | .token, text => text = (p.token.map AppDelegate.tokenText).getD ""

/-- A change leaves the other preferences as they are. -/
theorem spells_set (hkey : key ≠ change.key) (h : p.Spells key text) :
    (p.set change).Spells key text := by
  cases change <;> cases key <;> first | exact h | exact absurd rfl hkey

end Preferences

open Preferences

/-- The preferences that a device has stored. -/
def Stores (defaults : UserDefaults) (p : Preferences) : Prop :=
  ∀ key : Key, p.Spells key (UserDefault.read defaults key.name)

/-- A device on which the app was never started has nothing stored. -/
theorem stores_empty : Stores (fun _ => none) {} := by
  intro key
  cases key <;> rfl

theorem UserDefault.read_write_of_ne {defaults : UserDefaults} {key key' value : String}
    (h : key' ≠ key) : read (write defaults key value) key' = read defaults key' := by
  simp only [read, write, if_neg h]

/-- Writing what a change spells is making the change. -/
theorem Stores.set {defaults : UserDefaults} {p : Preferences} (h : Stores defaults p)
    (change : Change) {text : String} (htext : (p.set change).Spells change.key text) :
    Stores (UserDefault.write defaults change.key.name text) (p.set change) := by
  intro key
  by_cases hkey : key = change.key
  · rw [hkey, UserDefault.read_write]
    exact htext
  · rw [UserDefault.read_write_of_ne (mt Key.name_inj hkey)]
    exact spells_set hkey (h key)

/-! ## The texts of colours -/

theorem themeText_first : ThemeText "#FFE452" (some Theme.first) := by
  have hnumber : UIColor.FFE452.number = 0xFFE452 := by decide
  refine ⟨UIColor.FFE452, rfl, ?_⟩
  rw [hnumber]
  simp only [UIColor.ofNumber, Theme.color, Theme.first]
  norm_num

theorem themeText_hexString {float : Rat → Rat} {w : Nat} {c : UIColor} {text : String}
    (h : c.hexString float w = .ok text) : ThemeText text (some (Theme.of float c)) := by
  obtain ⟨-, rfl⟩ := UIColor.hexString_eq_ok.mp h
  refine ⟨UIColor.stored float c, rfl, ?_⟩
  rw [UIColor.number_stored, UIColor.ofNumber_written, Theme.color_of]

/-- A device of 64 bits reads every text of the app, one of 32 bits those whose number is small. -/
theorem UIColor.HexColor.reads {c : HexColor} {theme : Theme}
    (h : ofNumber (c.number * 256 + 255) = theme.color) :
    hexRGB 64 (some c.text) = some theme.color ∧
      hexRGB 32 (some c.text) = if c.number < 0x800000 then some theme.color else none := by
  have hlt := c.number_lt
  have h64 := hexRGB_eq (w := 64) (by decide) c.read_digits
  have h32 := hexRGB_eq (w := 32) (by decide) c.read_digits
  rw [if_pos (by omega), h] at h64
  rw [h] at h32
  refine ⟨h64, h32.trans ?_⟩
  by_cases hsmall : c.number < 0x800000
  · rw [if_pos (by omega), if_pos hsmall]
  · rw [if_neg (by omega), if_neg hsmall]

/-! ## The pad -/

theorem toString_digit (d : Fin 10) :
    ∃ c, (toString d.val).toList = [c] ∧ c.isDigit = true := by
  have hall : ∀ d : Fin 10, (toString d.val).toList.length = 1 ∧
      (toString d.val).toList.all Char.isDigit = true := by decide
  obtain ⟨c, hc⟩ := List.length_eq_one_iff.mp (hall d).1
  have hdigit := (hall d).2
  rw [hc] at hdigit
  exact ⟨c, hc, by simpa using hdigit⟩

/-- Texts that are one digit each. -/
def Digits (data : List String) : Prop := ∀ text ∈ data, ∃ d : Fin 10, text = toString d.val

theorem toList_join_digits {data : List String} (h : Digits data) :
    (String.join data).toList.length = data.length ∧
      ∀ c ∈ (String.join data).toList, c.isDigit = true := by
  induction data with
  | nil => exact ⟨rfl, fun c hc => by cases hc⟩
  | cons text data ih =>
    obtain ⟨⟨d, rfl⟩, hdata⟩ := List.forall_mem_cons.mp h
    obtain ⟨hlen, hdigits⟩ := ih hdata
    obtain ⟨c, hc, hdigit⟩ := toString_digit d
    have hjoin :
        (String.join (toString d.val :: data)).toList = c :: (String.join data).toList := by
      rw [String.join_cons, String.toList_append, hc]
      rfl
    rw [hjoin]
    refine ⟨by rw [List.length_cons, List.length_cons, hlen], ?_⟩
    exact List.forall_mem_cons.mpr ⟨hdigit, hdigits⟩

namespace PassWordView

variable {nfc : String → String} {v : PassWordView}

/-- The pad as the settings open it, while digits are entered. -/
structure Entering (v : PassWordView) : Prop where
  ready : Ready v
  isPasswordset : v.isPasswordset = false
  mStartView : v.mStartView = ""
  digits : Digits v.mPasswordData
  length : v.mPasswordData.length < 4
  presented : v.presented = []

theorem entering_opened (defaults : UserDefaults) : Entering (opened defaults "" "") where
  ready := ⟨rfl, fun _ => rfl, Nat.zero_le _⟩
  isPasswordset := rfl
  mStartView := rfl
  digits := fun _ h => by cases h
  length := Nat.zero_lt_succ _
  presented := rfl

theorem start_of_empty (h : v.mStartView = "") :
    v.start = v.present (.view ContextUtils.MAIN_VIEW) := by
  obtain ⟨data, isSet, setting, startView, mButton, title, defaults, presented, toasts⟩ := v
  cases h
  rfl

/-- A press on the open pad: it goes on, with the preferences as they were, or it completes a
    password, which is stored, and leaves for the main screen. -/
theorem onClick_entering (nfc : String → String) (hv : Entering v) (sender : UIButton) :
    ∃ u, onClick nfc v sender = .ok u ∧
      ((entered v sender = none ∧ Entering u ∧ u.defaults = v.defaults) ∨
        ∃ pin : Pin, entered v sender = some pin.text ∧
          u.defaults = UserDefault.write v.defaults ContextUtils.KEY_CONF_PASSWORD pin.text ∧
          u.presented = [.view ContextUtils.MAIN_VIEW]) := by
  have hl := hv.length
  cases sender with
  | num d =>
    have hdigits : Digits (v.mPasswordData ++ [toString d.val]) := fun text htext => by
      rcases List.mem_append.mp htext with h | h
      · exact hv.digits text h
      · exact ⟨d, List.mem_singleton.mp h⟩
    by_cases h3 : v.mPasswordData.length < 3
    · refine ⟨_, onClick_num_lt hv.ready d h3, .inl ⟨?_, ?_, rfl⟩⟩
      · rw [entered, if_neg (by omega)]
      · have hlen : (v.mPasswordData ++ [toString d.val]).length < 4 := by
          rw [List.length_append, List.length_singleton]
          omega
        exact {
          ready := ⟨hv.ready.buttons, hv.ready.digits, Nat.le_of_lt hlen⟩
          isPasswordset := hv.isPasswordset, mStartView := hv.mStartView
          digits := hdigits, length := hlen, presented := hv.presented }
    · have hthree : v.mPasswordData.length = 3 := by omega
      obtain ⟨hlen, hall⟩ := toList_join_digits hdigits
      rw [List.length_append, hthree] at hlen
      have hclick := @onClick_num_three nfc v hv.ready hv.isPasswordset d hthree
      rw [start_of_empty] at hclick
      · refine ⟨_, hclick, .inr
          ⟨⟨String.join (v.mPasswordData ++ [toString d.val]), hlen, hall⟩, ?_, rfl, ?_⟩⟩
        · rw [entered, if_pos hthree]
        · rw [present, hv.presented]
          rfl
      · exact hv.mStartView
  | btnClear =>
    obtain ⟨title, heq, htitle⟩ := onClick_btnClear nfc hv.ready
    have hlen : v.mPasswordData.dropLast.length < 4 := by
      rw [List.length_dropLast]
      omega
    refine ⟨_, heq, .inl ⟨rfl, ?_, rfl⟩⟩
    exact {
      ready := ⟨hv.ready.buttons, fun d => (htitle d).trans (hv.ready.digits d), Nat.le_of_lt hlen⟩
      isPasswordset := hv.isPasswordset, mStartView := hv.mStartView
      digits := fun text htext => hv.digits text (List.dropLast_subset _ htext)
      length := hlen, presented := hv.presented }
  | btnPass1 | btnPass2 | btnPass3 | btnPass4 => exact ⟨v, rfl, .inl ⟨rfl, hv, rfl⟩⟩

end PassWordView

/-! ## The screens of the store -/

namespace WriteView

variable {nfc : String → String} {v u : WriteView}

theorem sort_device (v : WriteView) : (sort nfc v).device = v.device := by
  unfold sort
  dsimp only
  split
  · rfl
  · split
    · rfl
    · split <;> rfl

/-- The order that a press stores. -/
def sortOrder? : Event → Option SortOrder
  | .btSortLastest => some .date
  | .btSortName => some .memo
  | .btSortDeadLine => some .deadline
  | _ => none

/-- What the screen stores beside the store. -/
def writeOrder (defaults : UserDefaults) : Option SortOrder → UserDefaults
  | some order => UserDefault.write defaults ContextUtils.KBUCKET_SORT_KEY order.text
  | none => defaults

theorem receiveEventFromViewItem_defaults [Platform] {gbn : Int} {data : String}
    (h : v.receiveEventFromViewItem gbn data = .ok u) :
    u.device.defaults = v.device.defaults := by
  unfold receiveEventFromViewItem at h
  split at h
  · obtain ⟨index, -, h⟩ := bind_eq_ok.mp h
    obtain ⟨CONTENTS, -, h⟩ := bind_eq_ok.mp h
    cases h
    rfl
  · split at h
    · obtain ⟨index, -, h⟩ := bind_eq_ok.mp h
      split at h
      · obtain ⟨deleteItem, -, h⟩ := bind_eq_ok.mp h
        obtain ⟨⟨result, v'⟩, hremove, h⟩ := bind_eq_ok.mp h
        obtain ⟨p, -, hremove⟩ := bind_eq_ok.mp hremove
        cases hremove
        dsimp only at h
        split at h
        · obtain ⟨mDataList, -, h⟩ := bind_eq_ok.mp h
          cases h
          rfl
        · cases h
          rfl
      · cases h
        rfl
    · cases h
      rfl

theorem step_defaults [Platform] {event : Event} (h : step nfc v event = .ok u) :
    u.device.defaults = writeOrder v.device.defaults (sortOrder? event) := by
  cases event with
  | btAdd text =>
    unfold step onClick at h
    dsimp only at h
    split at h
    · cases h
      rfl
    · obtain ⟨⟨result, realm⟩, -, h⟩ := bind_eq_ok.mp h
      cases h
      rfl
  | rowDelete data => exact receiveEventFromViewItem_defaults h
  | btSortLastest | btSortName | btSortDeadLine =>
    cases h
    rw [sort_device]
    rfl

end WriteView

namespace WriteDetailView

variable {v u : WriteDetailView}

theorem back_defaults (v : WriteDetailView) (strBack : String) :
    (v.back strBack).device = v.device := by
  unfold back
  split <;> rfl

theorem foldl_showBucket_defaults (today : String) (v : WriteDetailView) (list : List Bucket) :
    (list.foldl (showBucket today) v).device = v.device := by
  induction list generalizing v with
  | nil => rfl
  | cons kbucket list ih => exact ih (showBucket today v kbucket)

theorem viewDidLoad_defaults {today CONTENTS BACK : String} {device : Device}
    (h : viewDidLoad today device CONTENTS BACK = .ok u) : u.device = device := by
  obtain ⟨list, -, h⟩ := bind_eq_ok.mp h
  cases h
  exact foldl_showBucket_defaults today _ list

theorem step_defaults {event : Event} (h : step v event = .ok u) :
    u.device.defaults = v.device.defaults := by
  cases event with
  | btSave =>
    obtain ⟨v', hsave, h⟩ := bind_eq_ok.mp h
    obtain ⟨realm, -, hsave⟩ := bind_eq_ok.mp hsave
    cases hsave
    cases h
    rw [back_defaults]
  | btDel =>
    obtain ⟨v', hdel, h⟩ := bind_eq_ok.mp h
    obtain ⟨p, -, hdel⟩ := bind_eq_ok.mp hdel
    cases hdel
    cases h
    rw [back_defaults]
  | onBackPressed =>
    cases h
    rw [back_defaults]
  | _ =>
    cases h
    rfl

end WriteDetailView

namespace AddBucketView

variable {v u : AddBucketView}

theorem receiveEventFromViewItem_defaults {date data : String} {gbn : Int}
    (h : v.receiveEventFromViewItem date gbn data = .ok u) :
    u.device.defaults = v.device.defaults := by
  unfold receiveEventFromViewItem addDBData removeDBData at h
  split at h
  · obtain ⟨inContainsBucket, -, h⟩ := bind_eq_ok.mp h
    split at h
    · obtain ⟨p, -, h⟩ := bind_eq_ok.mp h
      cases h
      rfl
    · cases h
      rfl
  · split at h
    · obtain ⟨p, -, h⟩ := bind_eq_ok.mp h
      obtain ⟨inContainsBucket, -, h⟩ := bind_eq_ok.mp h
      cases h
      rfl
    · cases h
      rfl

end AddBucketView

namespace App

variable {nfc : String → String} {app app' : App}

/-- The order that an action stores. -/
def sortOrder? : App → Event → Option SortOrder
  | .write _, .write event => WriteView.sortOrder? event
  | _, _ => none

theorem follow_defaults {today : String} {presented : List Presented}
    (h : follow today app presented = .ok app') : app'.device = app.device := by
  unfold follow at h
  split at h
  · next next _ =>
    cases next with
    | writeDetail CONTENTS BACK =>
      obtain ⟨v, hload, h⟩ := map_eq_ok.mp h
      cases h
      exact WriteDetailView.viewDidLoad_defaults hload
    | view strView =>
      unfold present at h
      dsimp only at h
      split at h <;> cases h <;> rfl
    | main mWidgetSendData =>
      cases h
      rfl
  · cases h
    rfl

/-- The screens of the store write one preference: the order of the to-do list. -/
theorem step_defaults [Platform] {today : String} {event : Event}
    (h : step nfc app (today, event) = .ok app') :
    app'.device.defaults = WriteView.writeOrder app.device.defaults (sortOrder? app event) := by
  cases app with
  | main device =>
    cases event with
    | openWrite =>
      cases h
      show (WriteView.viewDidLoad nfc device).device.defaults = _
      rw [WriteView.viewDidLoad, WriteView.sort_device]
      rfl
    | _ => cases h; rfl
  | write v =>
    cases event with
    | write event =>
      obtain ⟨u, hstep, h⟩ := map_eq_ok.mp h
      cases h
      exact WriteView.step_defaults hstep
    | rowMod data =>
      obtain ⟨u, hrow, h⟩ := bind_eq_ok.mp h
      rw [follow_defaults h]
      exact WriteView.receiveEventFromViewItem_defaults hrow
    | _ => cases h; rfl
  | detail v =>
    cases event with
    | detail event =>
      obtain ⟨u, hstep, h⟩ := bind_eq_ok.mp h
      rw [follow_defaults h]
      exact WriteDetailView.step_defaults hstep
    | _ => cases h; rfl
  | bucketList v =>
    cases event with
    | rowDetail data =>
      obtain ⟨u, hrow, h⟩ := bind_eq_ok.mp h
      rw [follow_defaults h]
      obtain ⟨index, -, hrow⟩ := bind_eq_ok.mp hrow
      obtain ⟨CONTENTS, -, hrow⟩ := bind_eq_ok.mp hrow
      cases hrow
      rfl
    | _ => cases h; rfl
  | addBucket v =>
    cases event with
    | rowAdd data =>
      obtain ⟨u, hrow, h⟩ := map_eq_ok.mp h
      cases h
      exact AddBucketView.receiveEventFromViewItem_defaults hrow
    | rowRemove data =>
      obtain ⟨u, hrow, h⟩ := map_eq_ok.mp h
      cases h
      exact AddBucketView.receiveEventFromViewItem_defaults hrow
    | _ => cases h; rfl
  | dbMgr device => cases event <;> (cases h; rfl)

end App

/-! ## The screens that are loaded -/

theorem Stores.colour {defaults : UserDefaults} {p : Preferences} (h : Stores defaults p)
    (htheme : p.theme.isSome) :
    0 < (UserDefault.read defaults ContextUtils.BACK_MEMO).length := by
  obtain ⟨theme, htheme⟩ := Option.isSome_iff_exists.mp htheme
  have hspells := h .theme
  rw [Spells, htheme] at hspells
  obtain ⟨c, htext, -⟩ := hspells
  have htext : UserDefault.read defaults ContextUtils.BACK_MEMO = c.text := htext
  rw [htext, UIColor.HexColor.text, String.length_ofList]
  exact Nat.zero_lt_succ _

theorem MainView.viewDidLoad_defaults {w : Nat} {isConnect : Bool} {defaults : UserDefaults}
    (h : 0 < (UserDefault.read defaults ContextUtils.BACK_MEMO).length) :
    (MainView.viewDidLoad w isConnect defaults).controller.defaults = defaults := by
  unfold viewDidLoad ViewController.setBackgroundColor
  simp only [gt_iff_lt, if_pos h]
  cases isConnect <;> rfl

namespace ViewController

variable {v u : ViewController}

theorem checkVersion_defaults [Platform] {versionName forceYN : String}
    (h : v.checkVersion versionName forceYN = .ok u) : u.defaults = v.defaults := by
  unfold checkVersion at h
  split at h
  · obtain ⟨order, -, h⟩ := bind_eq_ok.mp h
    split at h
    · split at h <;> cases h <;> rfl
    · cases h
      rfl
  · cases h
    rfl

/-- An answer changes no preference. -/
theorem onHttpReceive_defaults [Platform] {type actionId : Int} {data : Option Json}
    (h : v.onHttpReceive type actionId data = .ok u) : u.defaults = v.defaults := by
  unfold onHttpReceive at h
  split at h
  · split at h
    · split at h
      · obtain ⟨message, -, h⟩ := bind_eq_ok.mp h
        cases h
        rfl
      · cases h; rfl
      · cases h; rfl
    · cases h; rfl
  · split at h
    · split at h <;> cases h <;> rfl
    · split at h
      · split at h
        · split at h
          · split at h
            · obtain ⟨versionName, -, h⟩ := bind_eq_ok.mp h
              obtain ⟨forceYN, -, h⟩ := bind_eq_ok.mp h
              exact checkVersion_defaults h
            · cases h; rfl
          · cases h; rfl
          · cases h; rfl
        · cases h; rfl
      · cases h; rfl

end ViewController

namespace MainView

variable {v : MainView}

theorem viewDidAppear_controller {hash : HashOrder} {phone : Phone} {isConnect : Bool}
    {u : MainView} {requests : List URLRequest}
    (h : v.viewDidAppear hash phone isConnect = .ok (u, requests)) :
    u.controller = v.controller := by
  unfold viewDidAppear at h
  dsimp only at h
  split at h
  · cases h
    rfl
  · split at h
    · obtain ⟨request, -, h⟩ := bind_eq_ok.mp h
      cases h
      rfl
    · cases h
      rfl

theorem onClick_defaults (isConnect : Bool) (v : MainView) (button : Button) :
    (v.onClick isConnect button).controller.defaults = v.controller.defaults := by
  cases button with
  | btAI => cases isConnect <;> rfl
  | _ => rfl

end MainView

namespace Front

variable {env : Surroundings} {now : Moment}

/-- The pad is only in front while digits are entered. -/
def PadOpen : Front → Prop
  | .passWord _ v => v.Entering
  | _ => True

theorem load_padOpen [Platform] (device : Device) (strView : String) :
    (load env now device strView).PadOpen := by
  unfold load
  split_ifs <;> first | trivial | exact PassWordView.entering_opened _

/-- Where a colour is stored already, loading a screen stores nothing. -/
theorem load_device [Platform] {device : Device}
    (h : 0 < (UserDefault.read device.defaults ContextUtils.BACK_MEMO).length)
    (strView : String) : (load env now device strView).device = device := by
  unfold load
  split_ifs
  · rw [Front.device, MainView.viewDidLoad_defaults h]
  · rw [Front.device, App.device, WriteView.viewDidLoad, WriteView.sort_device]
  · rfl
  · rfl
  · rfl
  · rfl
  · rfl
  · rw [Front.device, SetNickNameView.viewDidLoad]
    split <;> rfl
  · rfl
  · rfl

theorem setDefaults_padOpen {front : Front} (h : front.PadOpen) (defaults : UserDefaults) :
    (front.setDefaults defaults).PadOpen := by
  cases front with
  | passWord realm v =>
    exact ⟨⟨h.ready.buttons, h.ready.digits, h.ready.length⟩, h.isPasswordset, h.mStartView,
      h.digits, h.length, h.presented⟩
  | store app => cases app <;> trivial
  | _ => trivial

theorem follow_padOpen [Platform] {front : Front} (h : front.PadOpen) (presented : List Presented) :
    (follow env now front presented).PadOpen := by
  unfold follow
  split
  · exact load_padOpen _ _
  · exact load_padOpen _ _
  · exact h

theorem follow_device [Platform] {front : Front}
    (h : 0 < (UserDefault.read front.device.defaults ContextUtils.BACK_MEMO).length)
    (presented : List Presented) : (follow env now front presented).device = front.device := by
  unfold follow
  split
  · exact load_device h _
  · exact load_device h _
  · rfl

end Front

namespace SetNickNameView

/-- The name that a press stores. -/
def name? (nfc : String → String) (swift : StringUtils.Characters) (v : SetNickNameView) :
    Option String :=
  v.etName.bind fun name =>
    if stringEq nfc name "" then none
    else some (StringUtils.replacingOccurrences swift name " " "")

theorem onClick_defaults (nfc : String → String) (swift : StringUtils.Characters)
    (v : SetNickNameView) :
    (v.onClick nfc swift).defaults = match v.name? nfc swift with
      | some name => UserDefault.write v.defaults ContextUtils.KEY_USER_NICKNAME name
      | none => v.defaults := by
  unfold onClick name?
  cases v.etName with
  | none => rfl
  | some name =>
    dsimp only [Option.bind_some]
    split <;> rfl

end SetNickNameView

namespace SettingView

theorem changeMenuView_defaults {v : SettingView} {menu : Int} (h : menu ≠ 1) :
    (v.changeMenuView menu).defaults = v.defaults := by
  unfold changeMenuView
  simp only [if_neg h]
  split_ifs <;> rfl

end SettingView

namespace Shell

variable {env : Surroundings} {s t : Shell}

/-! ## The answers to the main screens -/

/-- What an answer makes of the screen in front: nothing, where it went to a screen that was left,
    or the main screen on the same preferences. -/
inductive Received : Front → Front → Prop
  | behind (front : Front) : Received front front
  | main (realm : Realm) (v : MainView) (controller : ViewController) :
      controller.defaults = v.controller.defaults →
      Received (.main realm v) (.main realm { v with controller })

theorem Received.device {front front' : Front} (h : Received front front') :
    front'.device = front.device := by
  cases h with
  | behind => rfl
  | main realm v controller hdefaults => exact congrArg (Device.mk realm) hdefaults

theorem Received.padOpen {front front' : Front} (h : Received front front')
    (hopen : front.PadOpen) : front'.PadOpen := by
  cases h with
  | behind => exact hopen
  | main => trivial

theorem awaited?_eq_some {receiver : Receiver} {i : Nat} {v : ViewController}
    {request : HttpRequest} (h : s.awaited? receiver i = some (v, request)) :
    ∃ u, s.controller? receiver = some u ∧ v.defaults = u.defaults := by
  obtain ⟨u, hu, h⟩ := Option.bind_eq_some_iff.mp h
  obtain ⟨_, -, h⟩ := Option.map_eq_some_iff.mp h
  cases h
  exact ⟨u, hu, rfl⟩

theorem setController_received {receiver : Receiver} {u controller : ViewController}
    (hu : s.controller? receiver = some u) (hdefaults : controller.defaults = u.defaults) :
    Received s.front (s.setController controller receiver).front ∧
      (s.setController controller receiver).updates = s.updates := by
  obtain ⟨front, updates, behind⟩ := s
  cases receiver with
  | behind i => exact ⟨.behind front, rfl⟩
  | front =>
    cases front with
    | main realm v =>
      cases hu
      exact ⟨.main realm v controller hdefaults, rfl⟩
    | _ => cases hu

theorem receive_received [Platform] {receiver : Receiver} {i : Nat} {type : Int}
    {data : Option Json} (h : s.receive receiver i type data = .ok t) :
    Received s.front t.front ∧ t.updates = s.updates := by
  unfold receive at h
  split at h
  · next v request hawaited =>
    obtain ⟨u, hu, hdefaults⟩ := awaited?_eq_some hawaited
    obtain ⟨controller, hreceive, h⟩ := bind_eq_ok.mp h
    cases h
    exact setController_received hu
      ((ViewController.onHttpReceive_defaults hreceive).trans hdefaults)
  · cases h
    exact ⟨.behind _, rfl⟩

theorem eq_of_lose {receiver : Receiver} {i : Nat} (h : s.lose receiver i = .ok t) : t = s := by
  unfold lose at h
  split at h
  · cases h
  · cases h
    rfl

/-! ## One action -/

/-- What an action does to the preferences. -/
def change (env : Surroundings) (s : Shell) (e : Moment × Event) : Option Preferences.Change :=
  match s.front, e.2 with
  | _, .token deviceToken => some (.token deviceToken)
  | .store app, .store event => (App.sortOrder? app event).map .sort
  | .setting _ v, .menu row =>
    if row = 1 ∧ 1 < v.numberOfRowsInSection then some (.password none) else none
  | .passWord _ v, .pad sender =>
    ((PassWordView.entered v sender).bind Pin.ofText?).map fun pin => .password (some pin)
  | .setNickName _ v, .setName => (v.name? env.nfc env.swift).map .nickname
  | .setBackColor _ v, .colour sender =>
    (v.backgroundColor sender).map fun c => .theme (.of env.float c)
  | _, _ => none

/-- The device has the preferences stored, with a theme among them, and the pad is open if it is in
    front. -/
structure Keeps (s : Shell) (p : Preferences) : Prop where
  stores : Stores s.front.device.defaults p
  theme : p.theme.isSome
  pad : s.front.PadOpen

variable {p : Preferences} {now : Moment}

theorem Keeps.received (h : Keeps s p) (hfront : Received s.front t.front) : Keeps t p where
  stores := hfront.device.symm ▸ h.stores
  theme := h.theme
  pad := hfront.padOpen h.pad

theorem Keeps.colour (h : Keeps s p) :
    0 < (UserDefault.read s.front.device.defaults ContextUtils.BACK_MEMO).length :=
  h.stores.colour h.theme

/-- A screen is loaded on the same preferences. -/
theorem Keeps.load [Platform] (device : Device) (hstores : Stores device.defaults p)
    (htheme : p.theme.isSome) (strView : String) (updates : List URLRequest)
    (behind : List Left) : Keeps ⟨Front.load env now device strView, updates, behind⟩ p where
  stores := by
    show Stores (Front.load env now device strView).device.defaults p
    rw [Front.load_device (hstores.colour htheme)]
    exact hstores
  theme := htheme
  pad := Front.load_padOpen device strView

theorem Keeps.follow [Platform] (front : Front) (hstores : Stores front.device.defaults p)
    (htheme : p.theme.isSome) (hpad : front.PadOpen) (presented : List Presented)
    (updates : List URLRequest) (behind : List Left) :
    Keeps ⟨Front.follow env now front presented, updates, behind⟩ p where
  stores := by
    show Stores (Front.follow env now front presented).device.defaults p
    rw [Front.follow_device (hstores.colour htheme)]
    exact hstores
  theme := htheme
  pad := Front.follow_padOpen hpad presented

variable {realm : Realm} {updates : List URLRequest} {behind : List Left}

theorem keeps_token [Platform] (h : Keeps s p) (deviceToken : Data)
    (hstep : step env s (now, .token deviceToken) = .ok t) :
    Keeps t (p.set (.token deviceToken)) := by
  rw [step_token] at hstep
  cases hstep
  refine ⟨?_, h.theme, Front.setDefaults_padOpen h.pad _⟩
  rw [Front.device_setDefaults]
  exact h.stores.set (.token deviceToken) rfl

theorem keeps_store [Platform] {app : App} (h : Keeps ⟨.store app, updates, behind⟩ p)
    (event : App.Event)
    (hstep : step env ⟨.store app, updates, behind⟩ (now, .store event) = .ok t) :
    Keeps t (((App.sortOrder? app event).map Change.sort).toList.foldl Preferences.set p) := by
  rw [step_store] at hstep
  obtain ⟨app', happ, hstep⟩ := bind_eq_ok.mp hstep
  cases hstep
  have hdefaults := App.step_defaults happ
  have hstores : Stores app'.device.defaults
        (((App.sortOrder? app event).map Change.sort).toList.foldl Preferences.set p) ∧
      (((App.sortOrder? app event).map Change.sort).toList.foldl Preferences.set
        p).theme.isSome := by
    rw [hdefaults]
    cases App.sortOrder? app event with
    | none => exact ⟨h.stores, h.theme⟩
    | some order => exact ⟨h.stores.set (.sort order) rfl, h.theme⟩
  cases app' with
  | main device => exact Keeps.load device hstores.1 hstores.2 _ _ _
  | _ => exact ⟨hstores.1, hstores.2, trivial⟩

theorem keeps_menu [Platform] {v : SettingView} (h : Keeps ⟨.setting realm v, updates, behind⟩ p)
    (row : Nat) (hstep : step env ⟨.setting realm v, updates, behind⟩ (now, .menu row) = .ok t) :
    Keeps t ((if row = 1 ∧ 1 < v.numberOfRowsInSection then some (Change.password none)
      else none).toList.foldl Preferences.set p) := by
  rw [step_menu] at hstep
  cases hstep
  by_cases hrow : row < v.numberOfRowsInSection
  · rw [if_pos hrow]
    by_cases hone : row = 1
    · rw [if_pos ⟨hone, hone ▸ hrow⟩, hone]
      refine Keeps.follow (p := p.set (.password none))
        (.setting realm (v.changeMenuView (1 : Nat))) ?_ h.theme trivial _ _ _
      exact h.stores.set (.password none) rfl
    · rw [if_neg (mt And.left hone)]
      refine Keeps.follow (.setting realm (v.changeMenuView row)) ?_ h.theme trivial _ _ _
      show Stores (v.changeMenuView row).defaults p
      rw [SettingView.changeMenuView_defaults (by omega)]
      exact h.stores
  · have hnot : ¬ (row = 1 ∧ 1 < v.numberOfRowsInSection) := fun hand => hrow (hand.1 ▸ hand.2)
    rw [if_neg hrow, if_neg hnot]
    exact h

theorem keeps_pad [Platform] {v : PassWordView} (h : Keeps ⟨.passWord realm v, updates, behind⟩ p)
    (sender : UIButton)
    (hstep : step env ⟨.passWord realm v, updates, behind⟩ (now, .pad sender) = .ok t) :
    Keeps t ((((PassWordView.entered v sender).bind Pin.ofText?).map
      fun pin => Change.password (some pin)).toList.foldl Preferences.set p) := by
  have hentering : v.Entering := h.pad
  obtain ⟨u, hclick, hcases⟩ := PassWordView.onClick_entering env.nfc hentering sender
  rw [step_pad, hclick] at hstep
  cases hstep
  rcases hcases with ⟨hnone, hopen, hdefaults⟩ | ⟨pin, hpin, hdefaults, hpresented⟩
  · rw [hnone]
    refine Keeps.follow (.passWord realm u) ?_ h.theme hopen _ _ _
    show Stores u.defaults p
    rw [hdefaults]
    exact h.stores
  · rw [hpin, Option.bind_some, Pin.ofText?_text, hpresented]
    have hstores : Stores u.defaults (p.set (.password (some pin))) := by
      rw [hdefaults]
      exact h.stores.set (.password (some pin)) rfl
    exact Keeps.load ⟨realm, u.defaults⟩ hstores h.theme _ _ _

theorem keeps_setName [Platform] {v : SetNickNameView}
    (h : Keeps ⟨.setNickName realm v, updates, behind⟩ p)
    (hstep : step env ⟨.setNickName realm v, updates, behind⟩ (now, .setName) = .ok t) :
    Keeps t (((v.name? env.nfc env.swift).map Change.nickname).toList.foldl Preferences.set p) := by
  rw [step_setName] at hstep
  cases hstep
  have hdefaults := SetNickNameView.onClick_defaults env.nfc env.swift v
  cases hname : v.name? env.nfc env.swift with
  | none =>
    rw [hname] at hdefaults
    refine Keeps.follow (.setNickName realm (v.onClick env.nfc env.swift)) ?_ h.theme trivial _ _ _
    show Stores (v.onClick env.nfc env.swift).defaults p
    rw [hdefaults]
    exact h.stores
  | some name =>
    rw [hname] at hdefaults
    refine Keeps.follow (p := p.set (.nickname name))
      (.setNickName realm (v.onClick env.nfc env.swift)) ?_ h.theme trivial _ _ _
    show Stores (v.onClick env.nfc env.swift).defaults (p.set (.nickname name))
    rw [hdefaults]
    exact h.stores.set (.nickname name) rfl

theorem keeps_colour [Platform] {v : SetBackColorView}
    (h : Keeps ⟨.setBackColor realm v, updates, behind⟩ p) (sender : Fin 18)
    (hstep : step env ⟨.setBackColor realm v, updates, behind⟩ (now, .colour sender) = .ok t) :
    Keeps t (((v.backgroundColor sender).map fun c => Change.theme (.of env.float c)).toList.foldl
      Preferences.set p) := by
  rw [step_colour] at hstep
  obtain ⟨u, hclick, hstep⟩ := bind_eq_ok.mp hstep
  cases hstep
  obtain ⟨c, hc, hclick⟩ := bind_eq_ok.mp hclick
  obtain ⟨text, htext, hclick⟩ := bind_eq_ok.mp hclick
  rw [unwrap_eq_ok.mp hc]
  have hdefaults : u.defaults = UserDefault.write v.defaults ContextUtils.BACK_MEMO text := by
    cases hclick
    unfold SetBackColorView.setBackgroundColor
    dsimp only
    split <;> rfl
  refine ⟨?_, rfl, trivial⟩
  show Stores u.defaults _
  rw [hdefaults]
  exact h.stores.set (.theme (.of env.float c)) (themeText_hexString htext)

/-- **One action sets the preference that it is about, and leaves the others.** -/
theorem keeps_step [Platform] {e : Moment × Event} (h : Keeps s p)
    (hstep : step env s e = .ok t) :
    Keeps t ((change env s e).toList.foldl Preferences.set p) := by
  obtain ⟨now, event⟩ := e
  obtain ⟨front, updates, behind⟩ := s
  cases event with
  | token deviceToken =>
    have hchange : change env ⟨front, updates, behind⟩ (now, .token deviceToken)
        = some (.token deviceToken) := by cases front <;> rfl
    rw [hchange]
    exact keeps_token h deviceToken hstep
  | appear shown =>
    cases front with
    | main realm v =>
      rw [step_appear] at hstep
      obtain ⟨⟨u, requests⟩, happear, hstep⟩ := bind_eq_ok.mp hstep
      cases hstep
      have hcontroller := MainView.viewDidAppear_controller happear
      refine Keeps.follow (.main realm { u with presented := [] }) ?_ h.theme trivial _ _ _
      show Stores u.controller.defaults p
      rw [hcontroller]
      exact h.stores
    | _ => cases hstep; exact h
  | main button =>
    cases front with
    | main realm v =>
      rw [step_main] at hstep
      cases hstep
      refine Keeps.follow (.main realm (v.onClick now.isConnect button)) ?_ h.theme trivial _ _ _
      show Stores (v.onClick now.isConnect button).controller.defaults p
      rw [MainView.onClick_defaults]
      exact h.stores
    | _ => cases hstep; exact h
  | receive receiver i type data =>
    rw [step_receive] at hstep
    have hchange : change env ⟨front, updates, behind⟩ (now, .receive receiver i type data)
        = none := by cases front <;> rfl
    rw [hchange]
    exact h.received (receive_received hstep).1
  | lose receiver i =>
    rw [step_lose] at hstep
    have hchange : change env ⟨front, updates, behind⟩ (now, .lose receiver i) = none := by
      cases front <;> rfl
    rw [hchange, eq_of_lose hstep]
    exact h
  | store event =>
    cases front with
    | store app => exact keeps_store h event hstep
    | _ => cases hstep; exact h
  | menu row =>
    cases front with
    | setting realm v => exact keeps_menu h row hstep
    | _ => cases hstep; exact h
  | pad sender =>
    cases front with
    | passWord realm v => exact keeps_pad h sender hstep
    | _ => cases hstep; exact h
  | typeName etName => cases front <;> (cases hstep; exact ⟨h.stores, h.theme, h.pad⟩)
  | setName =>
    cases front with
    | setNickName realm v => exact keeps_setName h hstep
    | _ => cases hstep; exact h
  | colour sender =>
    cases front with
    | setBackColor realm v => exact keeps_colour h sender hstep
    | _ => cases hstep; exact h
  | back =>
    cases front with
    | main realm v => cases hstep; exact h
    | store app => cases hstep; exact h
    | _ => cases hstep; exact Keeps.load _ h.stores h.theme _ _ _

/-- Starting the app stores a colour where none is. -/
theorem keeps_launched [Platform] (now : Moment) {device : Device} (h : Stores device.defaults p) :
    Keeps (launched env now device) (p.withTheme Theme.first) := by
  have hspells := h .theme
  cases htheme : p.theme with
  | some theme =>
    have hp : p.withTheme Theme.first = p := by
      obtain ⟨password, nickname, _, sort, token⟩ := p
      cases htheme
      rfl
    rw [hp]
    exact Keeps.load device h (by rw [htheme]; rfl) _ _ _
  | none =>
    rw [Spells, htheme] at hspells
    have hempty : UserDefault.read device.defaults ContextUtils.BACK_MEMO = "" := hspells
    have hp : p.withTheme Theme.first = p.set (.theme Theme.first) := by
      rw [withTheme, htheme]
      rfl
    have hdefaults : (launched env now device).front.device.defaults
        = UserDefault.write device.defaults ContextUtils.BACK_MEMO "#FFE452" := by
      show (MainView.viewDidLoad Platform.bitWidth now.isConnect
        device.defaults).controller.defaults = _
      unfold MainView.viewDidLoad ViewController.setBackgroundColor
      rw [hempty]
      cases now.isConnect <;> rfl
    refine ⟨?_, rfl, @Front.load_padOpen env now _ device ContextUtils.MAIN_VIEW⟩
    rw [hdefaults, hp]
    exact h.set (.theme Theme.first) themeText_first

/-- **What is stored after a run of the app are well-formed preferences: those it was launched
    with, changed by what the actions set, one after the other.** The colour of the theme is
    stored as a text of the app, which a screen that is loaded then reads as the colour that was
    chosen last where an `Int` has 64 bits. Where it has 32 it reads it only if the number in the
    text is small, and has no colour otherwise, as for the theme that is there at first.

    `hstores` says that the device had well-formed preferences before; a device on which the app
    was never started has (`stores_empty`). The width of an `Int` is that of the device, and the
    roundings of colours are its own too. Nothing is said of what else an app may have stored. -/
theorem stores_of_runs [Platform] {device : Device} (hstores : Stores device.defaults p)
    {events : List (Moment × Event)}
    (hrun : Runs (step env) (launched env now device) events t) :
    let q := (p.withTheme Theme.first).setAll
      (trace (step env) (change env) (launched env now device) events)
    Stores t.front.device.defaults q ∧ ∃ (theme : Theme) (c : UIColor.HexColor),
      q.theme = some theme ∧
      UserDefault.read t.front.device.defaults ContextUtils.BACK_MEMO = c.text ∧
      UIColor.hexRGB 64 (some c.text) = some theme.color ∧
      UIColor.hexRGB 32 (some c.text) = if c.number < 0x800000 then some theme.color else none := by
  have hkeeps := hrun.follows (R := Keeps) (fun s e t p h hstep => keeps_step h hstep)
    (keeps_launched now hstores)
  obtain ⟨theme, htheme⟩ := Option.isSome_iff_exists.mp hkeeps.theme
  have hspells := hkeeps.stores .theme
  rw [Spells, htheme] at hspells
  obtain ⟨c, htext, hnumber⟩ := hspells
  exact ⟨hkeeps.stores, theme, c, htheme, htext, UIColor.HexColor.reads hnumber⟩

end Shell

/-- A phone with the English texts. -/
def englishPhone : Surroundings where
  nfc := id
  swift := StringUtils.eachScalar
  hash := .asWritten
  float := UIColor.exact
  phone := { languageCode := some "en", systemVersion := "12.4", model := "iPhone" }
  confList := "Set Password,Reset Password,DB Manage,Set NickName,Set Background Color," ++
    "Tutorial,Contact Us,Managers Blog,Share This,Bucket List 100"
  palette := fun _ => some ⟨1, 1, 1, 1⟩

namespace Shell

def pin1234 : Pin := ⟨"1234", rfl, by simp⟩

theorem stores_1234 : Stores (PassWordView.storing "1234") { password := some pin1234 } := by
  intro key
  cases key <;> rfl

/-- A token arrives, and the user looks at the settings. -/
def lookAround : List (Moment × Event) :=
  [(⟨"24-05-01", false⟩, .token [255]), (⟨"24-05-01", false⟩, .main .btSetting),
    (⟨"24-05-01", false⟩, .back)]

/-- The app, started with a password stored. -/
def locked : Shell :=
  launched englishPhone ⟨"24-05-01", false⟩ ⟨Table.empty, PassWordView.storing "1234"⟩

theorem stores_of_runs_1234 : ∃ t, Runs (step englishPhone) locked lookAround t ∧
    Stores t.front.device.defaults
      { password := some pin1234, theme := some Theme.first, token := some [255] } := by
  have hrun : Runs (step englishPhone) locked lookAround _ := .cons rfl (.cons rfl (.single rfl))
  have htrace : trace (step englishPhone) (change englishPhone) locked lookAround
      = [.token [255]] := rfl
  have hstores := (stores_of_runs stores_1234 hrun).1
  rw [show launched englishPhone _ _ = locked from rfl, htrace] at hstores
  exact ⟨_, hrun, hstores⟩

end Shell

end KBucket
