import KBucket.Lib.Refinement
import KBucket.Proof.Preferences

/-!
# The password is not seen

The pad stores what is entered before it compares it with what is stored, so no comparison ever
fails, and no other screen reads the password. Two devices that differ in nothing but the
password stored are therefore the same to everybody who uses them.

`hide` takes the password out of what the device remembers. One lemma for each handler: it does
the same with the password hidden.

The result is one of noninterference, and its proof is the usual one: a view of the states
(`hide`), and a step that cannot tell two states with one view apart (`Lib.Unwinds`). It needs no
hypothesis on the store, on the texts or on what is stored under the other keys, because nothing
about those is compared. What the user sees on the pad itself is what was pressed and not what is
stored.
-/

namespace KBucket

open Lib

theorem bind_map {α β γ : Type} {x : Except Trap α} {f : α → Except Trap β}
    {f' : α → Except Trap γ} {g : β → γ} (h : ∀ a, f' a = (f a).map g) :
    (x >>= f') = (x >>= f).map g := by
  cases x with
  | error e => rfl
  | ok a => exact h a

/-- Steps from results of one view, which go on alike. -/
theorem bind_congr_map {α β γ : Type} {x x' : Except Trap α} {view : α → β}
    {f f' : α → Except Trap γ} (hx : x'.map view = x.map view)
    (hf : ∀ a' a, view a' = view a → f' a' = f a) : (x' >>= f') = (x >>= f) := by
  cases x with
  | error e =>
    cases x' with
    | error e' => cases hx; rfl
    | ok a' => cases hx
  | ok a =>
    cases x' with
    | error e' => cases hx
    | ok a' => exact hf a' a (Except.ok.inj hx)

/-- Everything but the password. -/
def UserDefaults.hide (defaults : UserDefaults) : UserDefaults :=
  fun key => if key = ContextUtils.KEY_CONF_PASSWORD then none else defaults key

namespace UserDefault

variable {defaults : UserDefaults} {key value : String}

theorem hide_hide (defaults : UserDefaults) : defaults.hide.hide = defaults.hide := by
  funext k
  unfold UserDefaults.hide
  split <;> rfl

theorem read_hide (h : key ≠ ContextUtils.KEY_CONF_PASSWORD) :
    read defaults.hide key = read defaults key := by
  simp only [read, UserDefaults.hide, if_neg h]

theorem write_hide (h : key ≠ ContextUtils.KEY_CONF_PASSWORD) :
    write defaults.hide key value = (write defaults key value).hide := by
  funext k
  by_cases hk : k = key
  · subst hk
    simp only [write, UserDefaults.hide, if_pos, if_neg h]
  · simp only [write, UserDefaults.hide, if_neg hk]

/-- A password that is written hides the one that was there. -/
theorem hide_write (defaults : UserDefaults) (value : String) :
    (write defaults ContextUtils.KEY_CONF_PASSWORD value).hide = defaults.hide := by
  funext k
  by_cases hk : k = ContextUtils.KEY_CONF_PASSWORD
  · simp only [UserDefaults.hide, if_pos hk]
  · simp only [write, UserDefaults.hide, if_neg hk]

end UserDefault

def Device.hide (device : Device) : Device := { device with defaults := device.defaults.hide }

/-! ## The screens of the store -/

namespace WriteView

variable {nfc : String → String}

def hide (v : WriteView) : WriteView := { v with device := v.device.hide }

theorem sort_hide (v : WriteView) : sort nfc v.hide = (sort nfc v).hide := by
  have hread : UserDefault.read v.hide.device.defaults ContextUtils.KBUCKET_SORT_KEY
      = UserDefault.read v.device.defaults ContextUtils.KBUCKET_SORT_KEY :=
    UserDefault.read_hide (by decide)
  unfold sort
  simp only [hread]
  split
  · rfl
  · split
    · rfl
    · split <;> rfl

theorem writeSortKey_hide (v : WriteView) (value : String) :
    v.hide.writeSortKey value = (v.writeSortKey value).hide := by
  have hne : ContextUtils.KBUCKET_SORT_KEY ≠ ContextUtils.KEY_CONF_PASSWORD := by decide
  unfold writeSortKey hide Device.hide
  simp only [UserDefault.write_hide hne]

theorem viewDidLoad_hide (nfc : String → String) (device : Device) :
    viewDidLoad nfc device.hide = (viewDidLoad nfc device).hide := by
  unfold viewDidLoad
  exact sort_hide { device, mDataList := _ }

theorem onClick_hide (v : WriteView) (sender : WriteButton) :
    onClick nfc v.hide sender = (onClick nfc v sender).map hide := by
  have hsort : ∀ value, sort nfc (v.hide.writeSortKey value)
      = (sort nfc (v.writeSortKey value)).hide := fun value => by
    rw [writeSortKey_hide, sort_hide]
  cases sender with
  | btAdd =>
    have hcheck : checkduplicateData nfc v.hide v.hide.etEdit
        = checkduplicateData nfc v v.etEdit := rfl
    unfold onClick
    dsimp only
    rw [hcheck]
    split
    · rfl
    · show (SQLQuery.insertUserSetting v.device.realm v.etEdit "" "N" "" >>= _)
        = Except.map hide (SQLQuery.insertUserSetting v.device.realm v.etEdit "" "N" "" >>= _)
      cases SQLQuery.insertUserSetting v.device.realm v.etEdit "" "N" "" <;> rfl
  | btSortLastest => exact congrArg Except.ok (hsort _)
  | btSortName => exact congrArg Except.ok (hsort _)
  | btSortDeadLine => exact congrArg Except.ok (hsort _)

theorem removeDBData_hide (v : WriteView) (Content : String) :
    v.hide.removeDBData Content
      = (v.removeDBData Content).map fun p => (p.1, p.2.hide) := by
  unfold removeDBData
  show (SQLQuery.deleteUserBucket v.device.realm Content >>= _)
    = Except.map _ (SQLQuery.deleteUserBucket v.device.realm Content >>= _)
  cases SQLQuery.deleteUserBucket v.device.realm Content <;> rfl

theorem receiveEventFromViewItem_hide [Platform] (v : WriteView) (gbn : Int) (data : String) :
    v.hide.receiveEventFromViewItem gbn data = (v.receiveEventFromViewItem gbn data).map hide := by
  unfold receiveEventFromViewItem
  split
  · exact bind_map fun _ => bind_map fun _ => rfl
  · split
    · refine bind_map fun index => ?_
      have hlist : v.hide.mDataList = v.mDataList := rfl
      rw [hlist]
      split
      · refine bind_map fun deleteItem => ?_
        rw [removeDBData_hide]
        cases v.removeDBData deleteItem with
        | error e => rfl
        | ok p =>
          obtain ⟨result, v⟩ := p
          cases result with
          | true =>
            show (arrayRemove v.mDataList index >>= _)
              = Except.map hide (arrayRemove v.mDataList index >>= _)
            exact bind_map fun _ => rfl
          | false => rfl
      · rfl
    · rfl

theorem step_hide [Platform] (v : WriteView) (event : Event) :
    step nfc v.hide event = (step nfc v event).map hide := by
  cases event with
  | btAdd text => exact onClick_hide { v with etEdit := text } .btAdd
  | rowDelete data => exact receiveEventFromViewItem_hide v 1 data
  | btSortLastest => exact onClick_hide v .btSortLastest
  | btSortName => exact onClick_hide v .btSortName
  | btSortDeadLine => exact onClick_hide v .btSortDeadLine

end WriteView

namespace WriteDetailView

def hide (v : WriteDetailView) : WriteDetailView := { v with device := v.device.hide }

theorem foldl_showBucket_hide (today : String) (v : WriteDetailView) (list : List Bucket) :
    list.foldl (showBucket today) v.hide = (list.foldl (showBucket today) v).hide := by
  induction list generalizing v with
  | nil => rfl
  | cons kbucket list ih => exact ih (showBucket today v kbucket)

theorem viewDidLoad_hide (today : String) (device : Device) (CONTENTS BACK : String) :
    viewDidLoad today device.hide CONTENTS BACK
      = (viewDidLoad today device CONTENTS BACK).map hide :=
  bind_map fun list => congrArg Except.ok
    (foldl_showBucket_hide today { device, CONTENTS, BACK, mContents := CONTENTS } list)

theorem back_hide (v : WriteDetailView) (strBack : String) :
    v.hide.back strBack = (v.back strBack).hide := by
  unfold back
  show (if v.BACK = _ then _ else _) = _
  split <;> rfl

theorem step_hide (v : WriteDetailView) (event : Event) :
    step v.hide event = (step v event).map hide := by
  cases event with
  | btSave =>
    unfold step updateDBDate
    show ((SQLQuery.updateMemoContent v.device.realm v.newBucket v.mContents >>= _) >>= _)
      = Except.map hide ((SQLQuery.updateMemoContent v.device.realm v.newBucket v.mContents
        >>= _) >>= _)
    cases SQLQuery.updateMemoContent v.device.realm v.newBucket v.mContents with
    | error e => rfl
    | ok realm =>
      exact congrArg Except.ok (back_hide { v with device := { v.device with realm } } v.BACK)
  | btDel =>
    unfold step removeDBData
    show ((SQLQuery.deleteUserBucket v.device.realm v.mContents >>= _) >>= _)
      = Except.map hide ((SQLQuery.deleteUserBucket v.device.realm v.mContents >>= _) >>= _)
    cases SQLQuery.deleteUserBucket v.device.realm v.mContents with
    | error e => rfl
    | ok p =>
      have hback := back_hide { v with device := { v.device with realm := p.2 } } v.BACK
      exact congrArg Except.ok hback
  | onBackPressed => exact congrArg Except.ok (back_hide v v.BACK)
  | _ => rfl

end WriteDetailView

namespace BucketListView

def hide (v : BucketListView) : BucketListView := { v with device := v.device.hide }

theorem receiveEventFromViewItem_hide [Platform] (v : BucketListView) (gbn : Int) (data : String) :
    v.hide.receiveEventFromViewItem gbn data = (v.receiveEventFromViewItem gbn data).map hide := by
  unfold receiveEventFromViewItem changeDetailView
  split
  · exact bind_map fun _ => bind_map fun _ => rfl
  · rfl

end BucketListView

namespace AddBucketView

def hide (v : AddBucketView) : AddBucketView := { v with device := v.device.hide }

theorem addDBData_hide (date : String) (v : AddBucketView) (Content : String) :
    addDBData date v.hide Content = (addDBData date v Content).map hide := by
  unfold addDBData
  refine bind_map fun inContainsBucket => ?_
  cases inContainsBucket with
  | true => rfl
  | false => exact bind_map fun _ => rfl

theorem removeDBData_hide (v : AddBucketView) (data : String) :
    v.hide.removeDBData data = (v.removeDBData data).map hide := by
  unfold removeDBData
  refine bind_map fun p => ?_
  exact bind_map fun _ => rfl

theorem receiveEventFromViewItem_hide (date : String) (v : AddBucketView) (gbn : Int)
    (data : String) :
    v.hide.receiveEventFromViewItem date gbn data
      = (v.receiveEventFromViewItem date gbn data).map hide := by
  unfold receiveEventFromViewItem
  split
  · exact addDBData_hide date v data
  · split
    · exact removeDBData_hide v data
    · rfl

end AddBucketView

namespace App

variable {nfc : String → String}

def hide : App → App
  | .main device => .main device.hide
  | .write v => .write v.hide
  | .detail v => .detail v.hide
  | .bucketList v => .bucketList v.hide
  | .addBucket v => .addBucket v.hide
  | .dbMgr device => .dbMgr device.hide

theorem device_hide (app : App) : app.hide.device = app.device.hide := by
  cases app <;> rfl

theorem present_hide (today : String) (device : Device) (next : Presented) :
    present today device.hide next = (present today device next).map hide := by
  cases next with
  | view strView =>
    unfold present
    dsimp only
    split <;> rfl
  | main mWidgetSendData => rfl
  | writeDetail CONTENTS BACK =>
    unfold present
    dsimp only
    rw [WriteDetailView.viewDidLoad_hide]
    cases WriteDetailView.viewDidLoad today device CONTENTS BACK <;> rfl

theorem follow_hide (today : String) (app : App) (presented : List Presented) :
    follow today app.hide presented = (follow today app presented).map hide := by
  unfold follow
  split
  · rw [device_hide, present_hide]
  · rfl

theorem step_hide [Platform] (app : App) (e : String × Event) :
    step nfc app.hide e = (step nfc app e).map hide := by
  obtain ⟨today, event⟩ := e
  cases app with
  | main device =>
    cases event with
    | openWrite =>
      exact congrArg Except.ok (congrArg App.write (WriteView.viewDidLoad_hide nfc device))
    | _ => rfl
  | write v =>
    cases event with
    | write event =>
      show Except.map App.write (WriteView.step nfc v.hide event) = _
      rw [WriteView.step_hide]
      show _ = Except.map hide (Except.map App.write (WriteView.step nfc v event))
      cases WriteView.step nfc v event <;> rfl
    | rowMod data =>
      show (v.hide.receiveEventFromViewItem 0 data >>= _) = _
      rw [WriteView.receiveEventFromViewItem_hide]
      show _ = Except.map hide (v.receiveEventFromViewItem 0 data >>= _)
      cases v.receiveEventFromViewItem 0 data with
      | error e => rfl
      | ok v => exact follow_hide today (.write v) v.presented
    | _ => rfl
  | detail v =>
    cases event with
    | detail event =>
      show (WriteDetailView.step v.hide event >>= _) = _
      rw [WriteDetailView.step_hide]
      show _ = Except.map hide (WriteDetailView.step v event >>= _)
      cases WriteDetailView.step v event with
      | error e => rfl
      | ok v => exact follow_hide today (.detail v) v.presented
    | _ => rfl
  | bucketList v =>
    cases event with
    | rowDetail data =>
      show (v.hide.receiveEventFromViewItem 0 data >>= _) = _
      rw [BucketListView.receiveEventFromViewItem_hide]
      show _ = Except.map hide (v.receiveEventFromViewItem 0 data >>= _)
      cases v.receiveEventFromViewItem 0 data with
      | error e => rfl
      | ok v => exact follow_hide today (.bucketList v) v.presented
    | _ => rfl
  | addBucket v =>
    cases event with
    | rowAdd data =>
      show Except.map App.addBucket (v.hide.receiveEventFromViewItem today 0 data) = _
      rw [AddBucketView.receiveEventFromViewItem_hide]
      show _ = Except.map hide (Except.map App.addBucket (v.receiveEventFromViewItem today 0 data))
      cases v.receiveEventFromViewItem today 0 data <;> rfl
    | rowRemove data =>
      show Except.map App.addBucket (v.hide.receiveEventFromViewItem today 1 data) = _
      rw [AddBucketView.receiveEventFromViewItem_hide]
      show _ = Except.map hide (Except.map App.addBucket (v.receiveEventFromViewItem today 1 data))
      cases v.receiveEventFromViewItem today 1 data <;> rfl
    | _ => rfl
  | dbMgr device => cases event <;> rfl

end App

/-! ## The main screen and the settings -/

namespace MainView

def hide (v : MainView) : MainView :=
  { v with controller := { v.controller with defaults := v.controller.defaults.hide } }

theorem hide_hide (v : MainView) : v.hide.hide = v.hide := by
  unfold hide
  simp only [UserDefault.hide_hide]

theorem viewDidLoad_hide (w : Nat) (isConnect : Bool) (defaults : UserDefaults) :
    viewDidLoad w isConnect defaults.hide = (viewDidLoad w isConnect defaults).hide := by
  have hne : ContextUtils.BACK_MEMO ≠ ContextUtils.KEY_CONF_PASSWORD := by decide
  have hread : UserDefault.read defaults.hide ContextUtils.BACK_MEMO
      = UserDefault.read defaults ContextUtils.BACK_MEMO := UserDefault.read_hide hne
  unfold viewDidLoad ViewController.setBackgroundColor
  simp only [hread, UserDefault.write_hide hne]
  by_cases hcolor : (UserDefault.read defaults ContextUtils.BACK_MEMO).length > 0
  · simp only [if_pos hcolor]
    cases isConnect <;> rfl
  · simp only [if_neg hcolor]
    cases isConnect <;> rfl

theorem updateUser_hide (hash : HashOrder) (phone : Phone) (v : MainView) :
    v.hide.updateUser hash phone = v.updateUser hash phone := by
  have hname : UserDefault.read v.hide.controller.defaults ContextUtils.KEY_USER_NICKNAME
      = UserDefault.read v.controller.defaults ContextUtils.KEY_USER_NICKNAME :=
    UserDefault.read_hide (by decide)
  have htoken : UserDefault.read v.hide.controller.defaults ContextUtils.KEY_USER_FCM
      = UserDefault.read v.controller.defaults ContextUtils.KEY_USER_FCM :=
    UserDefault.read_hide (by decide)
  unfold updateUser getUserData
  rw [hname, htoken]

theorem viewDidAppear_hide (hash : HashOrder) (phone : Phone) (isConnect : Bool)
    (v : MainView) : v.hide.viewDidAppear hash phone isConnect
      = (v.viewDidAppear hash phone isConnect).map fun p => (p.1.hide, p.2) := by
  have hread : UserDefault.read v.hide.controller.defaults ContextUtils.KEY_USER_NICKNAME
      = UserDefault.read v.controller.defaults ContextUtils.KEY_USER_NICKNAME :=
    UserDefault.read_hide (by decide)
  unfold viewDidAppear
  rw [hread, updateUser_hide]
  dsimp only
  split
  · rfl
  · split
    · exact bind_map fun _ => rfl
    · rfl

theorem onClick_hide (isConnect : Bool) (v : MainView) (button : Button) :
    v.hide.onClick isConnect button = (v.onClick isConnect button).hide := by
  cases button with
  | btAI =>
    have hread : UserDefault.read v.hide.controller.defaults ContextUtils.KEY_USER_NICKNAME
        = UserDefault.read v.controller.defaults ContextUtils.KEY_USER_NICKNAME :=
      UserDefault.read_hide (by decide)
    unfold onClick ViewController.requestAI
    rw [hread]
    cases isConnect <;> rfl
  | _ => rfl

end MainView

namespace ViewController

def hide (v : ViewController) : ViewController := { v with defaults := v.defaults.hide }

theorem checkVersion_hide [Platform] (v : ViewController) (versionName forceYN : String) :
    v.hide.checkVersion versionName forceYN = (v.checkVersion versionName forceYN).map hide := by
  unfold checkVersion
  split
  · refine bind_map fun order => ?_
    split
    · split <;> rfl
    · rfl
  · rfl

theorem onHttpReceive_hide [Platform] (v : ViewController) (type actionId : Int)
    (data : Option Json) :
    v.hide.onHttpReceive type actionId data = (v.onHttpReceive type actionId data).map hide := by
  unfold onHttpReceive
  split
  · split
    · split
      · exact bind_map fun _ => rfl
      · rfl
      · rfl
    · rfl
  · split
    · split <;> rfl
    · split
      · split
        · split
          · split
            · exact bind_map fun _ => bind_map fun _ => checkVersion_hide v _ _
            · rfl
          · rfl
          · rfl
        · rfl
      · rfl

end ViewController

namespace PassWordView

variable {nfc : String → String}

def hide (v : PassWordView) : PassWordView := { v with defaults := v.defaults.hide }

theorem setTitles_hide (v : PassWordView) (indices : List Int) (text : String) :
    v.hide.setTitles indices text = (v.setTitles indices text).map hide := by
  unfold setTitles
  induction indices generalizing v with
  | nil => rfl
  | cons index indices ih =>
    rw [List.foldlM_cons, List.foldlM_cons]
    show ((arrayGet v.mButton index).map _ >>= _)
      = Except.map hide ((arrayGet v.mButton index).map _ >>= _)
    cases arrayGet v.mButton index with
    | error e => rfl
    | ok button => exact ih (v.setTitle button text)

/-- What follows a step, when both hide alike. -/
theorem map_hide_bind {x : Except Trap PassWordView} {f : PassWordView → Except Trap PassWordView}
    (hf : ∀ v, f (hide v) = (f v).map hide) : (x.map hide >>= f) = (x >>= f).map hide := by
  cases x with
  | error e => rfl
  | ok v => exact hf v

theorem setIndicators_hide (v : PassWordView) :
    v.hide.setIndicators = v.setIndicators.map hide := by
  have hblanks : ∀ (v : PassWordView) (indices : List Int),
      (v.hide.setTitles indices " " >>= fun v => pure v)
        = (v.setTitles indices " " >>= fun v => pure v).map hide := fun v indices => by
    rw [setTitles_hide]
    exact map_hide_bind fun _ => rfl
  unfold setIndicators
  dsimp only
  have hdata : v.hide.mPasswordData = v.mPasswordData := rfl
  rw [hdata]
  split
  · refine bind_map fun indices => ?_
    rw [setTitles_hide]
    refine map_hide_bind fun v => ?_
    split
    · exact bind_map fun _ => hblanks v _
    · rfl
  · split
    · exact bind_map fun _ => hblanks v _
    · rfl

theorem back_hide (v : PassWordView) (strBack : String) :
    v.hide.back strBack = (v.back strBack).hide := by
  unfold back
  split <;> rfl

theorem start_hide (v : PassWordView) : v.hide.start = v.start.hide := by
  have hstart : v.hide.mStartView = v.mStartView := rfl
  unfold start
  rw [hstart]
  split
  · exact back_hide v _
  · split
    · exact back_hide v _
    · split
      · exact back_hide v _
      · split
        · rfl
        · exact back_hide v _

theorem hide_hide (v : PassWordView) : v.hide.hide = v.hide := by
  unfold hide
  rw [UserDefault.hide_hide]

def store (v : PassWordView) (pswd : String) : PassWordView :=
  { v with defaults := UserDefault.write v.defaults ContextUtils.KEY_CONF_PASSWORD pswd }

/-- Whatever is stored hides what was there. -/
theorem hide_store (v : PassWordView) (pswd pswd' : String) :
    (v.hide.store pswd').hide = (v.store pswd).hide := by
  unfold store hide
  simp only [UserDefault.hide_write, UserDefault.hide_hide]

/-- Four digits are stored, and what is then compared with them is what was stored. -/
theorem setButtonText_stored {v u : PassWordView} (hind : v.setIndicators = .ok u)
    (hl : u.mPasswordData.length = 4) :
    ∃ pswd, setButtonText nfc v = .ok (
      if u.isPasswordset then (u.store pswd).back ContextUtils.MAIN_VIEW
      else (u.store pswd).start) := by
  obtain ⟨data, isSet, setting, startView, mButton, title, defaults, presented, toasts⟩ := u
  obtain ⟨a, b, c, d, rfl⟩ := List.length_eq_four.mp hl
  refine ⟨a ++ "" ++ b ++ "" ++ c ++ "" ++ d, ?_⟩
  rw [setButtonText, hind]
  show (if isSet then _ else if !stringEq nfc (a ++ "" ++ b ++ "" ++ c ++ "" ++ d)
    (UserDefault.read (UserDefault.write defaults ContextUtils.KEY_CONF_PASSWORD _) _) then _
      else _) = _
  rw [UserDefault.read_write, stringEq_refl]
  cases isSet <;> rfl

theorem setButtonText_entering {v u : PassWordView} (hind : v.setIndicators = .ok u)
    (hl : u.mPasswordData.length ≠ 4) : setButtonText nfc v = .ok u := by
  rw [setButtonText, hind]
  show (if u.mPasswordData.length = 4 then _ else _) = _
  rw [if_neg hl]
  rfl

theorem setButtonText_hide (v : PassWordView) :
    (setButtonText nfc v.hide).map hide = (setButtonText nfc v).map hide := by
  cases hind : v.setIndicators with
  | error e =>
    have hind' : v.hide.setIndicators = .error e := by rw [setIndicators_hide, hind]; rfl
    rw [setButtonText, setButtonText, hind, hind']
  | ok u =>
    have hind' : v.hide.setIndicators = .ok u.hide := by rw [setIndicators_hide, hind]; rfl
    by_cases hl : u.mPasswordData.length = 4
    · obtain ⟨pswd, htext⟩ := @setButtonText_stored nfc v u hind hl
      obtain ⟨pswd', htext'⟩ := @setButtonText_stored nfc v.hide u.hide hind' hl
      rw [htext, htext']
      have hset : u.hide.isPasswordset = u.isPasswordset := rfl
      refine congrArg Except.ok ?_
      rw [hset]
      split
      · rw [← back_hide, ← back_hide, hide_store u pswd pswd']
      · rw [← start_hide, ← start_hide, hide_store u pswd pswd']
    · rw [@setButtonText_entering nfc v u hind hl,
        @setButtonText_entering nfc v.hide u.hide hind' hl]
      exact congrArg Except.ok (hide_hide u)

theorem onClick_hide (v : PassWordView) (sender : UIButton) :
    (onClick nfc v.hide sender).map hide = (onClick nfc v sender).map hide := by
  have hdata : v.hide.mPasswordData = v.mPasswordData := rfl
  have htitle : v.hide.title = v.title := rfl
  unfold onClick
  cases sender with
  | num d =>
    dsimp only
    rw [hdata, htitle]
    split
    · cases v.title (.num d) with
      | none => rfl
      | some data =>
        exact setButtonText_hide { v with mPasswordData := v.mPasswordData ++ [data] }
    · exact congrArg Except.ok (hide_hide v)
  | btnClear =>
    dsimp only
    rw [hdata]
    split
    · cases arrayRemove v.mPasswordData (v.mPasswordData.length - 1) with
      | error e => rfl
      | ok data => exact setButtonText_hide { v with mPasswordData := data }
    · exact congrArg Except.ok (hide_hide v)
  | _ => exact congrArg Except.ok (hide_hide v)

end PassWordView

namespace SettingView

def hide (v : SettingView) : SettingView := { v with defaults := v.defaults.hide }

theorem changeMenuView_hide (v : SettingView) (menu : Int) :
    (v.hide.changeMenuView menu).hide = (v.changeMenuView menu).hide := by
  unfold changeMenuView
  split
  · exact congrArg (mk · v.mList v.reloads v.toasts _ v.browsed v.shared) (UserDefault.hide_hide _)
  · split
    · simp only [hide, toast, UserDefault.hide_write, UserDefault.hide_hide]
    · split_ifs <;> simp only [hide, changeView, UserDefault.hide_hide]

end SettingView

namespace SetNickNameView

def hide (v : SetNickNameView) : SetNickNameView := { v with defaults := v.defaults.hide }

theorem hide_hide (v : SetNickNameView) : v.hide.hide = v.hide := by
  unfold hide
  rw [UserDefault.hide_hide]

theorem viewDidLoad_hide (defaults : UserDefaults) :
    viewDidLoad defaults.hide = (viewDidLoad defaults).hide := by
  have hread : UserDefault.read defaults.hide ContextUtils.KEY_USER_NICKNAME
      = UserDefault.read defaults ContextUtils.KEY_USER_NICKNAME :=
    UserDefault.read_hide (by decide)
  unfold viewDidLoad
  dsimp only
  rw [hread]
  split <;> rfl

theorem onClick_hide (nfc : String → String) (swift : StringUtils.Characters)
    (v : SetNickNameView) : v.hide.onClick nfc swift = (v.onClick nfc swift).hide := by
  have hne : ContextUtils.KEY_USER_NICKNAME ≠ ContextUtils.KEY_CONF_PASSWORD := by decide
  have hname : v.hide.etName = v.etName := rfl
  unfold onClick
  rw [hname]
  split
  · rfl
  · split
    · rfl
    · show SetNickNameView.mk (UserDefault.write v.defaults.hide _ _) _ _ _ = _
      rw [UserDefault.write_hide hne]
      rfl

end SetNickNameView

namespace SetBackColorView

def hide (v : SetBackColorView) : SetBackColorView := { v with defaults := v.defaults.hide }

theorem onClick_hide (float : Rat → Rat) (w : Nat) (v : SetBackColorView) (sender : Fin 18) :
    onClick float w v.hide sender = (onClick float w v sender).map hide := by
  have hne : ContextUtils.BACK_MEMO ≠ ContextUtils.KEY_CONF_PASSWORD := by decide
  unfold onClick
  refine bind_map fun backColor => bind_map fun hexString => congrArg Except.ok ?_
  have hread : ∀ defaults : UserDefaults,
      UserDefault.read defaults.hide ContextUtils.BACK_MEMO
        = UserDefault.read defaults ContextUtils.BACK_MEMO := fun _ => UserDefault.read_hide hne
  unfold setBackgroundColor checkButton
  dsimp only [hide]
  rw [UserDefault.write_hide hne, hread]
  split <;> rfl

end SetBackColorView

/-! ## The whole app -/

namespace Front

variable {env : Surroundings} {now : Moment}

def hide : Front → Front
  | .main realm v => .main realm v.hide
  | .store app => .store app.hide
  | .setting realm v => .setting realm v.hide
  | .passWord realm v => .passWord realm v.hide
  | .setNickName realm v => .setNickName realm v.hide
  | .setBackColor realm v => .setBackColor realm v.hide
  | .other device strView => .other device.hide strView

theorem hide_eq (front : Front) : front.hide = front.setDefaults front.device.defaults.hide := by
  cases front with
  | store app => cases app <;> rfl
  | _ => rfl

theorem device_hide (front : Front) : front.hide.device = front.device.hide := by
  cases front with
  | store app => exact App.device_hide app
  | _ => rfl

theorem hide_setDefaults (front : Front) (defaults : UserDefaults) :
    (front.setDefaults defaults).hide = front.setDefaults defaults.hide := by
  rw [hide_eq, device_setDefaults, setDefaults_setDefaults]

theorem hide_hide (front : Front) : front.hide.hide = front.hide := by
  rw [hide_eq front, hide_setDefaults, UserDefault.hide_hide]

theorem load_hide [Platform] (device : Device) (strView : String) :
    load env now device.hide strView = (load env now device strView).hide := by
  unfold load
  split
  · exact congrArg (Front.main device.realm) (MainView.viewDidLoad_hide _ _ _)
  · split
    · exact congrArg (Front.store <| .write ·) (WriteView.viewDidLoad_hide env.nfc device)
    · split
      · rfl
      · split
        · rfl
        · split
          · rfl
          · split
            · rfl
            · split
              · rfl
              · split
                · exact congrArg (Front.setNickName device.realm)
                    (SetNickNameView.viewDidLoad_hide device.defaults)
                · split <;> rfl

theorem follow_hide [Platform] (front : Front) (presented : List Presented) :
    follow env now front.hide presented = (follow env now front presented).hide := by
  unfold follow
  rw [device_hide]
  split
  · exact load_hide front.device _
  · exact load_hide front.device _
  · rfl

theorem ofApp_hide [Platform] (app : App) : ofApp env now app.hide = (ofApp env now app).hide := by
  cases app with
  | main device => exact load_hide device ContextUtils.MAIN_VIEW
  | _ => rfl

end Front

namespace Shell

variable {env : Surroundings}

def hide (s : Shell) : Shell := { s with front := s.front.hide }

theorem hide_hide (s : Shell) : s.hide.hide = s.hide := by
  unfold hide
  rw [Front.hide_hide]

/-- A step that does the same with the password hidden. -/
theorem map_hide_of_eq {x x' : Except Trap Shell} (h : x' = x.map hide) :
    x'.map hide = x.map hide := by
  rw [h]
  cases x with
  | error e => rfl
  | ok t => exact congrArg Except.ok (hide_hide t)

/-- The last part of a handler whose screen is `make v`. -/
theorem hide_follow [Platform] {now : Moment} {α : Type} (make : α → Front) (view : α → α)
    (hmake : ∀ v, (make v).hide = make (view v)) {v v' : α} (heq : view v' = view v)
    (presented : List Presented) (updates : List URLRequest) (behind : List Left) :
    hide { front := Front.follow env now (make v') presented, updates, behind }
      = hide { front := Front.follow env now (make v) presented, updates, behind } := by
  unfold hide
  rw [← Front.follow_hide, ← Front.follow_hide, hmake, hmake, heq]

theorem receiveToken_hide (front : Front) (deviceToken : Data) :
    (front.hide.setDefaults (AppDelegate.didRegisterForRemoteNotifications
        front.hide.device.defaults deviceToken)).hide
      = (front.setDefaults (AppDelegate.didRegisterForRemoteNotifications
        front.device.defaults deviceToken)).hide := by
  have hne : ContextUtils.KEY_USER_FCM ≠ ContextUtils.KEY_CONF_PASSWORD := by decide
  have hwrite : AppDelegate.didRegisterForRemoteNotifications front.hide.device.defaults deviceToken
      = (AppDelegate.didRegisterForRemoteNotifications front.device.defaults deviceToken).hide := by
    rw [Front.device_hide]
    exact UserDefault.write_hide hne
  rw [hwrite, Front.hide_setDefaults, Front.hide_setDefaults, UserDefault.hide_hide,
    Front.hide_eq front, Front.setDefaults_setDefaults]

variable {realm : Realm} {updates : List URLRequest} {behind : List Left} {now : Moment}

/-- What waits behind the main screen does not depend on what is stored. -/
theorem followMain_hide [Platform] (front front' : Front) (v : MainView)
    (presented : List Presented) :
    hide (followMain env now ⟨front', updates, behind⟩ realm v.hide presented)
      = hide (followMain env now ⟨front, updates, behind⟩ realm v presented) := by
  have hfollow : ∀ behind, hide ⟨Front.follow env now (.main realm v.hide) presented, updates,
      behind⟩ = hide ⟨Front.follow env now (.main realm v) presented, updates, behind⟩ :=
    hide_follow (Front.main realm) MainView.hide (fun _ => rfl) (MainView.hide_hide v) presented
      updates
  cases presented with
  | nil => exact hfollow behind
  | cons next presented => exact hfollow (behind ++ [Left.ofController v.controller])

theorem appear_hide [Platform] (v : MainView) (shown : Bool) :
    (step env ⟨.main realm v.hide, updates, behind⟩ (now, .appear shown)).map hide
      = (step env ⟨.main realm v, updates, behind⟩ (now, .appear shown)).map hide := by
  rw [step_appear, step_appear, MainView.viewDidAppear_hide]
  cases v.viewDidAppear env.hash env.phone now.isConnect with
  | error e => rfl
  | ok p =>
    obtain ⟨u, requests⟩ := p
    exact congrArg Except.ok (@followMain_hide env realm (updates ++ requests) behind now _
      (.main realm v) (.main realm v.hide) { u with presented := [] }
      (if shown then u.presented else []))

theorem main_hide [Platform] (v : MainView) (button : MainView.Button) :
    (step env ⟨.main realm v.hide, updates, behind⟩ (now, .main button)).map hide
      = (step env ⟨.main realm v, updates, behind⟩ (now, .main button)).map hide := by
  rw [step_main, step_main, MainView.onClick_hide]
  exact congrArg Except.ok (followMain_hide _ _ (v.onClick now.isConnect button) _)

theorem controller?_hide (s : Shell) (receiver : Receiver) :
    s.hide.controller? receiver = (s.controller? receiver).map ViewController.hide := by
  obtain ⟨front, updates, behind⟩ := s
  cases receiver with
  | front => cases front <;> rfl
  | behind i =>
    show behind[i]?.map (Left.controller front.hide.device.defaults)
      = (behind[i]?.map (Left.controller front.device.defaults)).map ViewController.hide
    rw [Front.device_hide, Option.map_map]
    rfl

theorem awaited?_hide (s : Shell) (receiver : Receiver) (i : Nat) :
    s.hide.awaited? receiver i
      = (s.awaited? receiver i).map fun p => (p.1.hide, p.2) := by
  unfold awaited?
  rw [controller?_hide]
  cases s.controller? receiver with
  | none => rfl
  | some v =>
    show v.requests[i]?.map _ = (v.requests[i]?.map _).map _
    rw [Option.map_map]
    rfl

theorem setController_hide (s : Shell) (controller : ViewController) (receiver : Receiver) :
    s.hide.setController controller.hide receiver = (s.setController controller receiver).hide := by
  obtain ⟨front, updates, behind⟩ := s
  cases receiver with
  | front => cases front <;> rfl
  | behind i => rfl

theorem receive_hide [Platform] (s : Shell) (receiver : Receiver) (i : Nat) (type : Int)
    (data : Option Json) :
    s.hide.receive receiver i type data = (s.receive receiver i type data).map hide := by
  unfold receive
  rw [awaited?_hide]
  cases s.awaited? receiver i with
  | none => rfl
  | some p =>
    obtain ⟨v, request⟩ := p
    show (v.hide.onHttpReceive type request.id data >>= _)
      = (v.onHttpReceive type request.id data >>= _).map hide
    rw [ViewController.onHttpReceive_hide]
    cases v.onHttpReceive type request.id data with
    | error e => rfl
    | ok controller => exact congrArg Except.ok (setController_hide s controller receiver)

theorem lose_hide (s : Shell) (receiver : Receiver) (i : Nat) :
    s.hide.lose receiver i = (s.lose receiver i).map hide := by
  unfold lose
  rw [awaited?_hide]
  cases s.awaited? receiver i <;> rfl

theorem store_hide [Platform] (app : App) (event : App.Event) :
    (step env ⟨.store app.hide, updates, behind⟩ (now, .store event)).map hide
      = (step env ⟨.store app, updates, behind⟩ (now, .store event)).map hide := by
  rw [step_store, step_store, App.step_hide]
  cases app.step env.nfc (now.today, event) with
  | error e => rfl
  | ok app =>
    refine congrArg Except.ok ?_
    show hide ⟨Front.ofApp env now app.hide, updates, behind⟩ =
      hide ⟨Front.ofApp env now app, updates, behind⟩
    rw [Front.ofApp_hide]
    exact hide_hide ⟨Front.ofApp env now app, updates, behind⟩

theorem menu_hide [Platform] (v : SettingView) (row : Nat) :
    (step env ⟨.setting realm v.hide, updates, behind⟩ (now, .menu row)).map hide
      = (step env ⟨.setting realm v, updates, behind⟩ (now, .menu row)).map hide := by
  have hmenu := SettingView.changeMenuView_hide v row
  have hpresented : (v.hide.changeMenuView row).presented = (v.changeMenuView row).presented := by
    have h := congrArg SettingView.presented hmenu
    exact h
  have hrows : v.hide.numberOfRowsInSection = v.numberOfRowsInSection := rfl
  rw [step_menu, step_menu, hrows, hpresented]
  split
  · exact congrArg Except.ok (hide_follow (Front.setting realm) SettingView.hide
      (fun _ => rfl) hmenu (v.changeMenuView row).presented updates behind)
  · exact congrArg Except.ok (hide_hide ⟨.setting realm v, updates, behind⟩)

theorem pad_hide [Platform] (v : PassWordView) (sender : UIButton) :
    (step env ⟨.passWord realm v.hide, updates, behind⟩ (now, .pad sender)).map hide
      = (step env ⟨.passWord realm v, updates, behind⟩ (now, .pad sender)).map hide := by
  have hshown : ∀ x : Except Trap PassWordView, Except.map hide (do
        let v ← x
        return ⟨Front.follow env now (.passWord realm v) v.presented, updates, behind⟩)
      = (x >>= fun v =>
        .ok (hide ⟨Front.follow env now (.passWord realm v) v.presented, updates, behind⟩)) :=
    fun x => (bind_map fun _ => rfl).symm
  rw [step_pad, step_pad, hshown, hshown]
  refine bind_congr_map (@PassWordView.onClick_hide env.nfc v sender) fun v' v heq => ?_
  have hpresented : v'.presented = v.presented := by
    have h := congrArg PassWordView.presented heq
    exact h
  rw [hpresented]
  exact congrArg Except.ok (hide_follow (Front.passWord realm) PassWordView.hide
    (fun _ => rfl) heq v.presented updates behind)

theorem setName_hide [Platform] (v : SetNickNameView) :
    (step env ⟨.setNickName realm v.hide, updates, behind⟩ (now, .setName)).map hide
      = (step env ⟨.setNickName realm v, updates, behind⟩ (now, .setName)).map hide := by
  rw [step_setName, step_setName, SetNickNameView.onClick_hide]
  generalize v.onClick env.nfc env.swift = v
  exact congrArg Except.ok (hide_follow (Front.setNickName realm)
    SetNickNameView.hide (fun _ => rfl) (SetNickNameView.hide_hide v) v.presented updates behind)

theorem colour_hide [Platform] (v : SetBackColorView) (sender : Fin 18) :
    (step env ⟨.setBackColor realm v.hide, updates, behind⟩ (now, .colour sender)).map hide
      = (step env ⟨.setBackColor realm v, updates, behind⟩ (now, .colour sender)).map hide := by
  rw [step_colour, step_colour, SetBackColorView.onClick_hide]
  cases v.onClick env.float Platform.bitWidth sender with
  | error e => rfl
  | ok v => exact congrArg Except.ok (hide_hide ⟨.setBackColor realm v, updates, behind⟩)

theorem back_hide [Platform] (front : Front) (updates : List URLRequest) (behind : List Left) :
    hide ⟨Front.load env now front.hide.device ContextUtils.MAIN_VIEW, updates, behind⟩
      = hide ⟨Front.load env now front.device ContextUtils.MAIN_VIEW, updates, behind⟩ := by
  rw [Front.device_hide, Front.load_hide]
  exact hide_hide ⟨Front.load env now front.device ContextUtils.MAIN_VIEW, updates, behind⟩

/-- One action leaves devices that differ in the password alike. -/
theorem step_hide [Platform] (s : Shell) (e : Moment × Event) :
    (step env s.hide e).map hide = (step env s e).map hide := by
  obtain ⟨now, event⟩ := e
  obtain ⟨front, updates, behind⟩ := s
  have hidle : ∀ front : Front,
      (Except.ok ⟨front.hide, updates, behind⟩ : Except Trap Shell).map hide
        = (Except.ok ⟨front, updates, behind⟩ : Except Trap Shell).map hide := fun front =>
    congrArg Except.ok (hide_hide ⟨front, updates, behind⟩)
  cases event with
  | token deviceToken =>
    rw [step_token, step_token]
    exact congrArg (Except.ok <| Shell.mk · updates behind) (receiveToken_hide front deviceToken)
  | appear shown =>
    cases front with
    | main realm v => exact appear_hide v shown
    | _ => exact hidle _
  | main button =>
    cases front with
    | main realm v => exact main_hide v button
    | _ => exact hidle _
  | receive receiver i type data =>
    rw [step_receive, step_receive]
    exact map_hide_of_eq (receive_hide ⟨front, updates, behind⟩ receiver i type data)
  | lose receiver i =>
    rw [step_lose, step_lose]
    exact map_hide_of_eq (lose_hide ⟨front, updates, behind⟩ receiver i)
  | store event =>
    cases front with
    | store app => exact store_hide app event
    | _ => exact hidle _
  | menu row =>
    cases front with
    | setting realm v => exact menu_hide v row
    | _ => exact hidle _
  | pad sender =>
    cases front with
    | passWord realm v => exact pad_hide v sender
    | _ => exact hidle _
  | typeName etName =>
    cases front with
    | setNickName realm v => exact hidle (.setNickName realm { v with etName })
    | _ => exact hidle _
  | setName =>
    cases front with
    | setNickName realm v => exact setName_hide v
    | _ => exact hidle _
  | colour sender =>
    cases front with
    | setBackColor realm v => exact colour_hide v sender
    | _ => exact hidle _
  | back =>
    cases front with
    | main realm v => exact hidle (.main realm v)
    | store app => exact hidle (.store app)
    | setting realm v =>
      exact congrArg Except.ok (back_hide (.setting realm v) updates behind)
    | passWord realm v =>
      exact congrArg Except.ok (back_hide (.passWord realm v) updates behind)
    | setNickName realm v =>
      exact congrArg Except.ok (back_hide (.setNickName realm v) updates behind)
    | setBackColor realm v =>
      exact congrArg Except.ok (back_hide (.setBackColor realm v) updates behind)
    | other device strView =>
      exact congrArg Except.ok (back_hide (.other device strView) updates behind)

/-- **The password is not seen**: whatever is done on two devices that differ in nothing but the
    password that is stored, they end in the same trap, or on the same screen with the same
    store, the same other preferences and the same updates sent.

    Nothing is asked of the two states but that they differ in the password alone, and nothing of
    the actions. The requests that main screens wait for are the same on both; what a server does
    with them is not seen here either. -/
theorem password_not_seen [Platform] (env : Surroundings) {s s' : Shell} (h : s.hide = s'.hide)
    (events : List (Moment × Event)) :
    (outcome (step env) s events).map hide = (outcome (step env) s' events).map hide :=
  (Unwinds.of_view step_hide).outcome h events

theorem launched_hide [Platform] (env : Surroundings) (now : Moment) (device : Device) :
    (launched env now device).hide = launched env now device.hide :=
  congrArg (Shell.mk · [] []) (Front.load_hide device ContextUtils.MAIN_VIEW).symm

/-- The way to the pad, and a digit four times. -/
def entering (digit : Fin 10) : List (Moment × Event) :=
  [.main .btSetting, .menu 0, .pad (.num digit), .pad (.num digit), .pad (.num digit),
    .pad (.num digit)].map (⟨"24-05-01", false⟩, ·)

/-- The digits 0000 are entered where 1234 is stored, and where nothing is. -/
theorem password_not_seen_0000 :
    (outcome (step englishPhone) locked (entering 0)).map hide
      = (outcome (step englishPhone) (launched englishPhone ⟨"24-05-01", false⟩
          ⟨Table.empty, fun _ => none⟩) (entering 0)).map hide := by
  refine password_not_seen englishPhone ?_ (entering 0)
  rw [locked, launched_hide, launched_hide]
  have hdefaults : (PassWordView.storing "1234").hide = UserDefaults.hide fun _ => none :=
    UserDefault.hide_write (fun _ => none) "1234"
  rw [Device.hide, Device.hide, hdefaults]

end Shell

end KBucket
