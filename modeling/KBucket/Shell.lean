import KBucket.App
import KBucket.View.MainView
import KBucket.View.PassWordView
import KBucket.View.SetBackColorView
import KBucket.View.SetNickNameView
import KBucket.View.SettingView

/-!
# The whole app

The main screen, the settings and the screens that work on the store, with the preferences that
they share. A screen that is presented is loaded from the storyboard by its name. The screens
that only show something (the notices, the tutorial, what the server has) are names here: they
write no preference and leave for the main screen. What they ask of the server, and what its
answers do to them, is not part of this model.

A main screen that is left is not gone: the tasks of its requests keep it, and hand it their
answers whatever is in front by then. So the main screens that were left stay behind the one in
front, each with the requests that it still waits for. A request that is lost has no data to
unwrap, which ends the process.

A token for push messages may arrive at any time. The updates of the user that the main screen
sends when it appears are kept, in the order in which they are sent; their tasks call nobody.
-/

namespace KBucket

/-- What is given with the phone: how its Swift compares and divides strings and runs through
    dictionaries, how it rounds the components of colours, its language, and the colours of the
    buttons in the storyboard. -/
structure Surroundings where
  nfc : String → String
  swift : StringUtils.Characters
  hash : HashOrder
  float : Rat → Rat
  phone : Phone
  confList : String
  palette : Fin 18 → Option UIColor

inductive Front where
  | main (realm : Realm) (v : MainView)
  | store (app : App)
  | setting (realm : Realm) (v : SettingView)
  | passWord (realm : Realm) (v : PassWordView)
  | setNickName (realm : Realm) (v : SetNickNameView)
  | setBackColor (realm : Realm) (v : SetBackColorView)
  | other (device : Device) (strView : String)

/-- A main screen that was left, with the requests that have no answer yet. The preferences that
    it reads are those of the device. -/
structure Left where
  requests : List HttpRequest
  toasts : List String
  popups : List Popup

namespace Left

def ofController (v : ViewController) : Left where
  requests := v.requests
  toasts := v.toasts
  popups := v.popups

def controller (defaults : UserDefaults) (left : Left) : ViewController where
  defaults
  requests := left.requests
  toasts := left.toasts
  popups := left.popups

end Left

structure Shell where
  front : Front
  updates : List URLRequest := []
  behind : List Left := []

/-- The day, as it is written on it, and whether the network can be reached. -/
structure Moment where
  today : String
  isConnect : Bool
  deriving DecidableEq, Repr

namespace Front

def device : Front → Device
  | .main realm v => ⟨realm, v.controller.defaults⟩
  | .store app => app.device
  | .setting realm v => ⟨realm, v.defaults⟩
  | .passWord realm v => ⟨realm, v.defaults⟩
  | .setNickName realm v => ⟨realm, v.defaults⟩
  | .setBackColor realm v => ⟨realm, v.defaults⟩
  | .other device _ => device

/-- The screen of that name, as it is loaded. -/
def load [Platform] (env : Surroundings) (now : Moment) (device : Device) (strView : String) :
    Front :=
  if strView = ContextUtils.MAIN_VIEW then
    .main device.realm (.viewDidLoad Platform.bitWidth now.isConnect device.defaults)
  else if strView = ContextUtils.WRITE_VIEW then .store (.write (.viewDidLoad env.nfc device))
  else if strView = ContextUtils.BUCKET_LIST_VIEW then .store (.bucketList (.viewDidLoad device))
  else if strView = "AddBucketView" then .store (.addBucket { device })
  else if strView = "DBMgrView" then .store (.dbMgr device)
  else if strView = "SettingView" then
    .setting device.realm (.viewDidLoad env.confList device.defaults)
  else if strView = "PassWordView" then .passWord device.realm (.opened device.defaults "" "")
  else if strView = ContextUtils.SET_NICKNAME_VIEW then
    .setNickName device.realm (.viewDidLoad device.defaults)
  else if strView = "SetBackColorView" then
    .setBackColor device.realm { defaults := device.defaults, backgroundColor := env.palette }
  else .other device strView

/-- The screen after a handler: the one that it presented, if any. -/
def follow [Platform] (env : Surroundings) (now : Moment) (front : Front)
    (presented : List Presented) : Front :=
  match presented.getLast? with
  | some (.view strView) => load env now front.device strView
  | some (.main _) => load env now front.device ContextUtils.MAIN_VIEW
  | _ => front

/-- The main screen is loaded anew when a screen of the store leaves for it. -/
def ofApp [Platform] (env : Surroundings) (now : Moment) : App → Front
  | .main device => load env now device ContextUtils.MAIN_VIEW
  | app => .store app

/-- The app receives a token, whatever is in front. -/
def setDefaults (defaults : UserDefaults) : Front → Front
  | .main realm v => .main realm { v with controller := { v.controller with defaults } }
  | .store (.main device) => .store (.main { device with defaults })
  | .store (.write v) => .store (.write { v with device := { v.device with defaults } })
  | .store (.detail v) => .store (.detail { v with device := { v.device with defaults } })
  | .store (.bucketList v) => .store (.bucketList { v with device := { v.device with defaults } })
  | .store (.addBucket v) => .store (.addBucket { v with device := { v.device with defaults } })
  | .store (.dbMgr device) => .store (.dbMgr { device with defaults })
  | .setting realm v => .setting realm { v with defaults }
  | .passWord realm v => .passWord realm { v with defaults }
  | .setNickName realm v => .setNickName realm { v with defaults }
  | .setBackColor realm v => .setBackColor realm { v with defaults }
  | .other device strView => .other { device with defaults } strView

theorem setDefaults_setDefaults (front : Front) (defaults defaults' : UserDefaults) :
    (front.setDefaults defaults).setDefaults defaults' = front.setDefaults defaults' := by
  cases front with
  | store app => cases app <;> rfl
  | _ => rfl

theorem device_setDefaults (front : Front) (defaults : UserDefaults) :
    (front.setDefaults defaults).device = { front.device with defaults } := by
  cases front with
  | store app => cases app <;> rfl
  | _ => rfl

end Front

namespace Shell

/-- The main screen that a task calls: the one in front, or one of those that were left. -/
inductive Receiver where
  | front
  | behind (i : Nat)
  deriving DecidableEq, Repr

/-- `shown` is whether the screen that asks for a name can be presented by the first screen of
    the app. The `i`-th request that a main screen waits for is answered, or is lost. -/
inductive Event where
  | appear (shown : Bool)
  | main (button : MainView.Button)
  | receive (receiver : Receiver) (i : Nat) (type : Int) (data : Option Json)
  | lose (receiver : Receiver) (i : Nat)
  | store (event : App.Event)
  | menu (row : Nat)
  | pad (sender : UIButton)
  | typeName (text : Option String)
  | setName
  | colour (sender : Fin 18)
  | back
  | token (deviceToken : Data)

/-- A main screen, if it is there. -/
def controller? (s : Shell) : Receiver → Option ViewController
  | .front =>
    match s.front with
    | .main _ v => some v.controller
    | _ => none
  | .behind i => s.behind[i]?.map (Left.controller s.front.device.defaults)

def setController (s : Shell) (controller : ViewController) : Receiver → Shell
  | .front =>
    match s.front with
    | .main realm v => { s with front := .main realm { v with controller } }
    | _ => s
  | .behind i => { s with behind := s.behind.set i (.ofController controller) }

/-- The request of that number, and the screen that waits for it no longer. -/
def awaited? (s : Shell) (receiver : Receiver) (i : Nat) : Option (ViewController × HttpRequest) :=
  (s.controller? receiver).bind fun v =>
    v.requests[i]?.map fun request => ({ v with requests := v.requests.eraseIdx i }, request)

/-- The task of a request hands the answer to the screen that it was made with. -/
def receive [Platform] (s : Shell) (receiver : Receiver) (i : Nat) (type : Int)
    (data : Option Json) : Except Trap Shell :=
  match s.awaited? receiver i with
  | some (v, request) => do
    let v ← v.onHttpReceive type request.id data
    return s.setController v receiver
  | none => .ok s

/-- The task of a request that is lost: `data!` where there is none. -/
def lose (s : Shell) (receiver : Receiver) (i : Nat) : Except Trap Shell :=
  match s.awaited? receiver i with
  | some _ => .error .unwrappedNil
  | none => .ok s

/-- The main screen stays behind one that it presents. -/
def followMain [Platform] (env : Surroundings) (now : Moment) (s : Shell) (realm : Realm)
    (v : MainView) (presented : List Presented) : Shell :=
  { s with
    front := Front.follow env now (.main realm v) presented
    behind :=
      match presented with
      | [] => s.behind
      | _ :: _ => s.behind ++ [.ofController v.controller] }

/-- One action, at a moment. What the screen in front has no control for does nothing. -/
def step [Platform] (env : Surroundings) (s : Shell) : Moment × Event → Except Trap Shell
  | (now, event) =>
    match s.front, event with
    | front, .token deviceToken =>
      let defaults :=
        AppDelegate.didRegisterForRemoteNotifications front.device.defaults deviceToken
      .ok { s with front := front.setDefaults defaults }
    | _, .receive receiver i type data => s.receive receiver i type data
    | _, .lose receiver i => s.lose receiver i
    | .main realm v, .appear shown => do
      let (v, requests) ← v.viewDidAppear env.hash env.phone now.isConnect
      let presented := if shown then v.presented else []
      return { s.followMain env now realm { v with presented := [] } presented with
        updates := s.updates ++ requests }
    | .main realm v, .main button =>
      let v := v.onClick now.isConnect button
      .ok (s.followMain env now realm v v.presented)
    | .store app, .store event => do
      let app ← app.step env.nfc (now.today, event)
      return { s with front := Front.ofApp env now app }
    | .setting realm v, .menu row =>
      if row < v.numberOfRowsInSection then do
        let cell ← v.cellForRowAt row {}
        let v := v.receiveEventFromViewItem cell.mIdx ""
        return { s with front := Front.follow env now (.setting realm v) v.presented }
      else .ok s
    | .passWord realm v, .pad sender => do
      let v ← v.onClick env.nfc sender
      return { s with front := Front.follow env now (.passWord realm v) v.presented }
    | .setNickName realm v, .typeName etName =>
      .ok { s with front := .setNickName realm { v with etName } }
    | .setNickName realm v, .setName =>
      let v := v.onClick env.nfc env.swift
      .ok { s with front := Front.follow env now (.setNickName realm v) v.presented }
    | .setBackColor realm v, .colour sender => do
      let v ← v.onClick env.float Platform.bitWidth sender
      return { s with front := .setBackColor realm v }
    | .setting .., .back | .passWord .., .back | .setNickName .., .back
    | .setBackColor .., .back | .other .., .back =>
      .ok { s with front := Front.load env now s.front.device ContextUtils.MAIN_VIEW }
    | _, _ => .ok s

/-- The app as it is launched. -/
def launched [Platform] (env : Surroundings) (now : Moment) (device : Device) : Shell where
  front := Front.load env now device ContextUtils.MAIN_VIEW

/-! ## The controls of each screen -/

variable {env : Surroundings} {now : Moment} {realm : Realm} {updates : List URLRequest}
  {behind : List Left}

theorem step_token [Platform] (s : Shell) (deviceToken : Data) :
    step env s (now, .token deviceToken) = .ok { s with
      front := s.front.setDefaults (AppDelegate.didRegisterForRemoteNotifications
        s.front.device.defaults deviceToken) } := by
  obtain ⟨front, updates, behind⟩ := s
  cases front <;> rfl

theorem step_receive [Platform] (s : Shell) (receiver : Receiver) (i : Nat) (type : Int)
    (data : Option Json) :
    step env s (now, .receive receiver i type data) = s.receive receiver i type data := by
  obtain ⟨front, updates, behind⟩ := s
  cases front <;> rfl

theorem step_lose [Platform] (s : Shell) (receiver : Receiver) (i : Nat) :
    step env s (now, .lose receiver i) = s.lose receiver i := by
  obtain ⟨front, updates, behind⟩ := s
  cases front <;> rfl

theorem step_appear [Platform] (v : MainView) (shown : Bool) :
    step env ⟨.main realm v, updates, behind⟩ (now, .appear shown) = (do
      let (v, requests) ← v.viewDidAppear env.hash env.phone now.isConnect
      return { followMain env now ⟨.main realm v, updates, behind⟩ realm { v with presented := [] }
          (if shown then v.presented else []) with
        updates := updates ++ requests }) := rfl

theorem step_main [Platform] (v : MainView) (button : MainView.Button) :
    step env ⟨.main realm v, updates, behind⟩ (now, .main button)
      = .ok (followMain env now ⟨.main realm v, updates, behind⟩ realm
        (v.onClick now.isConnect button) (v.onClick now.isConnect button).presented) := rfl

theorem step_store [Platform] (app : App) (event : App.Event) :
    step env ⟨.store app, updates, behind⟩ (now, .store event) = (do
      let app ← app.step env.nfc (now.today, event)
      return ⟨Front.ofApp env now app, updates, behind⟩) := rfl

/-- A row of the menu comes to its item: the cell in it has its number. -/
theorem step_menu [Platform] (v : SettingView) (row : Nat) :
    step env ⟨.setting realm v, updates, behind⟩ (now, .menu row)
      = .ok (if row < v.numberOfRowsInSection then
          ⟨Front.follow env now (.setting realm (v.changeMenuView row))
            (v.changeMenuView row).presented, updates, behind⟩
        else ⟨.setting realm v, updates, behind⟩) := by
  show (if row < v.numberOfRowsInSection then _ else _) = _
  by_cases hrow : row < v.numberOfRowsInSection
  · have hcell : v.cellForRowAt row {} = .ok { lbContents := v.mList[row], mIdx := row } := by
      rw [SettingView.cellForRowAt, arrayGet_ofNat hrow]
      rfl
    rw [if_pos hrow, if_pos hrow, hcell]
    rfl
  · rw [if_neg hrow, if_neg hrow]

theorem step_pad [Platform] (v : PassWordView) (sender : UIButton) :
    step env ⟨.passWord realm v, updates, behind⟩ (now, .pad sender) = (do
      let v ← v.onClick env.nfc sender
      return ⟨Front.follow env now (.passWord realm v) v.presented, updates, behind⟩) := rfl

theorem step_setName [Platform] (v : SetNickNameView) :
    step env ⟨.setNickName realm v, updates, behind⟩ (now, .setName)
      = .ok ⟨Front.follow env now (.setNickName realm (v.onClick env.nfc env.swift))
        (v.onClick env.nfc env.swift).presented, updates, behind⟩ := rfl

theorem step_colour [Platform] (v : SetBackColorView) (sender : Fin 18) :
    step env ⟨.setBackColor realm v, updates, behind⟩ (now, .colour sender) = (do
      let v ← v.onClick env.float Platform.bitWidth sender
      return ⟨.setBackColor realm v, updates, behind⟩) := rfl

end Shell
end KBucket
