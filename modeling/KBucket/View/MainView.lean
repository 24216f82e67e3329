import KBucket.Lib.Hex
import KBucket.Managers.HttpUrlTaskManager
import KBucket.Utils.ViewUtils
import KBucket.View.ViewController

/-!
# `ViewController.swift`: loading, appearing and the buttons

The main screen as it is loaded, what it does each time it appears, and what it tells the server
about the user. The screen here is the one that talks to the server (`ViewController`), its
background and the screens it has presented.
-/

namespace KBucket

/-- What the app asks of the phone that it runs on. -/
structure Phone where
  languageCode : Option String
  systemVersion : String
  model : String
  deriving DecidableEq, Repr

/-- `AppUtils.getUserPhoneLanuage`. -/
def Phone.getUserPhoneLanuage (phone : Phone) : String :=
  match phone.languageCode with
  | some langStr => langStr
  | none => ""

structure MobileUser where
  mOs : String := "IOS"
  mPhone : String := ""
  mUserNickName : String := ""
  mVersionName : String := ""
  mMarket : String := "APPLE"
  mLanguage : String := ""
  mCountry : String := ""
  mGcmToken : String := "N"
  deriving DecidableEq, Repr

/-- `toDictionary`, whose version is the app's and not the field's. -/
def MobileUser.toDictionary (hash : HashOrder) (phone : Phone) (user : MobileUser) : Dictionary :=
  hash.order {
    rows := [("OS", user.mOs), ("NICKNAME", user.mUserNickName), ("PHONE", user.mPhone),
      ("VERSION_NAME", ContextUtils.VERSION_NAME), ("MARKET", user.mMarket),
      ("LANG", user.mLanguage), ("COUNTY", user.mCountry), ("GCM_TOKEN", user.mGcmToken),
      ("OS_VERSION", phone.systemVersion), ("TEL_GBN", phone.model)]
    nodup := by
      show ["OS", "NICKNAME", "PHONE", "VERSION_NAME", "MARKET", "LANG", "COUNTY", "GCM_TOKEN",
        "OS_VERSION", "TEL_GBN"].Nodup
      decide }

structure UserUpdateTask where
  mURl : String
  isPost : Bool

/-- The request of the task. Its closure calls nobody. -/
def UserUpdateTask.actionTaskWithData (task : UserUpdateTask) (data : String) : URLRequest :=
  if task.isPost then
    { URLRequest.setValue { url := task.mURl } "application/x-www-form-urlencoded" "Content-Type"
      with httpMethod := "POST", httpBody := utf8 data }
  else { url := task.mURl }

structure MainView where
  controller : ViewController
  background : Option UIColor
  presented : List Presented := []

namespace MainView

/-- `viewDidLoad`, which is the body of the source's `initialize`. -/
def viewDidLoad (w : Nat) (isConnect : Bool) (defaults : UserDefaults) : MainView :=
  let (controller, background) := ViewController.setBackgroundColor w { defaults }
  if isConnect then
    { controller := controller.handleMessage .CHECK_VERSION "", background }
  else { controller, background }

def getUserData (phone : Phone) (v : MainView) : MobileUser where
  mUserNickName := UserDefault.read v.controller.defaults ContextUtils.KEY_USER_NICKNAME
  mVersionName := ContextUtils.VERSION_NAME
  mLanguage := phone.getUserPhoneLanuage
  mCountry := phone.getUserPhoneLanuage
  mGcmToken := UserDefault.read v.controller.defaults ContextUtils.KEY_USER_FCM

/-- The message `UPDATE_USER`. -/
def updateUser (hash : HashOrder) (phone : Phone) (v : MainView) : Except Trap URLRequest := do
  let sendData ← StringUtils.getHTTPPostSendData ((v.getUserData phone).toDictionary hash phone)
  return UserUpdateTask.actionTaskWithData
    { mURl := ContextUtils.KBUCKET_UPDATE_USER, isPost := true } sendData

def changeView (v : MainView) (viewName : String) : MainView :=
  { v with presented := v.presented ++ [.view viewName] }

/-- The screen, and the update of the user that is sent, if any. -/
def viewDidAppear (hash : HashOrder) (phone : Phone) (isConnect : Bool) (v : MainView) :
    Except Trap (MainView × List URLRequest) := do
  let nickname := UserDefault.read v.controller.defaults ContextUtils.KEY_USER_NICKNAME
  if nickname.length = 0 then return (v.changeView ContextUtils.SET_NICKNAME_VIEW, [])
  else if isConnect then
    let request ← v.updateUser hash phone
    return (v, [request])
  else return (v, [])

inductive Button where
  | btWrite | btComplete | btShare | btRank | btSetting | btAI | btNotice
  deriving DecidableEq, Repr

def onClick (isConnect : Bool) (v : MainView) : Button → MainView
  | .btWrite => v.changeView "WriteView"
  | .btComplete => v.changeView "BucketListView"
  | .btShare => v.changeView "ShareListView"
  | .btRank => v.changeView "RankListView"
  | .btSetting => v.changeView "SettingView"
  | .btAI => { v with controller := v.controller.requestAI isConnect }
  | .btNotice => v.changeView "NoticeView"

end MainView

namespace AppDelegate

/-- `deviceToken.reduce("", {$0 + String(format: "%02X", $1)})`. -/
def tokenText (deviceToken : Data) : String :=
  deviceToken.foldl (fun text byte => text ++ String.ofList (Lib.Hex.pad 2 byte.toNat)) ""

def didRegisterForRemoteNotifications (defaults : UserDefaults) (deviceToken : Data) :
    UserDefaults :=
  UserDefault.write defaults ContextUtils.KEY_USER_FCM (tokenText deviceToken)

end AppDelegate
end KBucket
