import KBucket.Json
import KBucket.Managers.Http
import KBucket.Utils.ContextUtils
import KBucket.Utils.StringUtils
import KBucket.Utils.UIColor

/-!
# `ViewController.swift`

The main screen, as far as it talks to the server: the version check with which it starts, and
the answers of the assistant. The texts of the popups are given by the keys of their
localizations. Its background is the stored colour of the theme.
-/

namespace KBucket

namespace ConstPopup

def POPUP_AI : Int := 1003
def POPUP_UPDATE_FORCE : Int := 1004
def POPUP_UPDATE_SELECT : Int := 1005

end ConstPopup

/-- A popup as it is shown. -/
inductive Popup where
  | custom (message : String) (id : Int)
  | basic (title content : String) (id : Int)
  | confirm (title content : String) (id : Int)
  deriving DecidableEq, Repr

structure ViewController where
  defaults : UserDefaults
  requests : List HttpRequest := []
  toasts : List String := []
  popups : List Popup := []

namespace ViewController

/-- The view, which stores a colour where none is, and the colour of its background. -/
def setBackgroundColor (w : Nat) (v : ViewController) : ViewController × Option UIColor :=
  let color := UserDefault.read v.defaults ContextUtils.BACK_MEMO
  if color.length > 0 then (v, UIColor.hexRGB w color)
  else
    ({ v with defaults := UserDefault.write v.defaults ContextUtils.BACK_MEMO "#FFE452" },
      UIColor.hexRGB w (some "#FFE452"))

/-- The messages of `handleMessage` that have to do with answers. -/
inductive Message where
  | TOAST_MASSEGE
  | FAIL_AI
  | RESPOND_AI
  | CHECK_VERSION
  deriving DecidableEq, Repr

def send (v : ViewController) (request : HttpRequest) : ViewController :=
  { v with requests := v.requests ++ [request] }

def toast (v : ViewController) (message : String) : ViewController :=
  { v with toasts := v.toasts ++ [message] }

def showPopup (v : ViewController) (popup : Popup) : ViewController :=
  { v with popups := v.popups ++ [popup] }

def handleMessage (v : ViewController) (what : Message) (obj : String) : ViewController :=
  match what with
  | .TOAST_MASSEGE => v.toast obj
  | .FAIL_AI => v
  | .RESPOND_AI => v.showPopup (.custom obj ConstPopup.POPUP_AI)
  | .CHECK_VERSION =>
    v.send {
      url := ContextUtils.KBUCKET_VERSION_UPDATE_URL, post := true
      id := ConstHTTP.UPDATE_VERSION, data := "version=" ++ ContextUtils.VERSION_NAME }

/-- The message `REQUEST_AI`. -/
def requestAI (v : ViewController) (isConnect : Bool) : ViewController :=
  if isConnect then
    let userNickName := UserDefault.read v.defaults ContextUtils.KEY_USER_NICKNAME
    v.send {
      url := ContextUtils.KBUCKET_AI, post := true, id := ConstHTTP.REQUEST_AI
      data := "nickname=" ++ userNickName }
  else v.handleMessage .TOAST_MASSEGE "check_network"

/-- What the answer to the version check comes to, once its fields are read. -/
def checkVersion [Platform] (v : ViewController) (versionName forceYN : String) :
    Except Trap ViewController := do
  if versionName.length > 0 then
    let order ← StringUtils.compareVersion ContextUtils.VERSION_NAME versionName
    if order > 0 then
      if forceYN = "Y" then
        return v.showPopup
          (.basic "update_popup_title" "update_popup_content_y" ConstPopup.POPUP_UPDATE_FORCE)
      else
        return v.showPopup
          (.confirm "update_popup_title" "update_popup_content_n" ConstPopup.POPUP_UPDATE_SELECT)
    else return v.handleMessage .TOAST_MASSEGE "check_version_lasted"
  else return v

/-- `data` is what `JSONSerialization` makes of the body, and `none` where it throws. -/
def onHttpReceive [Platform] (v : ViewController) (type actionId : Int) (data : Option Json) :
    Except Trap ViewController := do
  if actionId = ConstHTTP.REQUEST_AI then
    if type = ConstHTTP.HTTP_OK then
      match data with
      | some (.obj jsonString) =>
        let message ← Json.asString (jsonString.lookup "replay")
        return v.handleMessage .RESPOND_AI message
      | some _ => return v
      | none => return v.handleMessage .FAIL_AI ""
    else return v.handleMessage .FAIL_AI ""
  else if actionId = ConstHTTP.UPLOAD_DB then
    if type = ConstHTTP.HTTP_OK then
      return v.handleMessage .TOAST_MASSEGE
        "메모가지 서버에 DB를 업로드하였습니다\nDB 파일이 필요하시면 문의해주세요"
    else
      return v.handleMessage .TOAST_MASSEGE "메모가지 서버에 DB를 업로드하는데 실패하였습니다"
  else if actionId = ConstHTTP.UPDATE_VERSION then
    if type = ConstHTTP.HTTP_OK then
      match data with
      | some (.obj jsonString) =>
        if jsonString.length > 0 then
          let versionName ← Json.asString (jsonString.lookup "versionName")
          let forceYN ← Json.asString (jsonString.lookup "forceYN")
          v.checkVersion versionName forceYN
        else return v
      | some _ => return v
      | none => return v.handleMessage .FAIL_AI ""
    else return v
  else return v

end ViewController
end KBucket
