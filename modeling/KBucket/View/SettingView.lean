import KBucket.Foundation
import KBucket.Utils.ViewUtils

/-!
# `SettingVIew.swift`

The menu of settings. Its items are one localized text, taken apart at the commas; an item is
chosen by its row, and most of them present another screen.
-/

namespace KBucket

structure SettingCustomCell where
  lbContents : String := ""
  mIdx : Int := 0
  deriving DecidableEq, Repr

structure SettingView where
  defaults : UserDefaults
  mList : List String := []
  reloads : Nat := 0
  toasts : List String := []
  presented : List Presented := []
  /-- The addresses that are opened outside of the app. -/
  browsed : List String := []
  /-- The texts for which the system's sheet for sharing is shown. -/
  shared : List String := []

namespace SettingView

/-- `viewDidLoad`; `confList` is the text of this name in the language of the phone. -/
def viewDidLoad (confList : String) (defaults : UserDefaults) : SettingView where
  defaults
  mList := split confList ','
  reloads := 1

def changeView (v : SettingView) (viewName : String) : SettingView :=
  { v with presented := v.presented ++ [.view viewName] }

def toast (v : SettingView) (message : String) : SettingView :=
  { v with toasts := v.toasts ++ [message] }

def changeMenuView (v : SettingView) (menu : Int) : SettingView :=
  if menu = 0 then v.changeView "PassWordView"
  else if menu = 1 then
    let v := v.toast "password_cancle_string"
    { v with defaults := UserDefault.write v.defaults ContextUtils.KEY_CONF_PASSWORD "" }
  else if menu = 2 then v.changeView "DBMgrView"
  else if menu = 3 then v.changeView "SetNickNameView"
  else if menu = 4 then v.changeView "SetBackColorView"
  else if menu = 5 then v.changeView "TutorialView"
  else if menu = 6 then v.changeView "QuestionView"
  else if menu = 7 then { v with browsed := v.browsed ++ [ContextUtils.KBUCKET_BLOG] }
  else if menu = 8 then
    let text :=
      "Bucket, Things your dreams - KMemo Branch, Your Dream Bucket Introducing KMemo Branch App."
    let textToShare := [text]
    { v with shared := v.shared ++ textToShare }
  else if menu = 9 then v.changeView "AddBucketView"
  else v

def receiveEventFromViewItem (v : SettingView) (gbn : Int) (_data : String) : SettingView :=
  v.changeMenuView gbn

def numberOfRowsInSection (v : SettingView) : Nat := v.mList.length

/-- What `tableView(_:cellForRowAt:)` does to the outlets. -/
def cellForRowAt (v : SettingView) (row : Nat) (cell : SettingCustomCell) :
    Except Trap SettingCustomCell := do
  let lbContents ← arrayGet v.mList row
  return { cell with lbContents, mIdx := row }

def onBackPressed (v : SettingView) : SettingView := v.changeView ContextUtils.MAIN_VIEW

end SettingView
end KBucket
