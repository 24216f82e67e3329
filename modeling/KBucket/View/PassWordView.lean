import KBucket.Utils.ViewUtils

/-!
# `PassWordView.swift`

The PIN pad. `mButton` holds the fifteen buttons in the order in which `viewDidLoad` appends
them, so that the code's `mButton[1]` to `mButton[4]` are the four indicators; `title` is what
each button shows. The value under `KEY_CONF_PASSWORD` is part of the state, and so are the
screens that this one has presented.
-/

namespace KBucket

inductive UIButton where
  | btnClear
  | btnPass1 | btnPass2 | btnPass3 | btnPass4
  | num (digit : Fin 10)
  deriving DecidableEq, Repr

structure PassWordView where
  mPasswordData : List String := []
  isPasswordset : Bool := false
  mSetting : String
  mStartView : String
  mButton : List UIButton := []
  title : UIButton → Option String
  defaults : UserDefaults
  presented : List Presented := []
  toasts : List String := []

namespace PassWordView

/-- The titles of the storyboard; the indicators have none. -/
def storyboardTitle : UIButton → Option String
  | .btnClear => some "CLEAR"
  | .num digit => some (toString digit.val)
  | _ => none

/-- What `viewDidLoad` appends to `mButton`. -/
def buttons : List UIButton :=
  [.btnClear, .btnPass1, .btnPass2, .btnPass3, .btnPass4,
    .num 0, .num 1, .num 2, .num 3, .num 4, .num 5, .num 6, .num 7, .num 8, .num 9]

/-- `viewDidLoad`, which is the body of the source's `initialize`. -/
def viewDidLoad (v : PassWordView) : PassWordView :=
  let v := { v with mButton := v.mButton ++ buttons }
  if v.mSetting = "SET" then { v with isPasswordset := true }
  else if v.mSetting = "GET" then { v with isPasswordset := false }
  else v

def setTitle (v : PassWordView) (button : UIButton) (text : String) : PassWordView :=
  { v with title := fun b => if b = button then some text else v.title b }

/-- `for index in indices { mButton[index].setTitle(text, for: .normal) }`. -/
def setTitles (v : PassWordView) (indices : List Int) (text : String) :
    Except Trap PassWordView :=
  indices.foldlM (fun v index => (arrayGet v.mButton index).map (v.setTitle · text)) v

def present (v : PassWordView) (view : Presented) : PassWordView :=
  { v with presented := v.presented ++ [view] }

def back (v : PassWordView) (strBack : String) : PassWordView :=
  if strBack = ContextUtils.VIEW_COMPLETE_LIST then
    v.present (.view ContextUtils.VIEW_COMPLETE_LIST)
  else
    v.present (.view ContextUtils.MAIN_VIEW)

def onBackPressed (v : PassWordView) : PassWordView := v.back ContextUtils.MAIN_VIEW

/-- Where a correct password leads, by the widget that asked for it. -/
def start (v : PassWordView) : PassWordView :=
  if v.mStartView = ContextUtils.WIDGET_WRITE_BUCKET then v.back ContextUtils.WRITE_VIEW
  else if v.mStartView = ContextUtils.WIDGET_BUCKET_LIST then v.back ContextUtils.BUCKET_LIST_VIEW
  else if v.mStartView = ContextUtils.WIDGET_OURS_BUCKET then v.back ContextUtils.SHARE_VIEW
  else if v.mStartView = ContextUtils.WIDGET_SHARE then
    v.present (.main ContextUtils.WIDGET_SHARE)
  else v.back ContextUtils.MAIN_VIEW

/-- The first two blocks of `setButtonText`: stars for the digits entered, once there are two,
    and blanks for the digits missing. -/
def setIndicators (v : PassWordView) : Except Trap PassWordView := do
  let count : Int := v.mPasswordData.length
  let mut v := v
  if count > 1 then
    v ← v.setTitles (← closedRange 1 count) "*"
  if count < 4 then
    v ← v.setTitles ((← closedRange 1 (4 - count)).map fun index => 5 - index) " "
  return v

def setButtonText (nfc : String → String) (v : PassWordView) : Except Trap PassWordView := do
  let mut v ← v.setIndicators
  if v.mPasswordData.length = 4 then
    let pswd := (← arrayGet v.mPasswordData 0) ++ "" ++ (← arrayGet v.mPasswordData 1) ++ ""
      ++ (← arrayGet v.mPasswordData 2) ++ "" ++ (← arrayGet v.mPasswordData 3)
    v := { v with defaults := UserDefault.write v.defaults ContextUtils.KEY_CONF_PASSWORD pswd }
    if v.isPasswordset then
      v := v.back ContextUtils.MAIN_VIEW
    else
      let password := UserDefault.read v.defaults ContextUtils.KEY_CONF_PASSWORD
      if !stringEq nfc pswd password then
        v := { v with toasts := v.toasts ++ ["password_fail_string"], mPasswordData := [] }
        v ← v.setTitles (← closedRange 1 4) ""
      else
        v := v.start
  return v

def onClick (nfc : String → String) (v : PassWordView) (sender : UIButton) :
    Except Trap PassWordView := do
  match sender with
  | .num _ =>
    if v.mPasswordData.length < 4 then
      let data ← unwrap (v.title sender)
      setButtonText nfc { v with mPasswordData := v.mPasswordData ++ [data] }
    else return v
  | .btnClear =>
    let size := v.mPasswordData.length
    if size > 0 ∧ size ≤ 4 then
      let mPasswordData ← arrayRemove v.mPasswordData (size - 1)
      setButtonText nfc { v with mPasswordData := mPasswordData }
    else return v
  | _ => return v

/-- The screen as `viewDidLoad` leaves it. -/
def opened (defaults : UserDefaults) (mSetting mStartView : String) : PassWordView :=
  viewDidLoad { mSetting, mStartView, title := storyboardTitle, defaults }

end PassWordView
end KBucket
