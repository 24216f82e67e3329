import KBucket.Utils.StringUtils
import KBucket.Utils.ViewUtils

/-!
# `SetNickNameView.swift`

The name under which the user is known to the server. It is stored without its spaces, and may
be empty then. `SQLQuery.updateUserNickName`, which is told of it, has no statements.
-/

namespace KBucket

structure SetNickNameView where
  defaults : UserDefaults
  etName : Option String := some ""
  toasts : List String := []
  presented : List Presented := []

namespace SetNickNameView

/-- `viewDidLoad`, which is the body of the source's `initialize`. -/
def viewDidLoad (defaults : UserDefaults) : SetNickNameView :=
  let nickname := UserDefault.read defaults ContextUtils.KEY_USER_NICKNAME
  if nickname.length > 0 then { defaults, etName := some nickname } else { defaults }

def back (v : SetNickNameView) (strBack : String) : SetNickNameView :=
  if strBack = ContextUtils.VIEW_COMPLETE_LIST then
    { v with presented := v.presented ++ [.view ContextUtils.VIEW_COMPLETE_LIST] }
  else { v with presented := v.presented ++ [.view ContextUtils.MAIN_VIEW] }

def onClick (nfc : String → String) (swift : StringUtils.Characters) (v : SetNickNameView) :
    SetNickNameView :=
  match v.etName with
  | none => { v with toasts := v.toasts ++ ["nickname_fail_string"] }
  | some name =>
    if stringEq nfc name "" then { v with toasts := v.toasts ++ ["nickname_fail_string"] }
    else
      let name := StringUtils.replacingOccurrences swift name " " ""
      let v := { v with
        defaults := UserDefault.write v.defaults ContextUtils.KEY_USER_NICKNAME name }
      v.back ContextUtils.MAIN_VIEW

def onBackPressed (v : SetNickNameView) : SetNickNameView := v.back ContextUtils.MAIN_VIEW

end SetNickNameView
end KBucket
