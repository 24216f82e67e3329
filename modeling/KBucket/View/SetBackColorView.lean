import KBucket.Utils.ContextUtils
import KBucket.Utils.UIColor

/-!
# `SetBackColorView.swift`

The choice of a theme: eighteen buttons, each with the colour that it stands for as its
background. The one that is pressed gets a mark, its colour is stored as a text, and the screen
takes as its background what it reads back.
-/

namespace KBucket

structure SetBackColorView where
  defaults : UserDefaults
  /-- The backgrounds of the buttons. -/
  backgroundColor : Fin 18 → Option UIColor
  image : Fin 18 → Option String := fun _ => none
  backView : Option UIColor := none

namespace SetBackColorView

def checkButton (v : SetBackColorView) (button : Fin 18) : SetBackColorView :=
  { v with image := fun item => if item = button then some "mark.png" else none }

def setBackgroundColor (w : Nat) (v : SetBackColorView) : SetBackColorView :=
  let color := UserDefault.read v.defaults ContextUtils.BACK_MEMO
  if color.length > 0 then { v with backView := UIColor.hexRGB w color } else v

def onClick (float : Rat → Rat) (w : Nat) (v : SetBackColorView) (sender : Fin 18) :
    Except Trap SetBackColorView := do
  let backColor ← unwrap (v.backgroundColor sender)
  let hexString ← backColor.hexString float w
  let defaults := UserDefault.write v.defaults ContextUtils.BACK_MEMO hexString
  return setBackgroundColor w ({ v with defaults }.checkButton sender)

end SetBackColorView
end KBucket
