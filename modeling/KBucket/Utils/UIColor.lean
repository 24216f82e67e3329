import KBucket.Foundation
import KBucket.Lib.Hex
import Mathlib.Data.Rat.Cast.Defs

/-!
# `UIColor.swift`

A colour is read from a text and written to one. An `Int` has `w` bits, 32 or 64 by the device:
`Int(_:radix:)` answers `nil` for a number that does not fit, and a conversion of one that does not
fit traps.

Components are exact numbers here. What a component comes to on its way to a level, with the
roundings of `CGFloat` and of `Float`, is a parameter of what is written: `float`, which is `exact`
where nothing is rounded. A level that was read is an exact number of 255ths.
-/

namespace KBucket

structure UIColor where
  red : Rat
  green : Rat
  blue : Rat
  alpha : Rat
  deriving DecidableEq, Repr

namespace UIColor

open Lib

/-- The value of an optional sign and hexadecimal digits. -/
def hexValue? (text : List Char) : Option Int :=
  match text with
  | '-' :: cs => (Hex.number? cs).map fun n => -(n : Int)
  | '+' :: cs => (Hex.number? cs).map Int.ofNat
  | cs => (Hex.number? cs).map Int.ofNat

/-- `Int(text, radix: 16)`. -/
def intOfHex? (w : Nat) (text : List Char) : Option Int :=
  (hexValue? text).bind fun i => if FitsWidth w i then some i else none

/-- `CGFloat((val >> shift) & 0xff) / 255.0`. -/
def component (w : Nat) (val : Int) (shift : Nat) : Rat :=
  (((BitVec.ofInt w val).sshiftRight shift &&& 0xff#w).toNat : Rat) / 255

/-- `init?(hexRGBA:)`. -/
def hexRGBA (w : Nat) (hexRGBA : Option String) : Option UIColor := do
  let rgba ← hexRGBA
  let val ← intOfHex? w (rgba.toList.filter (· ≠ '#'))
  return {
    red := component w val 24
    green := component w val 16
    blue := component w val 8
    alpha := component w val 0 }

/-- `init?(hexRGB:)`. -/
def hexRGB (w : Nat) (hexRGB : Option String) : Option UIColor := do
  let rgb ← hexRGB
  UIColor.hexRGBA w (some (rgb ++ "ff"))

/-- A number without its fraction. -/
def trunc (x : Rat) : Int := x.num.tdiv x.den

/-- `Float(r * 0xFF)`, if it were not rounded. -/
def exact (r : Rat) : Rat := r * 0xFF

/-- `Int(_:)` of a `Float`. -/
def toInt (w : Nat) (x : Rat) : Except Trap Int :=
  if FitsWidth w (trunc x) then .ok (trunc x) else .error .notRepresentable

/-- What `hexString` makes of one component. -/
def level (float : Rat → Rat) (w : Nat) (r : Rat) : Except Trap Int := do
  if (← toInt w (float r)) > 255 then return 255
  else if (← toInt w (float r)) < 0 then return 0
  else toInt w (float r)

/-- `%02X`, for the numbers that are no less than zero. -/
def format02X (n : Int) : List Char := Hex.pad 2 n.toNat

def hexString (float : Rat → Rat) (w : Nat) (c : UIColor) : Except Trap String := do
  let rr ← level float w c.red
  let gg ← level float w c.green
  let bb ← level float w c.blue
  let aa ← level float w c.alpha
  return String.ofList ('#' :: (format02X aa ++ format02X rr ++ format02X gg ++ format02X bb))

end UIColor
end KBucket
