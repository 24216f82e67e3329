import KBucket.Foundation
import KBucket.Lib.Replace

/-!
# `StringUtils.swift`

Where strings are searched they are lists of Swift's characters, which may have several Unicode
scalars and are matched as a whole. Those of ASCII are among them (`Ascii`); what the others are is
left open.
-/

namespace KBucket
namespace StringUtils

/-! ## HTML -/

/-- The ASCII characters among all characters, no two of them the same. -/
structure Ascii (Character : Type) where
  char : Char → Character
  inj : ∀ a b, a.toNat < 128 → b.toNat < 128 → char a = char b → a = b

/-- A text of the source code. -/
def Ascii.text {Character : Type} (ascii : Ascii Character) (literal : String) : List Character :=
  literal.toList.map ascii.char

section

variable {Character : Type} [DecidableEq Character] (ascii : Ascii Character)

def contains (strOrigin find : List Character) : Bool := Lib.Replace.contains find strOrigin

/-- One `if` of `convertString`. It looks into `temp`, and replaces in `str`. -/
def convertStep (str : List Character) (target withString : String) (temp : List Character) :
    List Character :=
  if contains temp (ascii.text target) then
    Lib.Replace.replace (ascii.text target) (ascii.text withString) str
  else temp

def convertString (str : List Character) : List Character :=
  let temp := str
  let temp := convertStep ascii str "&amp;" "&" temp
  let temp := convertStep ascii str "&apos;" "'" temp
  let temp := convertStep ascii str "&quot;" "\"" temp
  let temp := convertStep ascii str "\\" "\\" temp
  let temp := convertStep ascii str "&lt;" "<" temp
  let temp := convertStep ascii str "&gt;" ">" temp
  temp

end

/-! ## Versions and requests -/

/-- `text.components(separatedBy: ".")`. -/
def components (text : String) : List String := (text.toList.splitOn '.').map String.ofList

def getIntegrArrayFromStringArray [Platform] (arr : List String) : Except Trap (List Int) :=
  arr.mapM fun str => unwrap (intOfString? str)

/-- The loop of `compareVersion`, over the indices that are left. -/
def compareAt (arrSrc arrNew : List Int) : List Nat → Except Trap Int
  | [] => return 0
  | i :: rest => do
    let new ← arrayGet arrNew i
    let src ← arrayGet arrSrc i
    if new > src then return 1
    else if new < src then return -1
    else compareAt arrSrc arrNew rest

def compareVersion [Platform] (srcVersion newVersion : String) : Except Trap Int := do
  let arrSrc ← getIntegrArrayFromStringArray (components srcVersion)
  let arrNew ← getIntegrArrayFromStringArray (components newVersion)
  if arrSrc.length ≠ arrNew.length then return 1
  else compareAt arrSrc arrNew (List.range arrSrc.length)

/-- The body of a POST request: every parameter as it is, and a `&` after each. -/
def getHTTPPostSendData (sendData : Dictionary) : Except Trap String :=
  sendData.keys.foldlM (fun sb key => do
    let value ← unwrap (Dictionary.get? sendData key)
    return sb ++ (key ++ "=" ++ value ++ "&")) ""

/-! ## Replacing in any string -/

/-- How Swift divides a string into its characters. -/
structure Characters where
  characters : String → List String
  join : ∀ text, (characters text).flatMap String.toList = text.toList
  ne_empty : ∀ text, ∀ character ∈ characters text, character ≠ ""

/-- `text.replacingOccurrences(of: target, with: withString)`, in whole characters. -/
def replacingOccurrences (swift : Characters) (text target withString : String) : String :=
  String.ofList ((Lib.Replace.replace (swift.characters target) (swift.characters withString)
    (swift.characters text)).flatMap String.toList)

/-- Every Unicode scalar by itself, as Swift divides a text without combining marks. -/
def eachScalar : Characters where
  characters text := text.toList.map fun c => String.ofList [c]
  join text := by
    rw [List.flatMap_map]
    simp only [String.toList_ofList]
    exact List.flatMap_singleton' _
  ne_empty text character h := by
    obtain ⟨c, -, rfl⟩ := List.mem_map.mp h
    simp

end StringUtils
end KBucket
