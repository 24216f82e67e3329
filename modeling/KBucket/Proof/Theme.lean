import KBucket.View.SetBackColorView
import KBucket.View.ViewController
import Mathlib.Algebra.Order.Field.Rat
import Mathlib.Tactic.NormNum

/-!
# The colour of the theme

What a text of digits is read as depends on the number that the digits write, with `ff` behind
it: it is a colour if the number fits the width of `Int`, and then the same one for every width.
Six digits and the eight of `hexString` fit an `Int` of 64 bits and not always one of 32. The
alpha that `hexString` writes in front lies above the bits that are read, so what is stored reads
back as the colour it was, without its alpha and to the nearest of 256 levels below.

Components are converted through a `Float`, and which number that comes to is a parameter here
(`float`). The statements about what is read back hold for every rounding; only where a level is
said to be the component's own is nothing rounded (`exact`). The width is a parameter as well, and
not the platform's, since what is stored at one width may be compared with what is read at
another.
-/

namespace KBucket
namespace UIColor

open Lib

variable {w : Nat} {cs : List Char} {m : Nat}

/-! ## Reading -/

/-- The colour that a number stands for, by its four lowest bytes. -/
def ofNumber (n : Nat) : UIColor where
  red := (n / 2 ^ 24 % 256 : Nat) / 255
  green := (n / 2 ^ 16 % 256 : Nat) / 255
  blue := (n / 2 ^ 8 % 256 : Nat) / 255
  alpha := (n % 256 : Nat) / 255

theorem component_eq (hw : 8 ≤ w) {n : Nat} (hn : n < 2 ^ (w - 1)) (shift : Nat) :
    component w n shift = (n / 2 ^ shift % 256 : Nat) / 255 := by
  have hpow : 2 ^ w = 2 * 2 ^ (w - 1) := by
    rw [← Nat.pow_succ', Nat.succ_eq_add_one, Nat.sub_add_cancel (by omega)]
  have hval : (BitVec.ofInt w n).toNat = n := by
    rw [BitVec.ofInt_natCast, BitVec.toNat_ofNat]
    exact Nat.mod_eq_of_lt (by omega)
  have hmsb : (BitVec.ofInt w n).msb = false := by
    rw [BitVec.msb_eq_false_iff_two_mul_lt, hval]
    omega
  have hmask : (0xff#w).toNat = 2 ^ 8 - 1 := by
    rw [BitVec.toNat_ofNat]
    exact Nat.mod_eq_of_lt (Nat.lt_of_lt_of_le (by decide) (Nat.pow_le_pow_right (by decide) hw))
  rw [component, BitVec.toNat_and, BitVec.toNat_sshiftRight_of_msb_false hmsb, hval, hmask,
    Nat.and_two_pow_sub_one_eq_mod, Nat.shiftRight_eq_div_pow]

theorem filter_hash (h : Hex.read 0 cs = some m) : ('#' :: cs).filter (· ≠ '#') = cs := by
  have hcs : ∀ c ∈ cs, decide (c ≠ '#') = true := by
    intro c hc
    have hdigit := Hex.isSome_of_read h c hc
    rw [decide_eq_true_eq]
    rintro rfl
    exact absurd hdigit (by decide)
  rw [List.filter_cons_of_neg (by simp), List.filter_eq_self.mpr hcs]

/-- Digits have no sign in front. -/
theorem intOfHex?_eq (hne : cs ≠ []) (h : Hex.read 0 cs = some m) :
    intOfHex? w cs = if FitsWidth w m then some (m : Int) else none := by
  have hdigits := Hex.isSome_of_read h
  have hnumber : Hex.number? cs = some m := by rw [Hex.number?, if_neg hne, h]
  have hvalue : hexValue? cs = some (m : Int) := by
    unfold hexValue?
    split
    · exact absurd (hdigits '-' (List.mem_cons_self ..)) (by decide)
    · exact absurd (hdigits '+' (List.mem_cons_self ..)) (by decide)
    · rw [hnumber]
      rfl
  rw [intOfHex?, hvalue]
  rfl

theorem read_ff (h : Hex.read 0 cs = some m) :
    Hex.read 0 (cs ++ ['f', 'f']) = some (m * 256 + 255) := by
  rw [Hex.read_append, h, Option.bind_some, Hex.read_eq (m := 255) (by decide)]
  rfl

/-- **A text of digits is a colour if its number, with `ff` behind it, fits, and the width of `Int`
    matters for nothing else.** -/
theorem hexRGB_eq (hw : 8 ≤ w) (h : Hex.read 0 cs = some m) :
    hexRGB w (some (String.ofList ('#' :: cs))) =
      if m * 256 + 255 < 2 ^ (w - 1) then some (ofNumber (m * 256 + 255)) else none := by
  have hff := read_ff h
  have htext : (String.ofList ('#' :: cs) ++ "ff").toList.filter (· ≠ '#') = cs ++ ['f', 'f'] := by
    rw [String.toList_append, String.toList_ofList]
    exact filter_hash hff
  have hne : cs ++ ['f', 'f'] ≠ [] := by simp
  show (intOfHex? w _ >>= _) = _
  rw [htext, intOfHex?_eq hne hff]
  have hfits : FitsWidth w ((m * 256 + 255 : Nat) : Int) ↔ m * 256 + 255 < 2 ^ (w - 1) := by
    unfold FitsWidth
    have hpos : (0 : Int) < 2 ^ (w - 1) := Int.pow_pos (by decide)
    rw [← Int.ofNat_lt, Int.natCast_pow]
    constructor
    · intro h
      exact h.2
    · intro h
      exact ⟨by omega, h⟩
  by_cases hlt : m * 256 + 255 < 2 ^ (w - 1)
  · rw [if_pos (hfits.mpr hlt), if_pos hlt]
    show some (UIColor.mk _ _ _ _) = some (ofNumber _)
    rw [component_eq hw hlt, component_eq hw hlt, component_eq hw hlt, component_eq hw hlt]
    simp only [ofNumber, Nat.pow_zero, Nat.div_one]
  · rw [if_neg (fun h => hlt (hfits.mp h)), if_neg hlt]
    rfl

/-! ## The width of `Int` -/

/-- A colour as the app writes it: six digits, or the eight of `hexString`. -/
structure HexColor where
  digits : List Char
  hex : ∀ c ∈ digits, (Hex.value? c).isSome
  length : digits.length = 6 ∨ digits.length = 8

namespace HexColor

def text (c : HexColor) : String := String.ofList ('#' :: c.digits)

/-- The number that the digits write. -/
def number (c : HexColor) : Nat := (Hex.read 0 c.digits).getD 0

theorem read_digits (c : HexColor) : Hex.read 0 c.digits = some c.number := by
  obtain ⟨m, hm⟩ := Hex.exists_read c.hex 0
  rw [number, hm]
  rfl

theorem number_lt (c : HexColor) : c.number < 2 ^ 32 := by
  have hlt := Hex.read_lt c.read_digits
  rcases c.length with h | h <;> rw [h] at hlt <;> omega

end HexColor

/-- **A text of the app is one colour on every device exactly when its digits write a number below
    0x800000**; from there on a device of 32 bits has no colour for it.

    Of the text it is asked that it is one of the app's: six digits, or the eight of `hexString`. -/
theorem hexRGB_width_iff (c : HexColor) :
    (hexRGB 32 (some c.text)).isSome ∧ hexRGB 32 (some c.text) = hexRGB 64 (some c.text) ↔
      c.number < 0x800000 := by
  have hlt := c.number_lt
  have h32 := hexRGB_eq (w := 32) (by decide) c.read_digits
  have h64 := hexRGB_eq (w := 64) (by decide) c.read_digits
  rw [if_pos (by omega)] at h64
  show (hexRGB 32 (some (String.ofList _))).isSome ∧ hexRGB 32 (some (String.ofList _)) = _ ↔ _
  by_cases hsmall : c.number < 0x800000
  · rw [if_pos (by omega)] at h32
    rw [h32]
    exact iff_of_true ⟨rfl, h64.symm⟩ hsmall
  · rw [if_neg (by omega)] at h32
    rw [h32]
    exact iff_of_false (fun h => by cases h.1) hsmall

/-- The default colour of the main screen. -/
def FFE452 : HexColor where
  digits := ['F', 'F', 'E', '4', '5', '2']
  hex := List.all_eq_true.mp rfl
  length := .inl rfl

theorem default_has_no_colour :
    (¬ ∀ c : HexColor, (hexRGB 32 (some c.text)).isSome ∧
      hexRGB 32 (some c.text) = hexRGB 64 (some c.text)) ∧
    hexRGB 32 (some "#FFE452") = none ∧
    hexRGB 64 (some "#FFE452") = some (ofNumber 0xFFE452FF) := by
  have hread : Hex.read 0 FFE452.digits = some 0xFFE452 := by decide
  have htext : "#FFE452" = String.ofList ('#' :: FFE452.digits) := rfl
  have h32 : hexRGB 32 (some FFE452.text) = none := by
    rw [HexColor.text, hexRGB_eq (by decide) hread, if_neg (by decide)]
  have h64 : hexRGB 64 (some FFE452.text) = some (ofNumber 0xFFE452FF) := by
    rw [HexColor.text, hexRGB_eq (by decide) hread, if_pos (by decide)]
  rw [htext]
  refine ⟨fun h => ?_, h32, h64⟩
  have hsome := (h FFE452).1
  rw [h32] at hsome
  cases hsome

/-! ## Storing a colour -/

/-- One of the 256 levels: what is below or above them is taken for the lowest or the highest. -/
def bounded (x : Rat) : Int := max 0 (min (trunc x) 255)

/-- The level of a component whose product is not rounded. -/
def clamp (x : Rat) : Int := max 0 (min (trunc (255 * x)) 255)

theorem bounded_bounds (x : Rat) : 0 ≤ bounded x ∧ bounded x < 256 := by
  unfold bounded
  omega

theorem bounded_toNat_lt (x : Rat) : (bounded x).toNat < 256 := by
  have h := bounded_bounds x
  omega

theorem exact_eq (x : Rat) : exact x = 255 * x := mul_comm x 255

theorem bounded_exact (x : Rat) : bounded (exact x) = clamp x := by
  rw [exact_eq]
  rfl

theorem clamp_bounds (x : Rat) : 0 ≤ clamp x ∧ clamp x < 256 := by
  rw [← bounded_exact]
  exact bounded_bounds _

variable {float : Rat → Rat}

theorem level_eq (x : Rat) : level float w x =
    if FitsWidth w (trunc (float x)) then .ok (bounded (float x))
    else .error .notRepresentable := by
  unfold level toInt bounded
  by_cases hfits : FitsWidth w (trunc (float x))
  · simp only [if_pos hfits, ok_bind]
    split
    · next h => exact congrArg Except.ok (by omega)
    · split
      · next h => exact congrArg Except.ok (by omega)
      · next h => exact congrArg Except.ok (by omega)
  · simp only [if_neg hfits, error_bind]

/-- The number that `hexString` writes, the alpha above the rest. -/
def written (float : Rat → Rat) (c : UIColor) : Nat :=
  (((bounded (float c.alpha)).toNat * 256 + (bounded (float c.red)).toNat) * 256
    + (bounded (float c.green)).toNat) * 256 + (bounded (float c.blue)).toNat

/-- The components come to numbers that can be converted. -/
def Converts (float : Rat → Rat) (w : Nat) (c : UIColor) : Prop :=
  ∀ x ∈ [c.red, c.green, c.blue, c.alpha], FitsWidth w (trunc (float x))

/-- The same, where nothing is rounded. -/
def Representable (w : Nat) (c : UIColor) : Prop :=
  ∀ x ∈ [c.red, c.green, c.blue, c.alpha], FitsWidth w (trunc (255 * x))

theorem converts_exact_iff {c : UIColor} : Converts exact w c ↔ Representable w c := by
  unfold Converts Representable
  simp only [exact_eq]

/-- What `hexString` writes behind the `#`. -/
def digits (float : Rat → Rat) (c : UIColor) : List Char :=
  format02X (bounded (float c.alpha)) ++ format02X (bounded (float c.red))
    ++ format02X (bounded (float c.green)) ++ format02X (bounded (float c.blue))

theorem level_eq_ok {x : Rat} {n : Int} : level float w x = .ok n ↔
    FitsWidth w (trunc (float x)) ∧ n = bounded (float x) := by
  rw [level_eq]
  split
  · next h => simp [h, eq_comm]
  · next h => simp [h]

/-- A colour is written when every component of it can be converted. -/
theorem hexString_eq_ok {c : UIColor} {text : String} : hexString float w c = .ok text ↔
    Converts float w c ∧ text = String.ofList ('#' :: digits float c) := by
  unfold hexString Converts
  simp only [List.forall_mem_cons, List.not_mem_nil, false_implies, implies_true, and_true]
  constructor
  · intro h
    obtain ⟨rr, hr, h⟩ := bind_eq_ok.mp h
    obtain ⟨gg, hg, h⟩ := bind_eq_ok.mp h
    obtain ⟨bb, hb, h⟩ := bind_eq_ok.mp h
    obtain ⟨aa, ha, h⟩ := bind_eq_ok.mp h
    rw [level_eq_ok] at hr hg hb ha
    obtain ⟨hr, rfl⟩ := hr
    obtain ⟨hg, rfl⟩ := hg
    obtain ⟨hb, rfl⟩ := hb
    obtain ⟨ha, rfl⟩ := ha
    have htext := Except.ok.inj h
    exact ⟨⟨hr, hg, hb, ha⟩, htext.symm⟩
  · intro h
    obtain ⟨⟨hr, hg, hb, ha⟩, rfl⟩ := h
    rw [level_eq_ok.mpr ⟨hr, rfl⟩, level_eq_ok.mpr ⟨hg, rfl⟩, level_eq_ok.mpr ⟨hb, rfl⟩,
      level_eq_ok.mpr ⟨ha, rfl⟩]
    rfl

theorem read_written (c : UIColor) : Hex.read 0 (digits float c) = some (written float c) := by
  have halpha := Hex.read_pad 2 (bounded (float c.alpha)).toNat
  have hred := Hex.read_append_pad halpha Nat.two_pos (bounded_toNat_lt (float c.red))
  have hgreen := Hex.read_append_pad hred Nat.two_pos (bounded_toNat_lt (float c.green))
  exact Hex.read_append_pad hgreen Nat.two_pos (bounded_toNat_lt (float c.blue))

theorem length_digits (c : UIColor) : (digits float c).length = 8 := by
  have hpad : ∀ x : Rat, (format02X (bounded (float x))).length = 2 := fun x =>
    Hex.length_pad Nat.two_pos (bounded_toNat_lt (float x))
  simp only [digits, List.length_append, hpad]

/-- What `hexString` writes, as a colour of the app. -/
def stored (float : Rat → Rat) (c : UIColor) : HexColor where
  digits := digits float c
  hex := Hex.isSome_of_read (read_written c)
  length := .inr (length_digits c)

theorem number_stored (c : UIColor) : (stored float c).number = written float c := by
  show (Hex.read 0 (digits float c)).getD 0 = _
  rw [read_written]
  rfl

/-- The colour on its levels: three components, and no transparency. -/
def onLevels (float : Rat → Rat) (c : UIColor) : UIColor where
  red := bounded (float c.red) / 255
  green := bounded (float c.green) / 255
  blue := bounded (float c.blue) / 255
  alpha := 1

/-- The colour of a theme, where nothing is rounded. -/
def theme (c : UIColor) : UIColor where
  red := clamp c.red / 255
  green := clamp c.green / 255
  blue := clamp c.blue / 255
  alpha := 1

theorem onLevels_exact (c : UIColor) : onLevels exact c = theme c := by
  simp only [onLevels, theme, bounded_exact]

theorem cast_bounded (x : Rat) : (((bounded x).toNat : Nat) : Rat) = (bounded x : Rat) := by
  have hnat : (((bounded x).toNat : Nat) : Int) = bounded x :=
    Int.toNat_of_nonneg (bounded_bounds x).1
  rw [← Int.cast_natCast, hnat]

/-- The bytes that are read are those of the three components, and `ff`. -/
theorem ofNumber_written (c : UIColor) :
    ofNumber (written float c * 256 + 255) = onLevels float c := by
  have hred := bounded_toNat_lt (float c.red)
  have hgreen := bounded_toNat_lt (float c.green)
  have hblue := bounded_toNat_lt (float c.blue)
  have hbytes : (written float c * 256 + 255) / 2 ^ 24 % 256 = (bounded (float c.red)).toNat ∧
      (written float c * 256 + 255) / 2 ^ 16 % 256 = (bounded (float c.green)).toNat ∧
      (written float c * 256 + 255) / 2 ^ 8 % 256 = (bounded (float c.blue)).toNat ∧
      (written float c * 256 + 255) % 256 = 255 := by
    unfold written
    omega
  have hone : ((255 : Nat) : Rat) / 255 = 1 := by norm_num
  rw [ofNumber, hbytes.1, hbytes.2.1, hbytes.2.2.1, hbytes.2.2.2, cast_bounded, cast_bounded,
    cast_bounded, hone]
  rfl

/-- **What is stored reads back as the colour on its levels.** -/
theorem hexRGB_digits (c : UIColor) :
    hexRGB 64 (some (String.ofList ('#' :: digits float c))) = some (onLevels float c) := by
  have hlt : written float c * 256 + 255 < 2 ^ 63 := by
    have h := (stored float c).number_lt
    rw [number_stored] at h
    omega
  rw [hexRGB_eq (by decide) (read_written c), if_pos hlt, ofNumber_written]

/-! ## A colour on its levels -/

theorem trunc_intCast (n : Int) : trunc (n : Rat) = n := by
  rw [trunc, Rat.num_intCast, Rat.den_intCast]
  exact Int.tdiv_one n

/-- A level is a number of 255ths. -/
theorem trunc_level (n : Int) : trunc (255 * ((n : Rat) / 255)) = n := by
  have hmul : 255 * ((n : Rat) / 255) = n := by
    rw [← mul_div_assoc]
    exact mul_div_cancel_left₀ _ (by norm_num)
  rw [hmul, trunc_intCast]

theorem clamp_level {n : Int} (h0 : 0 ≤ n) (h1 : n < 256) : clamp ((n : Rat) / 255) = n := by
  rw [clamp, trunc_level]
  omega

theorem fitsWidth_level {n : Int} (h0 : 0 ≤ n) (h1 : n < 256) :
    FitsWidth 64 (trunc (255 * ((n : Rat) / 255))) := by
  rw [trunc_level]
  unfold FitsWidth
  omega

theorem representable_theme (c : UIColor) : Representable 64 (theme c) := by
  have hlevel : ∀ x : Rat, FitsWidth 64 (trunc (255 * ((clamp x : Rat) / 255))) := fun x =>
    fitsWidth_level (clamp_bounds x).1 (clamp_bounds x).2
  have hone : (1 : Rat) = ((255 : Int) : Rat) / 255 := by norm_num
  intro x hx
  simp only [theme, List.mem_cons, List.not_mem_nil, or_false] at hx
  rcases hx with rfl | rfl | rfl | rfl
  · exact hlevel _
  · exact hlevel _
  · exact hlevel _
  · rw [hone]
    exact fitsWidth_level (by decide) (by decide)

theorem theme_theme (c : UIColor) : theme (theme c) = theme c := by
  have hlevel : ∀ x : Rat, clamp ((clamp x : Rat) / 255) = clamp x := fun x =>
    clamp_level (clamp_bounds x).1 (clamp_bounds x).2
  simp only [theme, hlevel]

/-- The colour `c` is stored, and `c'` is what a screen reads back. -/
def ReadsBack (w : Nat) (c c' : UIColor) : Prop :=
  ∃ text, hexString exact w c = .ok text ∧ hexRGB w (some text) = some c'

theorem readsBack_iff {c c' : UIColor} : ReadsBack 64 c c' ↔ Representable 64 c ∧ c' = theme c := by
  rw [← converts_exact_iff, ← onLevels_exact]
  constructor
  · intro h
    obtain ⟨text, htext, hread⟩ := h
    obtain ⟨hrep, rfl⟩ := hexString_eq_ok.mp htext
    rw [hexRGB_digits] at hread
    exact ⟨hrep, (Option.some.inj hread).symm⟩
  · intro h
    obtain ⟨hrep, rfl⟩ := h
    exact ⟨_, hexString_eq_ok.mpr ⟨hrep, rfl⟩, hexRGB_digits c⟩

/-- **A colour survives storage exactly when its components can be converted**: it is read back
    with each component on its level and without transparency, and the colour that is read back
    survives unchanged.

    Nothing is rounded on the way to a level here (`exact`), and an `Int` has 64 bits. That the
    components may lie outside of the levels is allowed for. -/
theorem theme_survives_iff (c : UIColor) :
    (∃ c', ReadsBack 64 c c' ∧ c'.red = clamp c.red / 255 ∧ c'.green = clamp c.green / 255 ∧
      c'.blue = clamp c.blue / 255 ∧ c'.alpha = 1 ∧ ReadsBack 64 c' c') ↔
    Representable 64 c := by
  constructor
  · intro h
    obtain ⟨c', hback, -⟩ := h
    exact (readsBack_iff.mp hback).1
  · intro hrep
    refine ⟨theme c, readsBack_iff.mpr ⟨hrep, rfl⟩, rfl, rfl, rfl, rfl, ?_⟩
    exact readsBack_iff.mpr ⟨representable_theme c, (theme_theme c).symm⟩

/-- A red so bright that its level is no `Int`. -/
theorem bright_red_traps :
    (¬ ∀ c : UIColor, ∃ c', ReadsBack 64 c c' ∧ c'.red = clamp c.red / 255 ∧
      c'.green = clamp c.green / 255 ∧ c'.blue = clamp c.blue / 255 ∧ c'.alpha = 1 ∧
      ReadsBack 64 c' c') ∧
    hexString exact 64 ⟨2 ^ 60, 0, 0, 1⟩ = .error .notRepresentable := by
  have hmul : 255 * (2 : Rat) ^ 60 = ((255 * 2 ^ 60 : Int) : Rat) := by norm_num
  have hfits : ¬ FitsWidth 64 (trunc (255 * (2 : Rat) ^ 60)) := by
    rw [hmul, trunc_intCast]
    decide
  constructor
  · intro h
    obtain ⟨c', hback, -⟩ := h ⟨2 ^ 60, 0, 0, 1⟩
    exact hfits ((readsBack_iff.mp hback).1 _ (List.mem_cons_self ..))
  · rw [hexString, level_eq, exact_eq, if_neg hfits]
    rfl

end UIColor

/-! ## The screens -/

namespace SetBackColorView

/-- A button that is pressed stores its colour, and the screen takes the one that reads back. -/
theorem onClick_readsBack {w : Nat} {v : SetBackColorView} {sender : Fin 18} {c c' : UIColor}
    (hsender : v.backgroundColor sender = some c) (hback : UIColor.ReadsBack w c c') :
    ∃ v', onClick UIColor.exact w v sender = .ok v' ∧ v'.backView = some c' ∧
      UIColor.hexRGB w (UserDefault.read v'.defaults ContextUtils.BACK_MEMO) = some c' := by
  obtain ⟨text, htext, hread⟩ := hback
  have hlen : text.length > 0 := by
    obtain ⟨-, rfl⟩ := UIColor.hexString_eq_ok.mp htext
    rw [String.length_ofList]
    exact Nat.zero_lt_succ _
  have hclick : onClick UIColor.exact w v sender = .ok (setBackgroundColor w (checkButton { v with
      defaults := UserDefault.write v.defaults ContextUtils.BACK_MEMO text } sender)) := by
    rw [onClick, hsender]
    show (c.hexString UIColor.exact w >>= _) = _
    rw [htext]
    rfl
  have hstored : UserDefault.read (UserDefault.write v.defaults ContextUtils.BACK_MEMO text)
      ContextUtils.BACK_MEMO = text := UserDefault.read_write _ _ _
  refine ⟨_, hclick, ?_, ?_⟩
  · unfold setBackgroundColor checkButton
    simp only [hstored, if_pos hlen]
    exact hread
  · unfold setBackgroundColor checkButton
    simp only [hstored, if_pos hlen]
    exact hread

end SetBackColorView

namespace ViewController

/-- On a device where no colour is stored, the main screen has a background if its `Int` is wide
    enough. -/
theorem setBackgroundColor_first {w : Nat} {v : ViewController} (hw : 8 ≤ w)
    (hnone : UserDefault.read v.defaults ContextUtils.BACK_MEMO = "") :
    (setBackgroundColor w v).2
      = if 0xFFE452FF < 2 ^ (w - 1) then some (UIColor.ofNumber 0xFFE452FF) else none := by
  have hread : Lib.Hex.read 0 UIColor.FFE452.digits = some 0xFFE452 := by decide
  unfold setBackgroundColor
  rw [hnone]
  exact UIColor.hexRGB_eq hw hread

end ViewController
end KBucket
