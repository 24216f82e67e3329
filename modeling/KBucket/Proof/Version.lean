import KBucket.Lib.Version
import KBucket.View.ViewController
import Mathlib.Algebra.Ring.Int.Defs

/-!
# The version check

Of two version texts whose components are numbers, `compareVersion` says what the order on
versions (`Lib.versionOrder`) says where both have the same number of components, and 1 where they
have not: there it is right only by chance. A component that is no number ends the process.

The order is the library's, where it is defined without a word about texts; `Reads` connects the
two. An `Int` is as wide as that of the platform, which is all that a component can be too large
for, and the results hold on either. The main screen is in both of them because it is where the
comparison is used: what it offers, and whether it survives.
-/

namespace KBucket

open Lib

/-! ## Which texts are numbers -/

/-- An optional sign and digits, of a value that fits. -/
def IntText [Platform] (text : String) : Prop :=
  ∃ sign digits : List Char, text.toList = sign ++ digits ∧ sign ∈ [[], ['+'], ['-']] ∧
    digits ≠ [] ∧ (∀ c ∈ digits, c.isDigit = true) ∧
    FitsInt (if sign = ['-'] then -(Nat.ofDigitChars 10 digits 0 : Int)
      else Nat.ofDigitChars 10 digits 0)

theorem digits?_eq_some {cs : List Char} {n : Nat} :
    digits? cs = some n ↔
      cs ≠ [] ∧ (∀ c ∈ cs, c.isDigit = true) ∧ Nat.ofDigitChars 10 cs 0 = n := by
  unfold digits?
  split
  · next h =>
    rw [Option.some.injEq]
    exact ⟨fun hn => ⟨h.1, List.all_eq_true.mp h.2, hn⟩, fun hn => hn.2.2⟩
  · next h =>
    constructor
    · intro hn; cases hn
    · intro hn
      exact absurd ⟨hn.1, List.all_eq_true.mpr hn.2.1⟩ h

theorem intOfString?_eq_some [Platform] {text : String} {i : Int} :
    intOfString? text = some i ↔ intValue? text = some i ∧ FitsInt i := by
  rw [intOfString?, Option.bind_eq_some_iff]
  constructor
  · intro h
    obtain ⟨j, hj, h⟩ := h
    split at h
    · next hfits => cases h; exact ⟨hj, hfits⟩
    · cases h
  · intro h
    exact ⟨i, h.1, if_pos h.2⟩

theorem isSome_intOfString?_iff [Platform] {text : String} :
    (intOfString? text).isSome ↔ IntText text := by
  rw [Option.isSome_iff_exists]
  constructor
  · intro h
    obtain ⟨i, h⟩ := h
    obtain ⟨hvalue, hfits⟩ := intOfString?_eq_some.mp h
    -- As the text starts with either sign or with none.
    unfold intValue? at hvalue
    split at hvalue
    · next cs htext =>
      cases hn : digits? cs with
      | none => rw [hn] at hvalue; cases hvalue
      | some n =>
        rw [hn] at hvalue
        cases hvalue
        obtain ⟨hne, hdigits, rfl⟩ := digits?_eq_some.mp hn
        exact ⟨['-'], cs, htext, by simp, hne, hdigits, by simpa using hfits⟩
    · next cs htext =>
      obtain ⟨n, hn, rfl⟩ := Option.map_eq_some_iff.mp hvalue
      obtain ⟨hne, hdigits, rfl⟩ := digits?_eq_some.mp hn
      exact ⟨['+'], cs, htext, by simp, hne, hdigits, by simpa using hfits⟩
    · obtain ⟨n, hn, rfl⟩ := Option.map_eq_some_iff.mp hvalue
      obtain ⟨hne, hdigits, rfl⟩ := digits?_eq_some.mp hn
      exact ⟨[], text.toList, rfl, by simp, hne, hdigits, by simpa using hfits⟩
  · intro h
    obtain ⟨sign, digits, htext, hsign, hne, hdigits, hfits⟩ := h
    have hn := digits?_eq_some.mpr ⟨hne, hdigits, rfl⟩
    refine ⟨_, intOfString?_eq_some.mpr ⟨?_, hfits⟩⟩
    simp only [List.mem_cons, List.not_mem_nil, or_false] at hsign
    rcases hsign with rfl | rfl | rfl
    · -- The first character is a digit, so no sign is read.
      unfold intValue?
      split
      · next cs hcs =>
        rw [htext, List.nil_append] at hcs
        exact absurd (hdigits '-' (by simp [hcs])) (by decide)
      · next cs hcs =>
        rw [htext, List.nil_append] at hcs
        exact absurd (hdigits '+' (by simp [hcs])) (by decide)
      · rw [htext, List.nil_append, hn]
        rfl
    · rw [intValue?, htext]
      simp [hn]
    · rw [intValue?, htext]
      simp [hn]

/-! ## What `compareVersion` computes -/

namespace StringUtils

variable {src new : String} {a b : List Int}

/-- The components of the text are the numbers `xs`. -/
def Reads [Platform] (text : String) (xs : List Int) : Prop :=
  (components text).map intOfString? = xs.map some

theorem getIntegrArrayFromStringArray_eq_ok [Platform] {arr : List String} {xs : List Int} :
    getIntegrArrayFromStringArray arr = .ok xs ↔ arr.map intOfString? = xs.map some := by
  rw [getIntegrArrayFromStringArray, mapM_eq_ok]
  constructor
  · intro h
    induction h with
    | nil => rfl
    | cons hx _ ih =>
      rw [List.map_cons, List.map_cons, ih, unwrap_eq_ok.mp hx]
  · intro h
    induction arr generalizing xs with
    | nil =>
      obtain rfl : xs = [] := by simpa using h.symm
      exact .nil
    | cons str arr ih =>
      cases xs with
      | nil => cases h
      | cons x xs =>
        obtain ⟨hx, hxs⟩ := List.cons.inj h
        exact .cons (unwrap_eq_ok.mpr hx) (ih hxs)

theorem exists_numbers [Platform] {arr : List String} (h : ∀ str ∈ arr, IntText str) :
    ∃ xs : List Int, arr.map intOfString? = xs.map some := by
  induction arr with
  | nil => exact ⟨[], rfl⟩
  | cons str arr ih =>
    obtain ⟨xs, hxs⟩ := ih fun s hs => h s (List.mem_cons_of_mem _ hs)
    have hstr := isSome_intOfString?_iff.mpr (h str List.mem_cons_self)
    obtain ⟨x, hx⟩ := Option.isSome_iff_exists.mp hstr
    exact ⟨x :: xs, by rw [List.map_cons, List.map_cons, hx, hxs]⟩

/-- The loop compares what is left of either list. -/
theorem compareAt_eq (hlen : a.length = b.length) (n : Nat) {k : Nat} (hk : a.length = k + n) :
    compareAt a b (List.range' k n) = .ok (versionOrder (a.drop k) (b.drop k)) := by
  -- On the turns that are left, of which the last finds nothing to compare.
  induction n generalizing k with
  | zero =>
    rw [List.drop_of_length_le (by omega), List.drop_of_length_le (by omega),
      versionOrder_eq_zero.mpr rfl]
    rfl
  | succ n ih =>
    have ha : k < a.length := by omega
    have hb : k < b.length := by omega
    rw [List.range'_succ, compareAt, arrayGet_ofNat hb, arrayGet_ofNat ha,
      List.drop_eq_getElem_cons ha, List.drop_eq_getElem_cons hb, versionOrder_cons, ok_bind,
      ok_bind]
    split
    · rfl
    · split
      · rfl
      · exact ih (by omega)

theorem compareVersion_eq [Platform] (hsrc : Reads src a) (hnew : Reads new b) :
    compareVersion src new = .ok (if a.length = b.length then versionOrder a b else 1) := by
  rw [compareVersion, getIntegrArrayFromStringArray_eq_ok.mpr hsrc,
    getIntegrArrayFromStringArray_eq_ok.mpr hnew, ok_bind, ok_bind]
  by_cases hlen : a.length = b.length
  · rw [if_neg (not_not.mpr hlen), if_pos hlen, List.range_eq_range',
      compareAt_eq hlen a.length (Nat.zero_add _).symm]
    rfl
  · rw [if_pos hlen, if_neg hlen]
    rfl

/-- A text with a number in it is not empty. -/
theorem Reads.length_pos [Platform] (hnew : Reads new b) : new.length > 0 := by
  by_contra hlen
  obtain rfl : new = "" := by simpa using hlen
  have hcomponents : components "" = [""] := by decide
  rw [Reads, hcomponents] at hnew
  cases b with
  | nil => cases hnew
  | cons x xs => cases (List.cons.inj hnew).1

/-- Both directions agree exactly on texts of one length. -/
theorem compareVersion_swap_iff [Platform] (hsrc : Reads src a) (hnew : Reads new b) :
    (∃ order, compareVersion src new = .ok order ∧ compareVersion new src = .ok (-order)) ↔
      a.length = b.length := by
  rw [compareVersion_eq hsrc hnew, compareVersion_eq hnew hsrc]
  constructor
  · intro h
    obtain ⟨order, h, hswap⟩ := h
    -- Of texts of two lengths, either is later than the other.
    by_contra hlen
    rw [if_neg hlen] at h
    rw [if_neg (Ne.symm hlen)] at hswap
    cases h
    cases hswap
  · intro hlen
    rw [if_pos hlen, if_pos hlen.symm]
    exact ⟨versionOrder a b, rfl, by rw [← versionOrder_swap]⟩

theorem compareVersion_eq_order_iff [Platform] (hsrc : Reads src a) (hnew : Reads new b) :
    compareVersion src new = .ok (versionOrder a b) ↔ a.length = b.length ∨ Later a b := by
  rw [compareVersion_eq hsrc hnew]
  by_cases hlen : a.length = b.length
  · simp [hlen]
  · rw [if_neg hlen, Except.ok.injEq, eq_comm, versionOrder_eq_one]
    simp [hlen]

theorem compareVersion_later_iff [Platform] (hsrc : Reads src a) (hnew : Reads new b) :
    compareVersion src new = .ok 1 ↔ a.length ≠ b.length ∨ Later a b := by
  rw [compareVersion_eq hsrc hnew]
  by_cases hlen : a.length = b.length
  · rw [if_pos hlen, Except.ok.injEq, versionOrder_eq_one]
    simp [hlen]
  · simp [hlen]

/-- A third text upsets the order exactly when it stands between two of another length. -/
theorem compareVersion_trans_iff [Platform] {third : String} {c : List Int} (hsrc : Reads src a)
    (hnew : Reads new b) (hthird : Reads third c) :
    (compareVersion src new = .ok 1 → compareVersion new third = .ok 1 →
        compareVersion src third = .ok 1) ↔
      (a.length = c.length → a.length ≠ b.length → Later a c) := by
  rw [compareVersion_later_iff hsrc hnew, compareVersion_later_iff hnew hthird,
    compareVersion_later_iff hsrc hthird]
  constructor
  · intro htrans hac hab
    rcases htrans (Or.inl hab) (Or.inl fun hbc => hab (hac.trans hbc.symm)) with h | h
    · exact absurd hac h
    · exact h
  · intro hbetween hab hbc
    by_cases hac : a.length = c.length
    · -- The one between has their length too, or is later than the first by its length alone.
      by_cases hlen : a.length = b.length
      · have hlen' : b.length = c.length := hlen.symm.trans hac
        exact Or.inr ((hab.resolve_left (not_not.mpr hlen)).trans
          (hbc.resolve_left (not_not.mpr hlen')))
      · exact Or.inr (hbetween hac hlen)
    · exact Or.inl hac

end StringUtils

/-! ## The update that the main screen offers -/

namespace ViewController

open StringUtils

def running : List Int := [2, 0, 3]

theorem intOfString?_small [Platform] {text : String} {n : Nat} (hvalue : intValue? text = some n)
    (hn : n < 256) : intOfString? text = some n :=
  intOfString?_eq_some.mpr ⟨hvalue, fitsInt_of_lt (Int.natCast_nonneg n) (by omega)⟩

theorem reads_running [Platform] : Reads ContextUtils.VERSION_NAME running := by
  have hcomponents : components ContextUtils.VERSION_NAME = ["2", "0", "03"] := by decide
  have h2 : intOfString? "2" = some 2 := intOfString?_small (n := 2) (by decide) (by decide)
  have h0 : intOfString? "0" = some 0 := intOfString?_small (n := 0) (by decide) (by decide)
  have h3 : intOfString? "03" = some 3 := intOfString?_small (n := 3) (by decide) (by decide)
  rw [Reads, hcomponents, List.map_cons, List.map_cons, List.map_cons, h2, h0, h3]
  rfl

/-- The screen has asked the user to update. -/
def Offers (v t : ViewController) : Prop :=
  ∃ popup, t.popups = v.popups ++ [popup]

theorem onHttpReceive_version [Platform] {v : ViewController} {fields : List (String × Json)}
    {versionName forceYN : String} (hname : fields.lookup "versionName" = some (.str versionName))
    (hforce : fields.lookup "forceYN" = some (.str forceYN)) :
    v.onHttpReceive ConstHTTP.HTTP_OK ConstHTTP.UPDATE_VERSION (some (.obj fields)) =
      v.checkVersion versionName forceYN := by
  have hpos : fields.length > 0 := by
    cases fields with
    | nil => cases hname
    | cons field fields => simp
  rw [onHttpReceive, if_neg (by decide), if_neg (by decide), if_pos rfl, if_pos rfl]
  simp only [hpos, if_true, hname, hforce, Json.asString, ok_bind]

/-- **An update is offered exactly where the comparison says so.** -/
theorem offers_iff [Platform] {v t : ViewController} {versionName forceYN : String} {order : Int}
    (hpos : versionName.length > 0)
    (horder : compareVersion ContextUtils.VERSION_NAME versionName = .ok order)
    (ht : v.checkVersion versionName forceYN = .ok t) : Offers v t ↔ 0 < order := by
  rw [checkVersion, if_pos hpos, horder, ok_bind] at ht
  by_cases hlater : order > 0
  · rw [if_pos hlater] at ht
    refine ⟨fun _ => hlater, fun _ => ?_⟩
    split at ht
    · cases ht
      exact ⟨_, rfl⟩
    · cases ht
      exact ⟨_, rfl⟩
  · rw [if_neg hlater] at ht
    cases ht
    refine ⟨fun hoffer => ?_, fun hpos => absurd hpos hlater⟩
    obtain ⟨popup, hpopup⟩ := hoffer
    simp [handleMessage, toast] at hpopup

theorem checkVersion_returns_iff [Platform] {v : ViewController} {versionName forceYN : String}
    (hpos : versionName.length > 0) :
    (∃ t, v.checkVersion versionName forceYN = .ok t) ↔
      ∃ order, compareVersion ContextUtils.VERSION_NAME versionName = .ok order := by
  rw [checkVersion, if_pos hpos]
  constructor
  · intro h
    obtain ⟨t, ht⟩ := h
    obtain ⟨order, horder, -⟩ := bind_eq_ok.mp ht
    exact ⟨order, horder⟩
  · intro h
    obtain ⟨order, horder⟩ := h
    rw [horder, ok_bind]
    split
    · split
      · exact ⟨_, rfl⟩
      · exact ⟨_, rfl⟩
    · exact ⟨_, rfl⟩

theorem offers_later_iff [Platform] {v : ViewController} {versionName forceYN : String}
    {b : List Int} (hnew : Reads versionName b) :
    (∀ t, v.checkVersion versionName forceYN = .ok t → Offers v t → Later running b) ↔
      running.length = b.length ∨ Later running b := by
  have horder := compareVersion_eq reads_running hnew
  constructor
  · intro honly
    -- An offer that only the lengths explain.
    by_contra hnot
    rw [not_or] at hnot
    rw [if_neg hnot.1] at horder
    have hreturns : ∃ t, v.checkVersion versionName forceYN = .ok t :=
      (checkVersion_returns_iff hnew.length_pos).mpr ⟨1, horder⟩
    obtain ⟨t, ht⟩ := hreturns
    exact hnot.2 (honly t ht ((offers_iff hnew.length_pos horder ht).mpr (by decide)))
  · intro hcond t ht hoffer
    rcases hcond with hlen | hlater
    · rw [if_pos hlen] at horder
      exact versionOrder_pos.mp ((offers_iff hnew.length_pos horder ht).mp hoffer)
    · exact hlater

end ViewController

namespace StringUtils

/-- **`compareVersion` is the order on versions exactly as far as the numbers of components
    agree**: for the comparison itself, for the two directions of it, for three texts in a row,
    and for the update that the main screen offers.

    `hsrc` and `hnew` say that the texts have numbers for components, since `compareVersion` ends
    the process on others (`compareVersion_returns_iff`). -/
theorem compareVersion_order_iff [Platform] {src new : String} {a b : List Int} (hsrc : Reads src a)
    (hnew : Reads new b) :
    (compareVersion src new = .ok (versionOrder a b) ↔ a.length = b.length ∨ Later a b) ∧
    ((∃ order, compareVersion src new = .ok order ∧ compareVersion new src = .ok (-order)) ↔
      a.length = b.length) ∧
    (∀ third c, Reads third c →
      ((compareVersion src new = .ok 1 → compareVersion new third = .ok 1 →
          compareVersion src third = .ok 1) ↔
        (a.length = c.length → a.length ≠ b.length → Later a c))) ∧
    ∀ (v : ViewController) (fields : List (String × Json)) (forceYN : String),
      fields.lookup "versionName" = some (.str new) →
      fields.lookup "forceYN" = some (.str forceYN) →
      ((∀ t,
          v.onHttpReceive ConstHTTP.HTTP_OK ConstHTTP.UPDATE_VERSION (some (.obj fields)) = .ok t →
          ViewController.Offers v t → Later ViewController.running b) ↔
        ViewController.running.length = b.length ∨ Later ViewController.running b) := by
  refine ⟨?_, ?_, ?_, ?_⟩
  · exact compareVersion_eq_order_iff hsrc hnew
  · exact compareVersion_swap_iff hsrc hnew
  · intro third c hthird
    exact compareVersion_trans_iff hsrc hnew hthird
  · intro v fields forceYN hname hforce
    rw [ViewController.onHttpReceive_version hname hforce]
    exact ViewController.offers_later_iff hnew

/-- A third component that is written: the texts have the same length, and the order is found. -/
theorem compareVersion_order_iff_patch :
    compareVersion "2.0.03" "2.0.4" = .ok (versionOrder ([2, 0, 3] : List Int) [2, 0, 4]) :=
  have hrunning : Reads "2.0.03" [2, 0, 3] := by unfold Reads; decide
  have hpatched : Reads "2.0.4" [2, 0, 4] := by unfold Reads; decide
  (compareVersion_order_iff hrunning hpatched).1.mpr (Or.inl rfl)

/-- 2.0 is the earlier version, and is taken for the later one. -/
theorem compareVersion_shorter :
    compareVersion "2.0.1" "2.0" = .ok 1 ∧ versionOrder ([2, 0, 1] : List Int) [2, 0] = -1 := by
  refine ⟨by decide, versionOrder_of_earlier ?_⟩
  refine later_cons_iff.mpr (Or.inr ⟨rfl, later_cons_iff.mpr (Or.inr ⟨rfl, ?_⟩)⟩)
  exact ⟨0, fun j hj => absurd hj (Nat.not_lt_zero j), by decide⟩

/-- **The version check survives exactly the texts whose components are all numbers**, and the
    main screen with it.

    The fields of the answer are there because the handler reads them before it compares, and an
    empty version is not compared. -/
theorem compareVersion_returns_iff [Platform] (versionName : String) :
    ((∃ order, compareVersion ContextUtils.VERSION_NAME versionName = .ok order) ↔
      ∀ str ∈ components versionName, IntText str) ∧
    ∀ (v : ViewController) (fields : List (String × Json)) (forceYN : String), versionName ≠ "" →
      fields.lookup "versionName" = some (.str versionName) →
      fields.lookup "forceYN" = some (.str forceYN) →
      ((∃ t,
          v.onHttpReceive ConstHTTP.HTTP_OK ConstHTTP.UPDATE_VERSION (some (.obj fields)) = .ok t) ↔
        ∀ str ∈ components versionName, IntText str) := by
  have hiff : (∃ order, compareVersion ContextUtils.VERSION_NAME versionName = .ok order) ↔
      ∀ str ∈ components versionName, IntText str := by
    constructor
    · intro h str hstr
      obtain ⟨order, horder⟩ := h
      obtain ⟨xs, -, horder⟩ := bind_eq_ok.mp horder
      obtain ⟨ys, hys, -⟩ := bind_eq_ok.mp horder
      rw [getIntegrArrayFromStringArray_eq_ok] at hys
      -- Every component has been read, the one in question with them.
      have hmem := List.mem_map_of_mem (f := intOfString?) hstr
      rw [hys] at hmem
      obtain ⟨y, -, hy⟩ := List.mem_map.mp hmem
      exact isSome_intOfString?_iff.mp (by rw [← hy]; rfl)
    · intro h
      obtain ⟨b, hb⟩ := exists_numbers h
      exact ⟨_, compareVersion_eq ViewController.reads_running hb⟩
  refine ⟨hiff, ?_⟩
  intro v fields forceYN hne hname hforce
  have hpos : versionName.length > 0 := by
    by_contra hlen
    exact hne (by simpa using hlen)
  rw [ViewController.onHttpReceive_version hname hforce,
    ViewController.checkVersion_returns_iff hpos, hiff]

/-- A suffix that no version of the app has had yet. -/
theorem compareVersion_beta :
    compareVersion ContextUtils.VERSION_NAME "2.0.1-beta" = .error .unwrappedNil := by
  decide

end StringUtils
end KBucket
