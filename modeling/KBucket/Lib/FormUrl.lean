import Mathlib.Algebra.GroupWithZero.Nat
import Mathlib.Algebra.Order.BigOperators.Group.List
import Mathlib.Algebra.Order.Group.Nat
import Mathlib.Data.List.Infix
import Mathlib.Data.List.TakeWhile

/-!
# Form bodies

The decoder of `application/x-www-form-urlencoded`: a body is split at `&`, empty segments are
ignored, a segment is split at its first `=`, and in both halves `+` becomes a space before
`%XX` becomes a byte. A `%` that two hexadecimal digits do not follow stays.

`body` is the other direction as a program writes it that does not encode anything. Which lists
of parameters survive that is `decodeForm_body_perm_iff`: exactly those in which no name and no
value has a character that means something to the decoder (and a value may have `=`). That it
is *exactly* those rests on a count. A decoder never makes its input longer, so if what comes
out has the size of what went in, no segment was cut and no escape was read.
-/

namespace Lib.FormUrl

abbrev Bytes := List UInt8

def ampersand : UInt8 := 0x26
def equals : UInt8 := 0x3D
def plus : UInt8 := 0x2B
def percent : UInt8 := 0x25
def space : UInt8 := 0x20

/-! ## The decoder -/

def hexValue (b : UInt8) : Option UInt8 :=
  if 0x30 ≤ b ∧ b ≤ 0x39 then some (b - 0x30)
  else if 0x41 ≤ b ∧ b ≤ 0x46 then some (b - 0x37)
  else if 0x61 ≤ b ∧ b ≤ 0x66 then some (b - 0x57)
  else none

def percentDecode : Bytes → Bytes
  | c :: a :: b :: rest =>
    if c = percent then
      match hexValue a, hexValue b with
      | some x, some y => (16 * x + y) :: percentDecode rest
      | _, _ => c :: percentDecode (a :: b :: rest)
    else c :: percentDecode (a :: b :: rest)
  | bs => bs

def plusToSpace (bs : Bytes) : Bytes := bs.map fun c => if c = plus then space else c

def decodeComponent (bs : Bytes) : Bytes := percentDecode (plusToSpace bs)

/-- Name and value of a segment; without a `=` the value is empty. -/
def decodePair (segment : Bytes) : Bytes × Bytes :=
  (decodeComponent (segment.takeWhile (· ≠ equals)),
    decodeComponent ((segment.dropWhile (· ≠ equals)).drop 1))

def segments (bs : Bytes) : List Bytes := (bs.splitOn ampersand).filter (· ≠ [])

def decodeForm (bs : Bytes) : List (Bytes × Bytes) := (segments bs).map decodePair

/-! ## Writing without encoding -/

def raw (p : Bytes × Bytes) : Bytes := p.1 ++ equals :: p.2

def body (ps : List (Bytes × Bytes)) : Bytes := ps.flatMap fun p => raw p ++ [ampersand]

/-- A `%` and two hexadecimal digits stand somewhere in the bytes. -/
def HasEscape (bs : Bytes) : Prop :=
  ∃ a b, (hexValue a).isSome ∧ (hexValue b).isSome ∧ [percent, a, b] <:+: bs

/-- Nothing in the bytes means anything to the decoder of a component. -/
structure Literal (bs : Bytes) : Prop where
  ampersand : ampersand ∉ bs
  plus : plus ∉ bs
  escape : ¬ HasEscape bs

/-- A parameter that needs no encoding. -/
structure Neutral (p : Bytes × Bytes) : Prop where
  name : Literal p.1
  equals : equals ∉ p.1
  value : Literal p.2

/-! ## Percent-decoding shortens, or does nothing -/

theorem not_hasEscape_of_length {bs : Bytes} (h : bs.length < 3) : ¬ HasEscape bs := by
  intro h
  obtain ⟨a, b, -, -, hinfix⟩ := h
  have := hinfix.length_le
  simp only [List.length_cons, List.length_nil] at this
  omega

/-- An escape in a longer list is at its head or in its tail. -/
theorem hasEscape_cons {c : UInt8} {bs : Bytes} : HasEscape (c :: bs) ↔
    (∃ a b rest, bs = a :: b :: rest ∧ c = percent ∧ (hexValue a).isSome ∧ (hexValue b).isSome) ∨
      HasEscape bs := by
  constructor
  · intro h
    obtain ⟨a, b, ha, hb, hinfix⟩ := h
    rcases List.infix_cons_iff.mp hinfix with hprefix | hinfix
    · obtain ⟨rest, hrest⟩ := hprefix
      cases hrest
      exact .inl ⟨a, b, rest, rfl, rfl, ha, hb⟩
    · exact .inr ⟨a, b, ha, hb, hinfix⟩
  · intro h
    rcases h with ⟨a, b, rest, rfl, rfl, ha, hb⟩ | ⟨a, b, ha, hb, hinfix⟩
    · exact ⟨a, b, ha, hb, List.infix_cons_iff.mpr (.inl ⟨rest, rfl⟩)⟩
    · exact ⟨a, b, ha, hb, List.infix_cons_iff.mpr (.inr hinfix)⟩

/-- Percent-decoding is the identity where there is no escape, and shortens where there is. -/
theorem percentDecode_cases (bs : Bytes) :
    (¬ HasEscape bs ∧ percentDecode bs = bs) ∨
      (HasEscape bs ∧ (percentDecode bs).length < bs.length) := by
  -- A byte that is passed on leaves the verdict to the bytes after it.
  have pass : ∀ {c : UInt8} {bs : Bytes}, percentDecode (c :: bs) = c :: percentDecode bs →
      (HasEscape (c :: bs) ↔ HasEscape bs) →
      ((¬ HasEscape bs ∧ percentDecode bs = bs) ∨
        (HasEscape bs ∧ (percentDecode bs).length < bs.length)) →
      (¬ HasEscape (c :: bs) ∧ percentDecode (c :: bs) = c :: bs) ∨
        (HasEscape (c :: bs) ∧ (percentDecode (c :: bs)).length < (c :: bs).length) := by
    intro c bs hdecode hescape ih
    rw [hdecode, hescape]
    rcases ih with ⟨hno, heq⟩ | ⟨hyes, hlt⟩
    · exact .inl ⟨hno, by rw [heq]⟩
    · exact .inr ⟨hyes, by simp only [List.length_cons]; omega⟩
  induction bs using percentDecode.induct with
  | case1 a b rest x y hy hx ih =>
    -- An escape is read: three bytes become one.
    right
    constructor
    · exact hasEscape_cons.mpr (.inl ⟨a, b, rest, rfl, rfl, by simp [hx], by simp [hy]⟩)
    · rw [percentDecode, if_pos rfl, hx, hy]
      simp only [List.length_cons]
      rcases ih with ⟨-, heq⟩ | ⟨-, hlt⟩
      · rw [heq]; omega
      · omega
  | case2 a b rest hnot ih =>
    refine pass ?_ ?_ ih
    · rw [percentDecode, if_pos rfl]
      split
      · next x y hx hy => exact absurd hy (fun hy => hnot x y hx hy)
      · rfl
    · rw [hasEscape_cons, or_iff_right]
      intro h
      obtain ⟨a', b', rest', heq, -, ha, hb⟩ := h
      cases heq
      obtain ⟨x, hx⟩ := Option.isSome_iff_exists.mp ha
      obtain ⟨y, hy⟩ := Option.isSome_iff_exists.mp hb
      exact hnot x y hx hy
  | case3 c a b rest hc ih =>
    refine pass ?_ ?_ ih
    · rw [percentDecode, if_neg hc]
    · rw [hasEscape_cons, or_iff_right]
      intro h
      obtain ⟨a', b', rest', -, hc', -⟩ := h
      exact hc hc'
  | case4 bs hshort =>
    left
    have hlen : bs.length < 3 := by
      match bs, hshort with
      | [], _ | [_], _ | [_, _], _ => simp
      | c :: a :: b :: rest, hshort => exact (hshort c a b rest rfl).elim
    refine ⟨not_hasEscape_of_length hlen, ?_⟩
    match bs, hlen with
    | [], _ | [_], _ | [_, _], _ => rfl

theorem hasEscape_plusToSpace {bs : Bytes} (h : HasEscape bs) : HasEscape (plusToSpace bs) := by
  obtain ⟨a, b, ha, hb, hinfix⟩ := h
  have hkeep : ∀ {d : UInt8}, (hexValue d).isSome → d ≠ plus := by
    rintro d hd rfl
    exact absurd hd (by decide)
  refine ⟨a, b, ha, hb, ?_⟩
  have hmap := hinfix.map fun c => if c = plus then space else c
  simpa [plusToSpace, hkeep ha, hkeep hb, show percent ≠ plus by decide] using hmap

/-- So a component keeps its length only if there is no escape in it. -/
theorem decodeComponent_cases (bs : Bytes) :
    (¬ HasEscape bs ∧ decodeComponent bs = plusToSpace bs) ∨
      (decodeComponent bs).length < bs.length := by
  have hlen : (plusToSpace bs).length = bs.length := List.length_map _
  rcases percentDecode_cases (plusToSpace bs) with ⟨hno, heq⟩ | ⟨-, hlt⟩
  · exact .inl ⟨fun h => hno (hasEscape_plusToSpace h), heq⟩
  · exact .inr (by rw [← hlen]; exact hlt)

theorem length_decodeComponent_le (bs : Bytes) : (decodeComponent bs).length ≤ bs.length := by
  rcases decodeComponent_cases bs with ⟨-, heq⟩ | hlt
  · rw [heq]
    exact Nat.le_of_eq (List.length_map _)
  · exact Nat.le_of_lt hlt

/-- A literal component comes back as itself. -/
theorem decodeComponent_literal {bs : Bytes} (h : Literal bs) : decodeComponent bs = bs := by
  have hplus : plusToSpace bs = bs := by
    unfold plusToSpace
    exact (List.map_congr_left fun c hc => if_neg fun hcp : c = plus => h.plus (hcp ▸ hc)).trans
      (List.map_id bs)
  unfold decodeComponent
  rw [hplus]
  rcases percentDecode_cases bs with ⟨-, heq⟩ | ⟨hyes, -⟩
  · exact heq
  · exact absurd hyes h.escape

/-! ## One segment -/

def weight (p : Bytes × Bytes) : Nat := p.1.length + p.2.length

theorem length_raw (p : Bytes × Bytes) : (raw p).length = weight p + 1 := by
  simp only [raw, weight, List.length_append, List.length_cons]
  omega

/-- The two halves of a segment and the `=` between them, if there is one. -/
theorem length_halves (segment : Bytes) :
    (segment.takeWhile (· ≠ equals)).length + ((segment.dropWhile (· ≠ equals)).drop 1).length
      + (if equals ∈ segment then 1 else 0) = segment.length := by
  induction segment with
  | nil => simp
  | cons c cs ih =>
    by_cases hc : c = equals
    · subst hc
      simp
    · have hmem : equals ∈ c :: cs ↔ equals ∈ cs := by
        rw [List.mem_cons, or_iff_right (Ne.symm hc)]
      simp only [List.takeWhile_cons, List.dropWhile_cons, hc, ne_eq, not_false_eq_true,
        decide_true, if_true, List.length_cons, hmem] at ih ⊢
      omega

theorem weight_decodePair_le (segment : Bytes) :
    weight (decodePair segment) + (if equals ∈ segment then 1 else 0) ≤ segment.length := by
  have hname := length_decodeComponent_le (segment.takeWhile (· ≠ equals))
  have hvalue := length_decodeComponent_le ((segment.dropWhile (· ≠ equals)).drop 1)
  have hhalves := length_halves segment
  unfold weight decodePair
  simp only
  omega

/-- Splitting at the first `=` undoes writing one after a name that has none. -/
theorem decodePair_raw {p : Bytes × Bytes} (h : equals ∉ p.1) :
    decodePair (raw p) = (decodeComponent p.1, decodeComponent p.2) := by
  have hall : ∀ c ∈ p.1, decide (c ≠ equals) = true := fun c hc =>
    decide_eq_true fun heq : c = equals => h (heq ▸ hc)
  have hstop : decide (equals ≠ equals) = false := by decide
  unfold decodePair raw
  rw [List.takeWhile_append_of_pos hall, List.dropWhile_append_of_pos hall]
  simp

/-- A `=` or any other byte that is not part of an escape separates the escapes around it. -/
theorem hasEscape_append_equals {u v : Bytes} (h : HasEscape u ∨ HasEscape v) :
    HasEscape (u ++ equals :: v) := by
  rcases h with ⟨a, b, ha, hb, hinfix⟩ | ⟨a, b, ha, hb, hinfix⟩
  · exact ⟨a, b, ha, hb, hinfix.trans (List.prefix_append _ _).isInfix⟩
  · refine ⟨a, b, ha, hb, hinfix.trans ?_⟩
    exact ((List.suffix_cons _ _).trans (List.suffix_append _ _)).isInfix

/-- An escape in a segment is in its name or in its value. -/
theorem hasEscape_halves {segment : Bytes} (h : HasEscape segment) :
    HasEscape (segment.takeWhile (· ≠ equals)) ∨
      HasEscape ((segment.dropWhile (· ≠ equals)).drop 1) := by
  have hdigit : ∀ {d : UInt8}, (hexValue d).isSome → d ≠ equals := by
    rintro d hd rfl
    exact absurd hd (by decide)
  induction segment with
  | nil => exact .inl h
  | cons c cs ih =>
    by_cases hc : c = equals
    · -- The name is empty, and a `=` starts no escape.
      subst hc
      rcases hasEscape_cons.mp h with ⟨a, b, rest, -, hpercent, -, -⟩ | htail
      · exact absurd hpercent (by decide)
      · right
        simpa using htail
    · have htake : (c :: cs).takeWhile (· ≠ equals) = c :: cs.takeWhile (· ≠ equals) := by
        simp [hc]
      have hdrop : (c :: cs).dropWhile (· ≠ equals) = cs.dropWhile (· ≠ equals) := by
        simp [hc]
      rw [htake, hdrop]
      rcases hasEscape_cons.mp h with ⟨a, b, rest, rfl, hpercent, ha, hb⟩ | htail
      · left
        apply hasEscape_cons.mpr
        refine .inl ⟨a, b, rest.takeWhile (· ≠ equals), ?_, hpercent, ha, hb⟩
        simp [hdigit ha, hdigit hb]
      · exact (ih htail).imp (fun hname => hasEscape_cons.mpr (.inr hname)) id

/-- A segment that loses no weight beyond its `=` has no escape, and both halves only had their
    `+` read. -/
theorem decodePair_of_weight {segment : Bytes} (hmem : equals ∈ segment)
    (h : segment.length ≤ weight (decodePair segment) + 1) :
    ¬ HasEscape segment ∧ decodePair segment
      = (plusToSpace (segment.takeWhile (· ≠ equals)),
        plusToSpace ((segment.dropWhile (· ≠ equals)).drop 1)) := by
  have hhalves := length_halves segment
  rw [if_pos hmem] at hhalves
  have hname := length_decodeComponent_le (segment.takeWhile (· ≠ equals))
  have hvalue := length_decodeComponent_le ((segment.dropWhile (· ≠ equals)).drop 1)
  unfold weight decodePair at h
  simp only at h
  rcases decodeComponent_cases (segment.takeWhile (· ≠ equals)) with ⟨hno, heq⟩ | hlt
  · rcases decodeComponent_cases ((segment.dropWhile (· ≠ equals)).drop 1) with ⟨hno', heq'⟩ | hlt
    · refine ⟨fun hescape => (hasEscape_halves hescape).elim hno hno', ?_⟩
      rw [decodePair, heq, heq']
    · omega
  · omega

/-! ## All segments -/

theorem segments_append (u v : Bytes) :
    segments (u ++ ampersand :: v) = segments u ++ segments v := by
  unfold segments
  rw [List.splitOn_append_cons_self, List.filter_append]

theorem segments_of_notMem {u : Bytes} (h : ampersand ∉ u) (hne : u ≠ []) : segments u = [u] := by
  unfold segments
  rw [List.splitOn_eq_singleton h]
  simp [hne]

theorem decodeForm_body (ps : List (Bytes × Bytes)) :
    decodeForm (body ps) = ps.flatMap fun p => (segments (raw p)).map decodePair := by
  induction ps with
  | nil => rfl
  | cons p ps ih =>
    have hbody : body (p :: ps) = raw p ++ ampersand :: body ps := by
      simp [body, List.append_assoc]
    rw [decodeForm, hbody, segments_append, List.map_append, List.flatMap_cons, ← ih]
    rfl

theorem sum_length_filter (l : List Bytes) :
    ((l.filter (· ≠ [])).map List.length).sum = (l.map List.length).sum := by
  induction l with
  | nil => rfl
  | cons s ss ih =>
    by_cases hs : s = []
    · simpa [hs] using ih
    · simpa [hs] using ih

/-- Splitting loses the separators and nothing else. -/
theorem length_segments (bs : Bytes) :
    ((segments bs).map List.length).sum + bs.count ampersand = bs.length := by
  rw [segments, sum_length_filter]
  induction bs with
  | nil => rfl
  | cons c cs ih =>
    rw [List.splitOn_cons_eq_if_modifyHead]
    by_cases hc : c = ampersand
    · subst hc
      simp only [beq_self_eq_true, if_true, List.map_cons, List.length_nil, List.sum_cons,
        List.count_cons_self, List.length_cons]
      omega
    · obtain ⟨s, ss, hsplit⟩ := List.exists_cons_of_ne_nil (List.splitOn_ne_nil ampersand cs)
      rw [hsplit] at ih ⊢
      simp only [beq_iff_eq, hc, if_false, List.modifyHead_cons, List.map_cons, List.length_cons,
        List.sum_cons, List.count_cons_of_ne hc] at ih ⊢
      omega

/-- A byte that is no separator is in some segment. -/
theorem exists_segment {bs : Bytes} {c : UInt8} (hc : c ∈ bs) (hne : c ≠ ampersand) :
    ∃ segment ∈ segments bs, c ∈ segment := by
  have hsplit : ∃ segment ∈ bs.splitOn ampersand, c ∈ segment := by
    induction bs with
    | nil => cases hc
    | cons d ds ih =>
      rw [List.splitOn_cons_eq_if_modifyHead]
      obtain ⟨s, ss, hss⟩ := List.exists_cons_of_ne_nil (List.splitOn_ne_nil ampersand ds)
      rw [hss] at ih ⊢
      rcases List.mem_cons.mp hc with rfl | hmem
      · exact ⟨c :: s, by simp [hne], by simp⟩
      · obtain ⟨segment, hsegment, hcs⟩ := ih hmem
        by_cases hd : d = ampersand
        · exact ⟨segment, by simp [hd, List.mem_cons.mp hsegment], hcs⟩
        · rcases List.mem_cons.mp hsegment with rfl | hrest
          · exact ⟨d :: segment, by simp [hd], List.mem_cons_of_mem _ hcs⟩
          · exact ⟨segment, by simp [hd, hrest], hcs⟩
  obtain ⟨segment, hmem, hcs⟩ := hsplit
  refine ⟨segment, List.mem_filter.mpr ⟨hmem, ?_⟩, hcs⟩
  simpa using List.ne_nil_of_mem hcs

/-! ## One parameter -/

/-- What the decoder makes of one parameter, counted. -/
def decodedWeight (p : Bytes × Bytes) : Nat :=
  ((segments (raw p)).map fun segment => weight (decodePair segment)).sum

theorem equals_mem_raw (p : Bytes × Bytes) : equals ∈ raw p := by simp [raw]

/-- The segment that holds the `=` loses it, so what is decoded is lighter than the segments. -/
theorem decodedWeight_lt (p : Bytes × Bytes) :
    decodedWeight p < ((segments (raw p)).map List.length).sum := by
  obtain ⟨segment, hmem, heq⟩ := exists_segment (equals_mem_raw p) (by decide)
  apply List.sum_lt_sum
  · intro s _
    have := weight_decodePair_le s
    omega
  · refine ⟨segment, hmem, ?_⟩
    have := weight_decodePair_le segment
    rw [if_pos heq] at this
    omega

theorem decodedWeight_add_le (p : Bytes × Bytes) :
    decodedWeight p + (raw p).count ampersand ≤ weight p := by
  have hlt := decodedWeight_lt p
  have hlen := length_segments (raw p)
  have hraw := length_raw p
  omega

/-- **A parameter that loses no weight is one segment without an escape.** -/
theorem of_decodedWeight {p : Bytes × Bytes} (h : weight p ≤ decodedWeight p) :
    segments (raw p) = [raw p] ∧ ampersand ∉ raw p ∧ ¬ HasEscape (raw p) ∧
      decodePair (raw p) = (plusToSpace ((raw p).takeWhile (· ≠ equals)),
        plusToSpace (((raw p).dropWhile (· ≠ equals)).drop 1)) := by
  have hle := decodedWeight_add_le p
  have hcount : (raw p).count ampersand = 0 := by omega
  have hamp : ampersand ∉ raw p := List.count_eq_zero.mp hcount
  have hseg := segments_of_notMem hamp (List.ne_nil_of_mem (equals_mem_raw p))
  have hweight : (raw p).length ≤ weight (decodePair (raw p)) + 1 := by
    rw [length_raw]
    simpa [decodedWeight, hseg] using h
  exact ⟨hseg, hamp, decodePair_of_weight (equals_mem_raw p) hweight⟩

/-! ## A whole body -/

theorem plus_notMem_plusToSpace (bs : Bytes) : plus ∉ plusToSpace bs := by
  unfold plusToSpace
  simp only [List.mem_map, not_exists, not_and]
  intro c _ heq
  split at heq
  · exact absurd heq (by decide)
  · contradiction

theorem equals_notMem_plusToSpace {bs : Bytes} (h : equals ∉ bs) : equals ∉ plusToSpace bs := by
  unfold plusToSpace
  simp only [List.mem_map, not_exists, not_and]
  intro c hc heq
  split at heq
  · exact absurd heq (by decide)
  · exact h (heq ▸ hc)

theorem segments_raw_of_neutral {p : Bytes × Bytes} (h : Neutral p) :
    segments (raw p) = [raw p] := by
  refine segments_of_notMem ?_ (List.ne_nil_of_mem (equals_mem_raw p))
  simp only [raw, List.mem_append, List.mem_cons, not_or]
  exact ⟨h.name.ampersand, by decide, h.value.ampersand⟩

/-- Parameters that need no encoding come back in order. -/
theorem decodeForm_body_of_neutral {ps : List (Bytes × Bytes)} (h : ∀ p ∈ ps, Neutral p) :
    decodeForm (body ps) = ps := by
  rw [decodeForm_body]
  have hp : ∀ p ∈ ps, (segments (raw p)).map decodePair = [p] := by
    intro p hp
    have hn := h p hp
    rw [segments_raw_of_neutral hn, List.map_singleton, decodePair_raw hn.equals,
      decodeComponent_literal hn.name, decodeComponent_literal hn.value]
  rw [List.flatMap_congr hp]
  simp

/-- **A body that is written without encoding carries its parameters, in whatever order, exactly
    when none of them needs encoding.** -/
theorem decodeForm_body_perm_iff (ps : List (Bytes × Bytes)) :
    (decodeForm (body ps)).Perm ps ↔ ∀ p ∈ ps, Neutral p := by
  refine ⟨fun hperm => ?_, fun h => by rw [decodeForm_body_of_neutral h]⟩
  -- What comes out weighs as much as what went in, so every parameter kept its weight.
  have hsum : (ps.map decodedWeight).sum = (ps.map weight).sum := by
    have hweights := (hperm.map weight).sum_eq
    rw [decodeForm_body, List.map_flatMap, List.flatMap, List.sum_flatten, List.map_map] at hweights
    rw [← hweights]
    simp only [Function.comp_def, List.map_map]
    rfl
  have hkept : ∀ p ∈ ps, weight p ≤ decodedWeight p := by
    intro p hp
    by_contra hlt
    have hstrict : (ps.map decodedWeight).sum < (ps.map weight).sum := by
      apply List.sum_lt_sum
      · intro q _
        have := decodedWeight_add_le q
        omega
      · exact ⟨p, hp, by omega⟩
    omega
  -- So each parameter is one segment, and its two halves only had their `+` read.
  have hform : decodeForm (body ps) = ps.map fun p => decodePair (raw p) := by
    rw [decodeForm_body, List.flatMap_congr fun p hp => by
      rw [(of_decodedWeight (hkept p hp)).1, List.map_singleton]]
    exact List.map_eq_flatMap.symm
  intro p hp
  obtain ⟨-, hamp, hescape, -⟩ := of_decodedWeight (hkept p hp)
  have hout : p ∈ decodeForm (body ps) := hperm.mem_iff.mpr hp
  rw [hform] at hout
  obtain ⟨q, hq, hpq⟩ := List.mem_map.mp hout
  obtain ⟨-, -, -, hdecode⟩ := of_decodedWeight (hkept q hq)
  rw [hdecode] at hpq
  simp only [raw, List.mem_append, List.mem_cons, not_or] at hamp
  have hname : p.1 = plusToSpace ((raw q).takeWhile (· ≠ equals)) := by rw [← hpq]
  have hvalue : p.2 = plusToSpace (((raw q).dropWhile (· ≠ equals)).drop 1) := by rw [← hpq]
  refine ⟨⟨hamp.1, ?_, fun h => hescape (hasEscape_append_equals (.inl h))⟩, ?_,
    ⟨hamp.2.2, ?_, fun h => hescape (hasEscape_append_equals (.inr h))⟩⟩
  · rw [hname]
    exact plus_notMem_plusToSpace _
  · rw [hname]
    apply equals_notMem_plusToSpace
    intro hmem
    simpa using List.mem_takeWhile_imp hmem
  · rw [hvalue]
    exact plus_notMem_plusToSpace _

end Lib.FormUrl
