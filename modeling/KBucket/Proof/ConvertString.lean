import KBucket.Utils.StringUtils

/-!
# Undoing HTML escapes

`convertString` starts each of its replacements from the text that it was given, and not from
what the ones before have made of it. So the last that applies is the only one that counts, and a
text with two kinds of special characters is not restored. With one kind, a later step can still
go back to the text as it was given: one that finds a backslash, or an entity that was no entity
before the text was escaped.

The texts that are restored are described by what is in them (`Restorable`), not by running the
replacements. What a character is, is left open, as Swift's may have several scalars: only those
of ASCII are known (`StringUtils.Ascii`), and every other is different from them.
-/

namespace KBucket
namespace StringUtils

open Lib.Replace

variable {Character : Type} {ascii : Ascii Character} {str : List Character}

/-! ## Escaping -/

/-- The characters that HTML writes as entities. -/
inductive Special where
  | amp | apos | quot | lt | gt
  deriving DecidableEq, Repr

namespace Special

def char : Special → Char
  | amp => '&'
  | apos => '\''
  | quot => '"'
  | lt => '<'
  | gt => '>'

def name : Special → String
  | amp => "amp"
  | apos => "apos"
  | quot => "quot"
  | lt => "lt"
  | gt => "gt"

/-- The texts of the source for a character and its entity. -/
def plain : Special → String
  | amp => "&"
  | apos => "'"
  | quot => "\""
  | lt => "<"
  | gt => ">"

def entity : Special → String
  | amp => "&amp;"
  | apos => "&apos;"
  | quot => "&quot;"
  | lt => "&lt;"
  | gt => "&gt;"

end Special

/-- Every `&` becomes an entity first, and then every other special character. -/
def escape [DecidableEq Character] (ascii : Ascii Character) (str : List Character) :
    List Character :=
  let temp := replace [ascii.char '&'] (ascii.text "&amp;") str
  let temp := replace [ascii.char '\''] (ascii.text "&apos;") temp
  let temp := replace [ascii.char '"'] (ascii.text "&quot;") temp
  let temp := replace [ascii.char '<'] (ascii.text "&lt;") temp
  replace [ascii.char '>'] (ascii.text "&gt;") temp

def Occurs (ascii : Ascii Character) (str : List Character) (k : Special) : Prop :=
  ascii.char k.char ∈ str

/-! ## ASCII -/

def IsAscii (literal : String) : Prop := ∀ c ∈ literal.toList, c.toNat < 128

instance (literal : String) : Decidable (IsAscii literal) :=
  List.decidableBAll (fun c : Char => c.toNat < 128) literal.toList

theorem Ascii.char_inj {a b : Char} (ha : a.toNat < 128) (hb : b.toNat < 128) :
    ascii.char a = ascii.char b ↔ a = b := by
  constructor
  · exact ascii.inj a b ha hb
  · rintro rfl
    rfl

theorem Ascii.mem_text {c : Char} {literal : String} (hc : c.toNat < 128)
    (hliteral : IsAscii literal) : ascii.char c ∈ ascii.text literal ↔ c ∈ literal.toList := by
  unfold Ascii.text
  rw [List.mem_map]
  constructor
  · rintro ⟨d, hd, heq⟩
    rw [← (char_inj (hliteral d hd) hc).mp heq]
    exact hd
  · intro h
    exact ⟨c, h, rfl⟩

theorem Ascii.text_inj {a b : String} (ha : IsAscii a) (hb : IsAscii b)
    (h : ascii.text a = ascii.text b) : a = b := by
  rw [← String.toList_inj]
  unfold Ascii.text at h
  unfold IsAscii at ha hb
  generalize a.toList = as at h ha
  generalize b.toList = bs at h hb
  -- Character by character.
  induction as generalizing bs with
  | nil =>
    rw [List.map_nil, eq_comm, List.map_eq_nil_iff] at h
    exact h.symm
  | cons c cs ih =>
    cases bs with
    | nil => cases h
    | cons d ds =>
      obtain ⟨hc, hcs⟩ := List.forall_mem_cons.mp ha
      obtain ⟨hd, hds⟩ := List.forall_mem_cons.mp hb
      rw [List.map_cons, List.map_cons, List.cons.injEq] at h
      rw [(char_inj hc hd).mp h.1, ih hcs ds h.2 hds]

/-! ## Entities -/

namespace Special

theorem char_lt (k : Special) : k.char.toNat < 128 := by cases k <;> decide

theorem char_inj {j k : Special} : j.char = k.char ↔ j = k := by
  cases j <;> cases k <;> decide

theorem isAscii_name (k : Special) : IsAscii k.name := by cases k <;> decide

theorem isAscii_entity (k : Special) : IsAscii k.entity := by cases k <;> decide

theorem name_inj {j k : Special} : j.name = k.name ↔ j = k := by
  cases j <;> cases k <;> decide

theorem text_plain (k : Special) : ascii.text k.plain = [ascii.char k.char] := by
  cases k <;> rfl

theorem text_entity (k : Special) :
    ascii.text k.entity = marked (ascii.char '&') (ascii.char ';') (ascii.text k.name) := by
  cases k <;> rfl

theorem text_entity_ne (k : Special) : ascii.text k.entity ≠ [] := by
  rw [text_entity]
  exact List.cons_ne_nil _ _

theorem one_lt_length_entity (ascii : Ascii Character) (k : Special) :
    1 < (ascii.text k.entity).length := by
  unfold Ascii.text
  rw [List.length_map]
  cases k <;> decide

theorem marked_name (k : Special) :
    Marked (ascii.char '&') (ascii.char ';') (ascii.text k.name) := by
  constructor
  · rw [Ascii.mem_text (by decide) k.isAscii_name]
    cases k <;> decide
  · rw [Ascii.mem_text (by decide) k.isAscii_name]
    cases k <;> decide

/-- No entity starts in another. -/
theorem noStart_entity {j k : Special} (h : j ≠ k) :
    NoStart (ascii.text j.entity) (ascii.text k.entity) := by
  have hmarks : ascii.char '&' ≠ ascii.char ';' := fun heq =>
    absurd ((Ascii.char_inj (by decide) (by decide)).mp heq) (by decide)
  rw [text_entity, text_entity]
  refine noStart_marked hmarks j.marked_name k.marked_name fun heq => h ?_
  exact name_inj.mp (Ascii.text_inj j.isAscii_name k.isAscii_name heq)

end Special

variable [DecidableEq Character]

/-! ## Escaping character by character -/

/-- What the replacement of one kind makes of a character. -/
def sub (ascii : Ascii Character) (k : Special) (c : Character) : List Character :=
  if c = ascii.char k.char then ascii.text k.entity else [c]

theorem sub_self (k : Special) : sub ascii k (ascii.char k.char) = ascii.text k.entity :=
  if_pos rfl

theorem sub_other {j k : Special} (h : j ≠ k) :
    sub ascii j (ascii.char k.char) = [ascii.char k.char] := by
  refine if_neg fun heq => h ?_
  exact (Special.char_inj.mp ((Ascii.char_inj k.char_lt j.char_lt).mp heq)).symm

/-- Entities have no special characters but the `&`, which is replaced first. -/
theorem flatMap_sub_entity {j : Special} (hj : j ≠ .amp) (k : Special) :
    (ascii.text k.entity).flatMap (sub ascii j) = ascii.text k.entity := by
  have hnot : ascii.char j.char ∉ ascii.text k.entity := by
    rw [Ascii.mem_text j.char_lt k.isAscii_entity]
    cases j
    · exact absurd rfl hj
    all_goals cases k <;> decide
  have hsub : ∀ c ∈ ascii.text k.entity, sub ascii j c = [c] := by
    intro c hc
    refine if_neg ?_
    rintro rfl
    exact hnot hc
  exact (flatMap_eq_self_iff fun c hc => .inl (hsub c hc)).mpr hsub

def special? (ascii : Ascii Character) (c : Character) : Option Special :=
  [.amp, .apos, .quot, .lt, .gt].find? fun k : Special => c = ascii.char k.char

/-- How one character is escaped. -/
def word (ascii : Ascii Character) (c : Character) : List Character :=
  match special? ascii c with
  | some k => ascii.text k.entity
  | none => [c]

theorem special?_eq_some {c : Character} {k : Special} :
    special? ascii c = some k ↔ c = ascii.char k.char := by
  constructor
  · intro h
    unfold special? at h
    exact of_decide_eq_true (List.find?_some h :)
  · rintro rfl
    have hkind : ∀ j : Special,
        decide (ascii.char k.char = ascii.char j.char) = decide (k = j) := by
      intro j
      rw [decide_eq_decide, Ascii.char_inj k.char_lt j.char_lt, Special.char_inj]
    unfold special?
    simp only [hkind]
    cases k <;> rfl

theorem word_special (k : Special) : word ascii (ascii.char k.char) = ascii.text k.entity := by
  unfold word
  rw [special?_eq_some.mpr rfl]

/-- The replacements one after the other, on one character. -/
theorem word_eq (c : Character) :
    ((((sub ascii .amp c).flatMap (sub ascii .apos)).flatMap (sub ascii .quot)).flatMap
      (sub ascii .lt)).flatMap (sub ascii .gt) = word ascii c := by
  unfold word
  cases hc : special? ascii c with
  | some k =>
    rw [special?_eq_some.mp hc]
    cases k <;>
      simp only [sub_self, ne_eq, reduceCtorEq, not_false_eq_true, sub_other,
        List.flatMap_singleton, flatMap_sub_entity]
  | none =>
    have hsub : ∀ k, sub ascii k c = [c] := fun k => if_neg fun heq => by
      rw [special?_eq_some.mpr heq] at hc
      cases hc
    simp only [hsub, List.flatMap_singleton]

theorem escape_eq (str : List Character) : escape ascii str = str.flatMap (word ascii) := by
  have hreplace : ∀ (k : Special) (temp : List Character),
      replace [ascii.char k.char] (ascii.text k.entity) temp = temp.flatMap (sub ascii k) :=
    fun k temp => replace_singleton _ _ temp
  have hescape : escape ascii str = ((((str.flatMap (sub ascii .amp)).flatMap
      (sub ascii .apos)).flatMap (sub ascii .quot)).flatMap (sub ascii .lt)).flatMap
        (sub ascii .gt) := by
    rw [← hreplace, ← hreplace, ← hreplace, ← hreplace, ← hreplace]
    rfl
  rw [hescape]
  clear hescape
  induction str with
  | nil => rfl
  | cons c cs ih =>
    simp only [List.flatMap_cons, List.flatMap_append, word_eq, ih]

/-! ## Replacing one kind -/

theorem word_cases (ascii : Ascii Character) (c : Character) :
    (∃ k : Special, c = ascii.char k.char) ∨
      (∀ k : Special, c ≠ ascii.char k.char) ∧ word ascii c = [c] := by
  unfold word
  cases hc : special? ascii c with
  | some k => exact .inl ⟨k, special?_eq_some.mp hc⟩
  | none =>
    refine .inr ⟨fun k heq => ?_, rfl⟩
    rw [special?_eq_some.mpr heq] at hc
    cases hc

theorem word_eq_entity_iff {c : Character} {k : Special} :
    word ascii c = ascii.text k.entity ↔ c = ascii.char k.char := by
  constructor
  · intro h
    rcases word_cases ascii c with ⟨j, rfl⟩ | ⟨-, hword⟩
    · by_cases hjk : k = j
      · rw [hjk]
      · rw [word_special] at h
        exact absurd h ((Special.noStart_entity hjk).ne k.text_entity_ne)
    · have hlen := k.one_lt_length_entity ascii
      rw [← h, hword] at hlen
      exact absurd hlen (Nat.lt_irrefl 1)
  · rintro rfl
    exact word_special k

/-- In an escaped text the entities are where the escaping has put them. -/
theorem apart_entity (k : Special) : Apart (ascii.text k.entity) (word ascii) str := by
  intro c _
  rcases word_cases ascii c with ⟨j, rfl⟩ | ⟨hother, hword⟩
  · rw [word_special]
    by_cases hjk : k = j
    · exact .inl (by rw [hjk])
    · exact .inr (Special.noStart_entity hjk)
  · rw [hword, Special.text_entity]
    refine .inr (NoStart.of_notMem ?_)
    rw [List.mem_singleton]
    exact fun heq => hother .amp heq.symm

theorem contains_escape (k : Special) :
    contains (escape ascii str) (ascii.text k.entity) = true ↔ Occurs ascii str k := by
  unfold contains
  rw [escape_eq, contains_flatMap k.text_entity_ne (apart_entity k)]
  simp only [word_eq_entity_iff, exists_eq_right, Occurs]

/-- The escaped text with one kind of entities replaced. -/
def decode (ascii : Ascii Character) (k : Special) (str : List Character) : List Character :=
  str.flatMap fun c => if c = ascii.char k.char then [c] else word ascii c

theorem replace_escape (k : Special) :
    replace (ascii.text k.entity) (ascii.text k.plain) (escape ascii str) = decode ascii k str := by
  rw [escape_eq, replace_flatMap k.text_entity_ne (apart_entity k)]
  refine congrArg (fun f => str.flatMap f) (funext fun c => ?_)
  simp only [word_eq_entity_iff, Special.text_plain]
  by_cases hc : c = ascii.char k.char
  · rw [if_pos hc, if_pos hc, hc]
  · rw [if_neg hc, if_neg hc]

theorem word_length (c : Character) : word ascii c = [c] ∨ 1 < (word ascii c).length := by
  rcases word_cases ascii c with ⟨k, rfl⟩ | ⟨-, hword⟩
  · rw [word_special]
    exact .inr (k.one_lt_length_entity ascii)
  · exact .inl hword

theorem word_ne_self (k : Special) : word ascii (ascii.char k.char) ≠ [ascii.char k.char] := by
  have hlen := k.one_lt_length_entity ascii
  intro heq
  rw [← word_special, heq] at hlen
  exact Nat.lt_irrefl 1 hlen

/-- Replacing one kind restores the texts in which no other occurs. -/
theorem decode_eq_self_iff (k : Special) :
    decode ascii k str = str ↔ ∀ j, Occurs ascii str j → j = k := by
  unfold decode
  rw [flatMap_eq_self_iff]
  · constructor
    · intro h j hj
      by_contra hjk
      have hself := h _ hj
      rw [if_neg fun heq => hjk (Special.char_inj.mp
        ((Ascii.char_inj j.char_lt k.char_lt).mp heq))] at hself
      exact word_ne_self j hself
    · intro h c hc
      rcases word_cases ascii c with ⟨j, rfl⟩ | ⟨-, hword⟩
      · rw [h j hc, if_pos rfl]
      · rw [hword, ite_self]
  · intro c _
    split
    · exact .inl rfl
    · exact word_length c

theorem escape_eq_self_iff : escape ascii str = str ↔ ∀ k, ¬ Occurs ascii str k := by
  rw [escape_eq, flatMap_eq_self_iff fun c _ => word_length c]
  constructor
  · intro h k hk
    exact word_ne_self k (h _ hk)
  · intro h c hc
    rcases word_cases ascii c with ⟨k, rfl⟩ | ⟨-, hword⟩
    · exact absurd hc (h k)
    · exact hword

theorem decode_of_not_occurs {k : Special} (h : ¬ Occurs ascii str k) :
    decode ascii k str = escape ascii str := by
  have hne : ∀ c ∈ str, c ≠ ascii.char k.char := by
    rintro c hc rfl
    exact h hc
  rw [escape_eq]
  exact List.flatMap_congr fun c hc => if_neg (hne c hc)

/-! ## The steps -/

def step (ascii : Ascii Character) (str : List Character) (k : Special)
    (temp : List Character) : List Character :=
  convertStep ascii str k.entity k.plain temp

/-- The step for the backslash, which puts the text back as it was given. -/
def backslash (ascii : Ascii Character) (str temp : List Character) : List Character :=
  convertStep ascii str "\\" "\\" temp

theorem convertString_eq (str : List Character) :
    convertString ascii str = step ascii str .gt (step ascii str .lt (backslash ascii str
      (step ascii str .quot (step ascii str .apos (step ascii str .amp str))))) := rfl

theorem step_escape (k : Special) (temp : List Character) :
    step ascii (escape ascii str) k temp
      = if contains temp (ascii.text k.entity) then decode ascii k str else temp := by
  rw [step, convertStep, replace_escape]

theorem backslash_eq (temp : List Character) :
    backslash ascii str temp = if ascii.char '\\' ∈ temp then str else temp := by
  have htext : ascii.text "\\" = [ascii.char '\\'] := rfl
  have hsame : replace [ascii.char '\\'] [ascii.char '\\'] str = str := by
    rw [replace_singleton, flatMap_eq_self_iff]
    · intro c _
      split
      · next h => rw [h]
      · rfl
    · intro c _
      split
      · exact .inl (by next h => rw [h])
      · exact .inl rfl
  rw [backslash, convertStep, htext, hsame, contains]
  simp only [contains_singleton]

/-- Whatever the steps do, they end in the escaped text or in one with one kind replaced. -/
theorem convertString_escape (ascii : Ascii Character) (str : List Character) :
    convertString ascii (escape ascii str) = escape ascii str ∨
      ∃ k, convertString ascii (escape ascii str) = decode ascii k str := by
  have hstep : ∀ (k : Special) (temp : List Character),
      (temp = escape ascii str ∨ ∃ j, temp = decode ascii j str) →
      step ascii (escape ascii str) k temp = escape ascii str ∨
        ∃ j, step ascii (escape ascii str) k temp = decode ascii j str := by
    intro k temp h
    rw [step_escape]
    split
    · exact .inr ⟨k, rfl⟩
    · exact h
  have hback : ∀ temp : List Character,
      (temp = escape ascii str ∨ ∃ j, temp = decode ascii j str) →
      backslash ascii (escape ascii str) temp = escape ascii str ∨
        ∃ j, backslash ascii (escape ascii str) temp = decode ascii j str := by
    intro temp h
    rw [backslash_eq]
    split
    · exact .inl rfl
    · exact h
  rw [convertString_eq]
  exact hstep _ _ (hstep _ _ (hback _ (hstep _ _ (hstep _ _ (hstep _ _ (.inl rfl))))))

/-! ## What is restored -/

/-- One kind of special characters occurs at most; the text has no backslash, where a step before
    the one that looks for it has restored it; and with `&` no entity, for any step to find. -/
structure Restorable (ascii : Ascii Character) (str : List Character) : Prop where
  one_kind : ∀ j k, Occurs ascii str j → Occurs ascii str k → j = k
  no_backslash : ∀ k ∈ [Special.amp, .apos, .quot], Occurs ascii str k → ascii.char '\\' ∉ str
  no_entity : Occurs ascii str .amp → ∀ k ∈ [Special.apos, .quot, .lt, .gt],
    contains str (ascii.text k.entity) = false

/-- A step that leaves the escaped text as it is, and goes back to it from the restored one on a
    condition. -/
structure Reverts {Text : Type} (escaped restored : Text) (step : Text → Text) (cond : Prop) :
    Prop where
  stay : step escaped = escaped
  back : cond → step restored = escaped
  keep : ¬ cond → step restored = restored

theorem Reverts.comp {Text : Type} {escaped restored : Text} {f g : Text → Text} {p q : Prop}
    (hf : Reverts escaped restored f p) (hg : Reverts escaped restored g q) :
    Reverts escaped restored (fun temp => g (f temp)) (p ∨ q) where
  stay := by rw [hf.stay, hg.stay]
  back := by
    intro h
    by_cases hp : p
    · rw [hf.back hp, hg.stay]
    · rw [hf.keep hp, hg.back (h.resolve_left hp)]
  keep := by
    intro h
    rw [not_or] at h
    rw [hf.keep h.1, hg.keep h.2]

theorem Reverts.eq_iff {Text : Type} {escaped restored : Text} {f : Text → Text} {p : Prop}
    (hf : Reverts escaped restored f p) (hne : escaped ≠ restored) :
    f restored = restored ↔ ¬ p := by
  by_cases hp : p
  · rw [hf.back hp]
    exact iff_of_false hne (not_not_intro hp)
  · exact iff_of_true (hf.keep hp) hp

/-! ### A text with one kind of special characters -/

section

variable {k : Special}

theorem contains_of_notMem (hamp : ascii.char '&' ∉ str) (j : Special) :
    contains str (ascii.text j.entity) = false := by
  have hstart : NoStart (ascii.text j.entity) str := by
    rw [Special.text_entity]
    exact NoStart.of_notMem hamp
  have hcontains := contains_noStart hstart []
  rw [List.append_nil] at hcontains
  rw [contains, hcontains]
  simp [Lib.Replace.contains, j.text_entity_ne]

theorem step_own (honly : ∀ j, Occurs ascii str j ↔ j = k) :
    step ascii (escape ascii str) k (escape ascii str) = str := by
  rw [step_escape, if_pos ((contains_escape k).mpr ((honly k).mpr rfl))]
  exact (decode_eq_self_iff k).mpr fun j hj => (honly j).mp hj

theorem reverts_step (honly : ∀ j, Occurs ascii str j ↔ j = k) {j : Special} (hjk : j ≠ k) :
    Reverts (escape ascii str) str (step ascii (escape ascii str) j)
      (contains str (ascii.text j.entity) = true) := by
  have hnot : ¬ Occurs ascii str j := fun h => hjk ((honly j).mp h)
  constructor
  · rw [step_escape, if_neg (fun h => hnot ((contains_escape j).mp h))]
  · intro h
    rw [step_escape, if_pos h, decode_of_not_occurs hnot]
  · intro h
    rw [step_escape, if_neg h]

theorem reverts_backslash :
    Reverts (escape ascii str) str (backslash ascii (escape ascii str))
      (ascii.char '\\' ∈ str) := by
  constructor
  · rw [backslash_eq, ite_self]
  · intro h
    rw [backslash_eq, if_pos h]
  · intro h
    rw [backslash_eq, if_neg h]

theorem restorable_iff (honly : ∀ j, Occurs ascii str j ↔ j = k) :
    Restorable ascii str ↔
      (k ∈ [Special.amp, .apos, .quot] → ascii.char '\\' ∉ str) ∧
      (k = .amp → ∀ j ∈ [Special.apos, .quot, .lt, .gt],
        contains str (ascii.text j.entity) = false) := by
  have hk : Occurs ascii str k := (honly k).mpr rfl
  constructor
  · intro h
    refine ⟨fun hmem => h.no_backslash k hmem hk, ?_⟩
    rintro rfl
    exact h.no_entity hk
  · intro h
    refine ⟨fun i j hi hj => ?_, fun j hmem hj => ?_, fun hamp => ?_⟩
    · rw [(honly i).mp hi, (honly j).mp hj]
    · exact h.1 ((honly j).mp hj ▸ hmem)
    · exact h.2 ((honly .amp).mp hamp).symm

/-- One case for each kind: the steps before its own find nothing, and those behind may revert. -/
theorem convertString_one (honly : ∀ j, Occurs ascii str j ↔ j = k) :
    convertString ascii (escape ascii str) = str ↔ Restorable ascii str := by
  have hne : escape ascii str ≠ str := fun h =>
    escape_eq_self_iff.mp h k ((honly k).mpr rfl)
  have hstep : ∀ j, j ≠ k → Reverts (escape ascii str) str (step ascii (escape ascii str) j)
      (contains str (ascii.text j.entity) = true) := fun j => reverts_step honly
  have hfind : k ≠ .amp → ∀ j : Special, contains str (ascii.text j.entity) = false :=
    fun hk => contains_of_notMem fun h => hk ((honly .amp).mp h).symm
  rw [restorable_iff honly, convertString_eq]
  cases k with
  | amp =>
    have hrun := ((((hstep .apos nofun).comp (hstep .quot nofun)).comp reverts_backslash).comp
      (hstep .lt nofun)).comp (hstep .gt nofun)
    rw [step_own honly, hrun.eq_iff hne]
    simp [not_or, and_assoc, and_left_comm]
  | apos =>
    have hrun := (((hstep .quot nofun).comp reverts_backslash).comp (hstep .lt nofun)).comp
      (hstep .gt nofun)
    rw [(hstep .amp nofun).stay, step_own honly, hrun.eq_iff hne]
    simp [hfind]
  | quot =>
    have hrun := (reverts_backslash.comp (hstep .lt nofun)).comp (hstep .gt nofun)
    rw [(hstep .amp nofun).stay, (hstep .apos nofun).stay, step_own honly, hrun.eq_iff hne]
    simp [hfind]
  | lt =>
    rw [(hstep .amp nofun).stay, (hstep .apos nofun).stay, (hstep .quot nofun).stay,
      reverts_backslash.stay, step_own honly, (hstep .gt nofun).eq_iff hne]
    simp [hfind]
  | gt =>
    rw [(hstep .amp nofun).stay, (hstep .apos nofun).stay, (hstep .quot nofun).stay,
      reverts_backslash.stay, (hstep .lt nofun).stay, step_own honly]
    simp

end

/-- **Escaping is undone exactly for the restorable texts.**

    The characters that are not of ASCII are left open: they may have several scalars, and match as
    a whole. -/
theorem convertString_escape_iff (ascii : Ascii Character) (str : List Character) :
    convertString ascii (escape ascii str) = str ↔ Restorable ascii str := by
  by_cases hkinds : ∀ j k, Occurs ascii str j → Occurs ascii str k → j = k
  · by_cases hany : ∃ k, Occurs ascii str k
    · obtain ⟨k, hk⟩ := hany
      refine convertString_one (k := k) fun j => ⟨fun hj => hkinds j k hj hk, ?_⟩
      rintro rfl
      exact hk
    · -- Nothing to escape, and nothing to find.
      have hnone : ∀ k, ¬ Occurs ascii str k := fun k hk => hany ⟨k, hk⟩
      have hself := escape_eq_self_iff.mpr hnone
      refine iff_of_true ?_ ⟨hkinds, fun k _ hk => absurd hk (hnone k), fun h => absurd h (hnone _)⟩
      rcases convertString_escape ascii str with h | ⟨k, h⟩
      · rw [h, hself]
      · rw [h, decode_of_not_occurs (hnone k), hself]
  · -- Two kinds: no single replacement restores both.
    refine iff_of_false (fun h => hkinds ?_) (fun h => hkinds h.one_kind)
    intro j k hj hk
    rcases convertString_escape ascii str with heq | ⟨i, heq⟩
    · rw [heq, escape_eq_self_iff] at h
      exact absurd hj (h j)
    · rw [heq, decode_eq_self_iff] at h
      exact (h j hj).trans (h k hk).symm

/-- Swift's characters, as far as each is a scalar of its own. -/
def scalars : Ascii Char where
  char := id
  inj := fun _ _ _ _ h => h

/-- The tag `<>` comes back as `&lt;>`. -/
theorem tag_not_restored :
    (¬ ∀ (Character : Type) (_ : DecidableEq Character) (ascii : Ascii Character)
      (str : List Character), convertString ascii (escape ascii str) = str) ∧
    convertString scalars (escape scalars "<>".toList) = "&lt;>".toList := by
  have hconvert : convertString scalars (escape scalars "<>".toList) = "&lt;>".toList := by decide
  refine ⟨fun h => ?_, hconvert⟩
  have hself := h Char inferInstance scalars "<>".toList
  rw [hconvert] at hself
  exact absurd hself (by decide)

end StringUtils
end KBucket
