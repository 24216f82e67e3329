import Mathlib.Data.Set.Finite.Basic
import Mathlib.Data.Finite.Prod

/-!
# Predicate format strings

A query language in which a predicate is written as text: comparisons of a key path with a
quoted literal (or with another key path), joined by `AND` and `OR`. The text is lexed, parsed
and checked against the columns of a record type; a text that fails any of the three is refused,
which the store that asked for it reports by raising.

Two facts about *quoting* are what a program that builds such a text by concatenation needs:

* `predicate_quoted` — a literal that contains neither the quote nor the escape comes back as
  itself, so the predicate is the intended comparison;
* `not_mem_texts_of_not_plain` — any other text between the quotes is **not** among the literals
  of what it turns into, whatever that is. The lexer only ever shortens.

`predicate_of_not_plain` turns the second into a statement about rows: a predicate cannot tell
apart two rows that carry none of its literals.
-/

namespace Lib.Predicate

/-! ## Tokens -/

inductive Token where
  | key (name : String)
  | text (s : String)
  | eq | ne | and | or
  deriving DecidableEq, Repr

/-- What the lexer is in the middle of. -/
inductive Mode where
  | gap
  | word (w : List Char)
  | sign (w : List Char)
  | quoted (q : Char) (t : List Char)
  | escaped (q : Char) (t : List Char)

inductive CharClass where
  | space | quote | word | sign | other
  deriving DecidableEq

def classify (c : Char) : CharClass :=
  if c = '\'' ∨ c = '"' then .quote
  else if c.isWhitespace then .space
  else if c.isAlphanum ∨ c = '_' ∨ c = '.' then .word
  else if c ∈ ['=', '!', '<', '>', '&', '|'] then .sign
  else .other

/-- Keywords are case-insensitive; any other word is a key path. -/
def wordToken (w : List Char) : Token :=
  if w.map Char.toUpper = ['A', 'N', 'D'] then .and
  else if w.map Char.toUpper = ['O', 'R'] then .or
  else .key (String.ofList w)

def signToken (w : List Char) : Option Token :=
  if w = ['='] ∨ w = ['=', '='] then some .eq
  else if w = ['!', '='] ∨ w = ['<', '>'] then some .ne
  else if w = ['&', '&'] then some .and
  else if w = ['|', '|'] then some .or
  else none

/-- The tokens a mode stands for when it ends; a literal that is still open has none. -/
def flush : Mode → Option (List Token)
  | .gap => some []
  | .word w => some [wordToken w]
  | .sign w => (signToken w).map ([·])
  | .quoted _ _ | .escaped _ _ => none

def emit (m : Mode) (rest : Option (List Token)) : Option (List Token) := do
  let ts ← flush m
  let us ← rest
  some (ts ++ us)

/-- The lexer. A literal ends at the first unescaped quote of the kind that opened it, and an
    escape makes the next character part of the literal. -/
def lex : Mode → List Char → Option (List Token)
  | m, [] => flush m
  | .quoted q t, c :: cs =>
      if c = '\\' then lex (.escaped q t) cs
      else if c = q then emit .gap ((lex .gap cs).map (.text (String.ofList t) :: ·))
      else lex (.quoted q (t ++ [c])) cs
  | .escaped q t, c :: cs => lex (.quoted q (t ++ [c])) cs
  | .word w, c :: cs =>
      match classify c with
      | .word => lex (.word (w ++ [c])) cs
      | .space => emit (.word w) (lex .gap cs)
      | .quote => emit (.word w) (lex (.quoted c []) cs)
      | .sign => emit (.word w) (lex (.sign [c]) cs)
      | .other => none
  | .sign w, c :: cs =>
      match classify c with
      | .sign => lex (.sign (w ++ [c])) cs
      | .space => emit (.sign w) (lex .gap cs)
      | .quote => emit (.sign w) (lex (.quoted c []) cs)
      | .word => emit (.sign w) (lex (.word [c]) cs)
      | .other => none
  | .gap, c :: cs =>
      match classify c with
      | .space => lex .gap cs
      | .quote => lex (.quoted c []) cs
      | .word => lex (.word [c]) cs
      | .sign => lex (.sign [c]) cs
      | .other => none

/-! ## Comparisons -/

inductive Operand where
  | key (name : String)
  | text (s : String)
  deriving DecidableEq, Repr

/-- `left = right`, or `left != right` when `equal` is `false`. -/
structure Comparison where
  left : Operand
  equal : Bool
  right : Operand
  deriving DecidableEq, Repr

def operand? : Token → Option Operand
  | .key n => some (.key n)
  | .text s => some (.text s)
  | _ => none

def sense? : Token → Option Bool
  | .eq => some true
  | .ne => some false
  | _ => none

def comparison? (a o b : Token) : Option Comparison := do
  let left ← operand? a
  let equal ← sense? o
  let right ← operand? b
  some ⟨left, equal, right⟩

/-- A disjunction of conjunctions: `AND` binds tighter than `OR`. -/
abbrev Formula := List (List Comparison)

def parse : List Token → Option Formula
  | [a, o, b] => (comparison? a o b).map fun c => [[c]]
  | a :: o :: b :: .and :: ts => do
      let c ← comparison? a o b
      match ← parse ts with
      | conj :: disj => some ((c :: conj) :: disj)
      | [] => none
  | a :: o :: b :: .or :: ts => do
      let c ← comparison? a o b
      let disj ← parse ts
      some ([c] :: disj)
  | _ => none

/-! ## Evaluation over the columns of a record type -/

section Columns

variable {α : Type} (column : String → Option (α → String))

/-- A comparison the store can answer: every key path is a column, and at least one side is
    one. -/
def Comparison.supported (c : Comparison) : Bool :=
  match c.left, c.right with
  | .key m, .key n => (column m).isSome && (column n).isSome
  | .key m, .text _ => (column m).isSome
  | .text _, .key n => (column n).isSome
  | .text _, .text _ => false

def Operand.eval (a : α) : Operand → String
  | .key n => (column n).elim "" (· a)
  | .text s => s

def Comparison.eval (a : α) (c : Comparison) : Bool :=
  decide (c.left.eval column a = c.right.eval column a) == c.equal

def Formula.eval (f : Formula) (a : α) : Bool := f.any fun conj => conj.all (·.eval column a)

/-- The predicate a format string denotes; `none` where the store raises. -/
def predicate (format : String) : Option (α → Bool) := do
  let ts ← lex .gap format.toList
  let f ← parse ts
  if f.all (fun conj => conj.all (·.supported column)) then some (Formula.eval column f) else none

end Columns

/-! ## Quoting a text that needs no escaping -/

/-- A text that a quoted literal carries unchanged: no quote and no escape in it. -/
def Plain (s : String) : Prop := ∀ c ∈ s.toList, c ≠ '\'' ∧ c ≠ '\\'

instance (s : String) : Decidable (Plain s) := List.decidableBAll _ _

theorem lex_quoted_plain {q : Char} (hq : q ≠ '\\') (cs rest t : List Char)
    (h : ∀ c ∈ cs, c ≠ q ∧ c ≠ '\\') :
    lex (.quoted q t) (cs ++ q :: rest)
      = (lex .gap rest).map (.text (String.ofList (t ++ cs)) :: ·) := by
  induction cs generalizing t with
  | nil =>
    simp only [List.nil_append, List.append_nil, lex, if_neg hq, if_pos]
    cases lex .gap rest <;> rfl
  | cons c cs ih =>
    obtain ⟨hc, hcs⟩ := List.forall_mem_cons.mp h
    rw [List.cons_append, lex, if_neg hc.2, if_neg hc.1, ih (t ++ [c]) hcs, List.append_assoc]
    rfl

/-- A key path: a word that is not a keyword. -/
structure IsKey (k : String) : Prop where
  word : ∀ c ∈ k.toList, classify c = .word
  ne_nil : k.toList ≠ []
  token : wordToken k.toList = .key k

theorem lex_word (cs rest w : List Char) (h : ∀ c ∈ cs, classify c = .word) :
    lex (.word w) (cs ++ rest) = lex (.word (w ++ cs)) rest := by
  induction cs generalizing w with
  | nil => simp
  | cons c cs ih =>
    obtain ⟨hc, hcs⟩ := List.forall_mem_cons.mp h
    rw [List.cons_append, lex, hc]
    simp only
    rw [ih (w ++ [c]) hcs, List.append_assoc]
    rfl

/-- The text a program writes to compare a key path with a literal. -/
def equalsText (k s : String) : List Char := k.toList ++ " = '".toList ++ (s.toList ++ ['\''])

/-- Up to the opening quote the text is what it looks like. -/
theorem lex_equalsText {k : String} (hk : IsKey k) (s : String) :
    lex .gap (equalsText k s)
      = (lex (.quoted '\'' []) (s.toList ++ ['\''])).map ([.key k, .eq] ++ ·) := by
  obtain ⟨c, cs, hcs⟩ := List.exists_cons_of_ne_nil hk.ne_nil
  have hword : ∀ d ∈ c :: cs, classify d = .word := hcs ▸ hk.word
  have hc : classify c = .word := hword c (by simp)
  have hrest : ∀ d ∈ cs, classify d = .word := fun d hd => hword d (by simp [hd])
  have htok : wordToken (c :: cs) = .key k := hcs ▸ hk.token
  have hs : classify ' ' = .space := by decide
  have he : classify '=' = .sign := by decide
  have hq : classify '\'' = .quote := by decide
  have hspace : ∀ rest, lex (.word (c :: cs)) (' ' :: rest)
      = emit (.word (c :: cs)) (lex .gap rest) := by
    intro rest
    rw [lex, hs]
  have hopen : ∀ rest, lex .gap ('=' :: ' ' :: '\'' :: rest)
      = (lex (.quoted '\'' []) rest).map (.eq :: ·) := by
    intro rest
    simp only [lex, hs, he, hq]
    cases lex (.quoted '\'' []) rest <;> rfl
  unfold equalsText
  rw [hcs, List.cons_append, List.cons_append, lex, hc]
  simp only
  rw [List.append_assoc, lex_word _ _ _ hrest]
  show lex (.word (c :: cs)) (' ' :: '=' :: ' ' :: '\'' :: (s.toList ++ ['\''])) = _
  rw [hspace, hopen]
  cases lex (.quoted '\'' []) (s.toList ++ ['\'']) with
  | none => rfl
  | some ts => simp [emit, flush, htok]

/-- **A plain text is quoted faithfully**: the predicate is equality with that very text. -/
theorem predicate_quoted {α : Type} {column : String → Option (α → String)} {k s : String}
    {col : α → String} (hk : IsKey k) (hcol : column k = some col) (hs : Plain s) :
    ∃ p, predicate column (String.ofList (equalsText k s)) = some p ∧
      ∀ a, p a = decide (col a = s) := by
  have hlex : lex .gap (equalsText k s) = some [.key k, .eq, .text s] := by
    rw [lex_equalsText hk, lex_quoted_plain (by decide) s.toList [] [] hs]
    simp [lex, flush]
  refine ⟨Formula.eval column [[⟨.key k, true, .text s⟩]], ?_, fun a => ?_⟩
  · simp [predicate, hlex, parse, comparison?, operand?, sense?, Comparison.supported, hcol]
  · simp [Formula.eval, Comparison.eval, Operand.eval, hcol]

/-! ## Any other text is not among the literals

`held m` counts the characters of the literal a mode has open. Every literal of the output was
held at some time, and closing it cost one more character. -/

def held : Mode → Nat
  | .quoted _ t | .escaped _ t => t.length
  | _ => 0

def texts (ts : List Token) : List String :=
  ts.filterMap fun | .text s => some s | _ => none

@[simp] theorem texts_append (ts us : List Token) : texts (ts ++ us) = texts ts ++ texts us :=
  List.filterMap_append

@[simp] theorem texts_cons_text (s : String) (ts : List Token) :
    texts (.text s :: ts) = s :: texts ts := rfl

/-- Outside a literal nothing is held, so what a mode leaves behind has no literal in it. -/
theorem texts_flush {m : Mode} {ts : List Token} (h : flush m = some ts) : texts ts = [] := by
  cases m with
  | gap => cases h; rfl
  | word w =>
    simp only [flush, Option.some.injEq] at h
    subst h
    unfold wordToken
    split
    · rfl
    · split <;> rfl
  | sign w =>
    simp only [flush, Option.map_eq_some_iff] at h
    obtain ⟨t, ht, rfl⟩ := h
    unfold signToken at ht
    repeat' split at ht
    all_goals first | cases ht; rfl | cases ht
  | quoted q t => cases h
  | escaped q t => cases h

theorem mem_texts_emit {m : Mode} {r : Option (List Token)} {ts : List Token} {s : String}
    (h : emit m r = some ts) (hs : s ∈ texts ts) : ∃ us, r = some us ∧ s ∈ texts us := by
  unfold emit at h
  cases hf : flush m with
  | none => rw [hf] at h; cases h
  | some fs =>
    cases r with
    | none => rw [hf] at h; cases h
    | some us =>
      rw [hf] at h
      cases h
      rw [texts_append, texts_flush hf, List.nil_append] at hs
      exact ⟨us, rfl, hs⟩

/-- **Lexing only shortens**: a literal of the output, with its closing quote, fits in what the
    mode held and what was left to read. -/
theorem length_lt_of_mem_texts (cs : List Char) : ∀ {m : Mode} {ts : List Token} {s : String},
    lex m cs = some ts → s ∈ texts ts → s.length < held m + cs.length := by
  induction cs with
  | nil =>
    intro m ts s h hs
    rw [lex] at h
    rw [texts_flush h] at hs
    cases hs
  | cons c cs ih =>
    intro m ts s h hs
    -- Every branch hands over to a mode that holds at most one character more.
    have next : ∀ {m' : Mode}, held m' ≤ held m + 1 → lex m' cs = some ts →
        s.length < held m + (c :: cs).length := by
      intro m' hm' h'
      have := ih h' hs
      simp only [List.length_cons]
      omega
    have next' : ∀ {m' m'' : Mode}, held m' = 0 → emit m'' (lex m' cs) = some ts →
        s.length < held m + (c :: cs).length := by
      intro m' m'' hm' h'
      obtain ⟨us, hus, hs'⟩ := mem_texts_emit h' hs
      have := ih hus hs'
      simp only [List.length_cons]
      omega
    cases m with
    | quoted q t =>
      rw [lex] at h
      split at h
      · exact next (by simp [held]) h
      · split at h
        · obtain ⟨us, hus, hs'⟩ := mem_texts_emit h hs
          rw [Option.map_eq_some_iff] at hus
          obtain ⟨vs, hvs, rfl⟩ := hus
          rw [texts_cons_text] at hs'
          rcases List.mem_cons.mp hs' with rfl | hs''
          · simp [held]
          · have := ih hvs hs''
            simp only [held, List.length_cons] at *
            omega
        · exact next (by simp [held]) h
    | escaped q t => rw [lex] at h; exact next (by simp [held]) h
    | gap =>
      rw [lex] at h
      split at h
      · exact next (by simp [held]) h
      · exact next (by simp [held]) h
      · exact next (by simp [held]) h
      · exact next (by simp [held]) h
      · cases h
    | word w =>
      rw [lex] at h
      split at h
      · exact next (by simp [held]) h
      · exact next' rfl h
      · exact next' rfl h
      · exact next' rfl h
      · cases h
    | sign w =>
      rw [lex] at h
      split at h
      · exact next (by simp [held]) h
      · exact next' rfl h
      · exact next' rfl h
      · exact next' rfl h
      · cases h

/-- When the bound is met exactly, the literal is the whole text, read without an escape and
    without an earlier quote. -/
theorem plain_of_length_eq {q : Char} (cs : List Char) : ∀ {t : List Char} {ts : List Token}
    {s : String}, lex (.quoted q t) cs = some ts → s ∈ texts ts →
    s.length + 1 = t.length + cs.length →
    ∃ l, cs = l ++ [q] ∧ s = String.ofList (t ++ l) ∧ ∀ c ∈ l, c ≠ q ∧ c ≠ '\\' := by
  induction cs with
  | nil => intro t ts s h; rw [lex] at h; cases h
  | cons c cs ih =>
    intro t ts s h hs hlen
    rw [lex] at h
    split at h
    · -- An escape drops a character, so the bound cannot be met.
      have := length_lt_of_mem_texts cs h hs
      simp only [held, List.length_cons] at *
      omega
    · next hesc =>
      split at h
      · next hcq =>
        subst hcq
        obtain ⟨us, hus, hs'⟩ := mem_texts_emit h hs
        rw [Option.map_eq_some_iff] at hus
        obtain ⟨vs, hvs, rfl⟩ := hus
        rw [texts_cons_text] at hs'
        rcases List.mem_cons.mp hs' with rfl | hs''
        · -- The literal closed here: nothing may be left to read.
          rw [String.length_ofList, List.length_cons] at hlen
          have : cs = [] := List.length_eq_zero_iff.mp (by omega)
          exact ⟨[], by simp [this], by simp, by simp⟩
        · have := length_lt_of_mem_texts cs hvs hs''
          simp only [held, List.length_cons] at *
          omega
      · next hcq =>
        have hlen' : s.length + 1 = (t ++ [c]).length + cs.length := by
          simp only [List.length_append, List.length_cons, List.length_nil] at hlen ⊢
          omega
        obtain ⟨l, rfl, rfl, hl⟩ := ih h hs hlen'
        refine ⟨c :: l, rfl, by rw [List.append_assoc]; rfl, fun d hd => ?_⟩
        rcases List.mem_cons.mp hd with rfl | hd
        · exact ⟨hcq, hesc⟩
        · exact hl d hd

/-- **A text that is not plain is not among the literals it turns into.** -/
theorem not_mem_texts_of_not_plain {k s : String} (hk : IsKey k) {ts : List Token}
    (h : lex .gap (equalsText k s) = some ts) (hs : ¬ Plain s) : s ∉ texts ts := by
  intro hmem
  rw [lex_equalsText hk, Option.map_eq_some_iff] at h
  obtain ⟨us, hus, rfl⟩ := h
  have hmem' : s ∈ texts us := by simpa [texts] using hmem
  have hlen : s.length + 1 = ([] : List Char).length + (s.toList ++ ['\'']).length := by
    simp [String.length_toList]
  obtain ⟨l, hl, -, hplain⟩ := plain_of_length_eq _ hus hmem' hlen
  have heq : s.toList = l := List.append_cancel_right hl
  exact hs (by rw [Plain, heq]; exact hplain)

/-! ## What a predicate can tell apart -/

def Operand.texts : Operand → List String
  | .text s => [s]
  | .key _ => []

/-- The literals of a formula. -/
def Formula.texts (f : Formula) : List String :=
  f.flatten.flatMap fun c => c.left.texts ++ c.right.texts

theorem texts_of_operand {t : Token} {o : Operand} (h : operand? t = some o) {s : String}
    (hs : s ∈ o.texts) : t = .text s := by
  cases t <;> cases h
  case key n => cases hs
  case text r => rw [List.mem_singleton.mp hs]

theorem texts_of_comparison {a o b : Token} {c : Comparison} (h : comparison? a o b = some c)
    {s : String} (hs : s ∈ c.left.texts ++ c.right.texts) : s ∈ texts [a, o, b] := by
  simp only [comparison?, Option.bind_eq_bind, Option.bind_eq_some_iff] at h
  obtain ⟨left, hleft, equal, -, right, hright, h⟩ := h
  cases h
  have hmem : ∀ t ∈ [a, o, b], t = .text s → s ∈ texts [a, o, b] := fun t ht hts =>
    List.mem_filterMap.mpr ⟨t, ht, by rw [hts]⟩
  rcases List.mem_append.mp hs with hs | hs
  · exact hmem a (by simp) (texts_of_operand hleft hs)
  · exact hmem b (by simp) (texts_of_operand hright hs)

/-- Parsing invents no literal. -/
theorem texts_of_parse {ts : List Token} : ∀ {f : Formula}, parse ts = some f →
    ∀ s ∈ f.texts, s ∈ texts ts := by
  have hsplit : ∀ (a o b j : Token) (ts : List Token) (s : String),
      s ∈ texts [a, o, b] ∨ s ∈ texts ts → s ∈ texts (a :: o :: b :: j :: ts) := by
    intro a o b j ts s h
    rw [show a :: o :: b :: j :: ts = [a, o, b] ++ ([j] ++ ts) from rfl, texts_append, texts_append]
    simp only [List.mem_append]
    exact h.imp id Or.inr
  induction ts using parse.induct with
  | case1 a o b =>
    intro f h s hs
    simp only [parse, Option.map_eq_some_iff] at h
    obtain ⟨c, hc, rfl⟩ := h
    exact texts_of_comparison hc (by simpa [Formula.texts] using hs)
  | case2 a o b ts ih =>
    intro f h s hs
    simp only [parse, Option.bind_eq_bind, Option.bind_eq_some_iff] at h
    obtain ⟨c, hc, g, hg, h⟩ := h
    cases g with
    | nil => cases h
    | cons conj disj =>
      cases h
      refine hsplit _ _ _ _ _ _ ?_
      rw [show Formula.texts ((c :: conj) :: disj)
        = c.left.texts ++ c.right.texts ++ Formula.texts (conj :: disj) by
          simp [Formula.texts], List.mem_append] at hs
      exact hs.imp (texts_of_comparison hc) (ih hg s)
  | case3 a o b ts ih =>
    intro f h s hs
    simp only [parse, Option.bind_eq_bind, Option.bind_eq_some_iff] at h
    obtain ⟨c, hc, g, hg, h⟩ := h
    cases h
    refine hsplit _ _ _ _ _ _ ?_
    rw [show Formula.texts ([c] :: g) = c.left.texts ++ c.right.texts ++ Formula.texts g by
      simp [Formula.texts], List.mem_append] at hs
    exact hs.imp (texts_of_comparison hc) (ih hg s)
  | case4 ts h1 h2 h3 =>
    intro f h
    rw [parse] at h
    · cases h
    all_goals assumption

section Separation

variable {α : Type} {column : String → Option (α → String)}

/-- No column of the row holds one of the texts. -/
def Avoids (column : String → Option (α → String)) (T : List String) (a : α) : Prop :=
  ∀ n col, column n = some col → col a ∉ T

/-- The same columns agree with each other in both rows. -/
def SameShape (column : String → Option (α → String)) (a b : α) : Prop :=
  ∀ m n col col', column m = some col → column n = some col' → (col a = col' a ↔ col b = col' b)

theorem Comparison.eval_eq {c : Comparison} (hc : c.supported column = true) {a b : α}
    (ha : Avoids column (c.left.texts ++ c.right.texts) a)
    (hb : Avoids column (c.left.texts ++ c.right.texts) b) (hab : SameShape column a b) :
    c.eval column a = c.eval column b := by
  obtain ⟨left, equal, right⟩ := c
  suffices h :
      left.eval column a = right.eval column a ↔ left.eval column b = right.eval column b by
    simp only [Comparison.eval, h]
  -- One case per pair of operands: two columns, or a column and a literal it never equals.
  cases left with
  | key m =>
    cases right with
    | key n =>
      simp only [Comparison.supported, Bool.and_eq_true, Option.isSome_iff_exists] at hc
      obtain ⟨⟨col, hm⟩, col', hn⟩ := hc
      simpa [Operand.eval, hm, hn] using hab m n col col' hm hn
    | text s =>
      simp only [Comparison.supported, Option.isSome_iff_exists] at hc
      obtain ⟨col, hm⟩ := hc
      have ha' := ha m col hm
      have hb' := hb m col hm
      simp only [Operand.texts, List.nil_append, List.mem_singleton] at ha' hb'
      simp [Operand.eval, hm, ha', hb']
  | text s =>
    cases right with
    | key n =>
      simp only [Comparison.supported, Option.isSome_iff_exists] at hc
      obtain ⟨col, hn⟩ := hc
      have ha' := ha n col hn
      have hb' := hb n col hn
      simp only [Operand.texts, List.append_nil, List.mem_singleton] at ha' hb'
      simp [Operand.eval, hn, Ne.symm ha', Ne.symm hb']
    | text r => simp [Comparison.supported] at hc

theorem Formula.eval_eq {f : Formula}
    (hf : f.all (fun conj => conj.all (·.supported column)) = true) {a b : α}
    (ha : Avoids column f.texts a) (hb : Avoids column f.texts b) (hab : SameShape column a b) :
    f.eval column a = f.eval column b := by
  have hmono : ∀ conj ∈ f, ∀ c ∈ conj, ∀ s ∈ c.left.texts ++ c.right.texts, s ∈ f.texts :=
    fun conj hconj c hc s hs =>
      List.mem_flatMap.mpr ⟨c, List.mem_flatten.mpr ⟨conj, hconj, hc⟩, hs⟩
  have hcmp : ∀ conj ∈ f, ∀ c ∈ conj, c.eval column a = c.eval column b :=
    fun conj hconj c hc => Comparison.eval_eq
      (List.all_eq_true.mp (List.all_eq_true.mp hf conj hconj) c hc)
      (fun n col hn h => ha n col hn (hmono conj hconj c hc _ h))
      (fun n col hn h => hb n col hn (hmono conj hconj c hc _ h)) hab
  rw [Bool.eq_iff_iff]
  simp only [Formula.eval, List.any_eq_true, List.all_eq_true]
  exact exists_congr fun conj => and_congr_right fun hconj =>
    forall₂_congr fun c hc => by rw [hcmp conj hconj c hc]

/-- **What quoting a text that is not plain denotes, if it denotes anything, cannot single the
    text out**: rows that avoid its finitely many literals, of which the text is not one, are
    all treated alike. -/
theorem predicate_of_not_plain {k s : String} (hk : IsKey k) (hs : ¬ Plain s) {p : α → Bool}
    (h : predicate column (String.ofList (equalsText k s)) = some p) :
    ∃ T : List String, s ∉ T ∧ ∀ a b, Avoids column T a → Avoids column T b →
      SameShape column a b → p a = p b := by
  simp only [predicate, String.toList_ofList, Option.bind_eq_bind, Option.bind_eq_some_iff] at h
  obtain ⟨ts, hts, f, hf, h⟩ := h
  split at h
  · next hsup =>
    cases h
    refine ⟨f.texts, fun hmem => ?_, fun a b ha hb hab => Formula.eval_eq hsup ha hb hab⟩
    exact not_mem_texts_of_not_plain hk hts hs (texts_of_parse hf s hmem)
  · cases h

end Separation

/-- There is always a text that none of finitely many others is. -/
theorem exists_fresh (T : List String) : ∃ s : String, s ∉ T := by
  obtain ⟨s, hs⟩ := Infinite.exists_notMem_finset T.toFinset
  exact ⟨s, by simpa using hs⟩

end Lib.Predicate
