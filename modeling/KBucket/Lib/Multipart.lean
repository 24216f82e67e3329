import Mathlib.Data.List.Basic

/-!
# Multipart bodies

A body is read by lines, which CRLF ends. The first is the delimiter, two hyphens and the
boundary; the header lines of a part follow, a blank line, and the content up to the next line
that is the delimiter again or, with two hyphens more, closes the body. The CRLF before a
delimiter belongs to it. What comes after the closing delimiter is ignored; a body without one is
no body.

A header has a name, a colon and a value, and a value may have parameters, each after a
semicolon, whose own values may be quoted.
-/

namespace Lib.Multipart

abbrev Bytes := List UInt8

def cr : UInt8 := 0x0D
def lf : UInt8 := 0x0A
def hyphens : Bytes := [0x2D, 0x2D]
def colon : UInt8 := 0x3A
def semicolon : UInt8 := 0x3B
def space : UInt8 := 0x20
def equals : UInt8 := 0x3D
def quote : UInt8 := 0x22

def crlf : Bytes := [cr, lf]

/-! ## Lines -/

/-- A byte more at the front of the first line. -/
def prepend (b : UInt8) : List Bytes → List Bytes
  | [] => [[b]]
  | line :: lines => (b :: line) :: lines

def lines : Bytes → List Bytes
  | [] => [[]]
  | b :: bs =>
    match bs with
    | [] => [[b]]
    | c :: cs => if b = cr ∧ c = lf then [] :: lines cs else prepend b (lines (c :: cs))

/-- The bytes that the lines were cut from. -/
def unlines : List Bytes → Bytes
  | [] => []
  | [line] => line
  | line :: rest => line ++ crlf ++ unlines rest

/-! ## The parser -/

structure Part where
  headers : List Bytes
  content : Bytes
  deriving DecidableEq, Repr

/-- The lines up to the blank one, and those after it. -/
def headerLines : List Bytes → Option (List Bytes × List Bytes)
  | [] => none
  | line :: rest =>
    if line = [] then some ([], rest)
    else (headerLines rest).map fun (headers, rest) => (line :: headers, rest)

/-- How a content ends: with the body, or before the lines of another part. -/
inductive Ending where
  | close
  | next (rest : List Bytes)
  deriving DecidableEq, Repr

/-- The lines of the content, up to one that is a delimiter. -/
def contentLines (delimiter : Bytes) : List Bytes → Option (List Bytes × Ending)
  | [] => none
  | line :: rest =>
    if line = delimiter ++ hyphens then some ([], .close)
    else if line = delimiter then some ([], .next rest)
    else (contentLines delimiter rest).map fun (content, ending) => (line :: content, ending)

/-- The parts, given the lines after a delimiter; every part takes at least one line. -/
def parts (delimiter : Bytes) : Nat → List Bytes → Option (List Part)
  | 0, _ => none
  | fuel + 1, rest => do
    let (headers, rest) ← headerLines rest
    let (content, ending) ← contentLines delimiter rest
    let part : Part := { headers, content := unlines content }
    match ending with
    | .close => some [part]
    | .next rest => return part :: (← parts delimiter fuel rest)

def parse (boundary body : Bytes) : Option (List Part) :=
  match lines body with
  | [] => none
  | first :: rest =>
    if first = hyphens ++ boundary then parts (hyphens ++ boundary) rest.length rest else none

/-! ## Headers -/

def lower (b : UInt8) : UInt8 := if 0x41 ≤ b ∧ b ≤ 0x5A then b + 0x20 else b

/-- The value of the header with a name, which is compared without regard to case. -/
def field (name : Bytes) (headers : List Bytes) : Option Bytes :=
  (headers.find? fun header =>
    (header.takeWhile (· ≠ colon)).map lower == name.map lower).map fun header =>
      ((header.dropWhile (· ≠ colon)).drop 1).dropWhile (· = space)

/-- The parameters of a value, given what follows its first word. -/
def parameters : Nat → Bytes → List (Bytes × Bytes)
  | 0, _ => []
  | fuel + 1, bs =>
    let bs := bs.dropWhile fun b => b = semicolon ∨ b = space
    let key := bs.takeWhile (· ≠ equals)
    match (bs.dropWhile (· ≠ equals)).drop 1 with
    | [] => []
    | b :: rest =>
      if b = quote then
        (key, rest.takeWhile (· ≠ quote)) ::
          parameters fuel ((rest.dropWhile (· ≠ quote)).drop 1)
      else
        (key, (b :: rest).takeWhile (· ≠ semicolon)) ::
          parameters fuel ((b :: rest).dropWhile (· ≠ semicolon))

def parameter (key value : Bytes) : Option Bytes :=
  (parameters value.length (value.dropWhile (· ≠ semicolon))).lookup key

/-! ## Cutting and joining lines -/

theorem lines_cons_cons (b c : UInt8) (cs : Bytes) : lines (b :: c :: cs) =
    if b = cr ∧ c = lf then [] :: lines cs else prepend b (lines (c :: cs)) := by
  rw [lines]

theorem lines_ne_nil (bs : Bytes) : lines bs ≠ [] := by
  induction bs using lines.induct with
  | case1 => simp [lines]
  | case2 b => simp [lines]
  | case3 b c cs h ih => simp [lines, h]
  | case4 b c cs h ih =>
    rw [lines_cons_cons, if_neg h]
    cases hl : lines (c :: cs) with
    | nil => exact absurd hl ih
    | cons line rest => simp [prepend]

theorem prepend_append (b : UInt8) {ls : List Bytes} (h : ls ≠ []) (rest : List Bytes) :
    prepend b (ls ++ rest) = prepend b ls ++ rest := by
  cases ls with
  | nil => exact absurd rfl h
  | cons line ls => rfl

/-- **A CRLF ends a line**, whatever stands on either side of it. -/
theorem lines_append_crlf (a b : Bytes) : lines (a ++ crlf ++ b) = lines a ++ lines b := by
  -- As `lines` reads `a`. Its last byte may be a return, which the one behind it does not complete.
  induction a using lines.induct with
  | case1 =>
    show lines (cr :: lf :: b) = _
    rw [lines_cons_cons, if_pos ⟨rfl, rfl⟩]
    rfl
  | case2 x =>
    show lines (x :: cr :: lf :: b) = _
    rw [lines_cons_cons, if_neg fun h => absurd h.2 (by decide), lines_cons_cons, if_pos ⟨rfl, rfl⟩]
    rfl
  | case3 x y ys h ih =>
    show lines (x :: y :: (ys ++ crlf ++ b)) = _
    rw [lines_cons_cons, if_pos h, ih, lines_cons_cons, if_pos h]
    rfl
  | case4 x y ys h ih =>
    have hne := lines_ne_nil (y :: ys)
    show lines (x :: y :: (ys ++ crlf ++ b)) = _
    rw [lines_cons_cons, if_neg h, lines_cons_cons, if_neg h, ← prepend_append x hne, ← ih]
    rfl

theorem lines_eq_singleton {bs : Bytes} (h : cr ∉ bs) : lines bs = [bs] := by
  induction bs using lines.induct with
  | case1 => rfl
  | case2 b => rfl
  | case3 b c cs hcr ih => exact absurd (by simp [hcr.1]) h
  | case4 b c cs hcr ih =>
    rw [lines_cons_cons, if_neg hcr, ih fun hmem => h (List.mem_cons_of_mem _ hmem)]
    rfl

theorem unlines_cons (line : Bytes) {ls : List Bytes} (h : ls ≠ []) :
    unlines (line :: ls) = line ++ crlf ++ unlines ls := by
  cases ls with
  | nil => exact absurd rfl h
  | cons l ls => rfl

theorem unlines_prepend (b : UInt8) (ls : List Bytes) :
    unlines (prepend b ls) = b :: unlines ls := by
  cases ls with
  | nil => rfl
  | cons line ls =>
    cases ls with
    | nil => rfl
    | cons l ls => rfl

@[simp] theorem unlines_lines (bs : Bytes) : unlines (lines bs) = bs := by
  induction bs using lines.induct with
  | case1 => rfl
  | case2 b => rfl
  | case3 b c cs h ih =>
    rw [lines_cons_cons, if_pos h, unlines_cons _ (lines_ne_nil cs), ih, h.1, h.2]
    rfl
  | case4 b c cs h ih => rw [lines_cons_cons, if_neg h, unlines_prepend, ih]

/-! ## Parsing a body -/

theorem headerLines_append {headers : List Bytes} (h : ∀ line ∈ headers, line ≠ [])
    (rest : List Bytes) : headerLines (headers ++ [] :: rest) = some (headers, rest) := by
  induction headers with
  | nil => simp [headerLines]
  | cons line headers ih =>
    obtain ⟨hline, hrest⟩ := List.forall_mem_cons.mp h
    simp [headerLines, hline, ih hrest]

theorem contentLines_append {delimiter : Bytes} {content : List Bytes}
    (h : ∀ line ∈ content, line ≠ delimiter ∧ line ≠ delimiter ++ hyphens) (rest : List Bytes) :
    contentLines delimiter (content ++ rest) =
      (contentLines delimiter rest).map fun (lines, ending) => (content ++ lines, ending) := by
  induction content with
  | nil => simp
  | cons line content ih =>
    obtain ⟨hline, hrest⟩ := List.forall_mem_cons.mp h
    rw [List.cons_append, contentLines, if_neg hline.2, if_neg hline.1, ih hrest, Option.map_map]
    rfl

/-- **A content that no delimiter ends is not accepted.** -/
theorem parse_eq_none {boundary : Bytes} {headers content : List Bytes}
    (hheaders : ∀ line ∈ headers, line ≠ [])
    (hcontent : ∀ line ∈ content,
      line ≠ hyphens ++ boundary ∧ line ≠ hyphens ++ boundary ++ hyphens) {body : Bytes}
    (hbody : lines body = (hyphens ++ boundary) :: (headers ++ [] :: content)) :
    parse boundary body = none := by
  -- The lines run out before a delimiter comes.
  have hnone : contentLines (hyphens ++ boundary) content = none := by
    have happend := contentLines_append hcontent []
    rw [List.append_nil] at happend
    rw [happend]
    rfl
  rw [parse, hbody]
  simp only [if_true]
  cases hlen : (headers ++ [] :: content).length with
  | zero => rfl
  | succ fuel => simp [parts, headerLines_append hheaders, hnone]

/-- **A content between its headers and the closing delimiter is what is read.** -/
theorem parse_eq_some {boundary : Bytes} {headers : List Bytes} {content : Bytes}
    (hheaders : ∀ line ∈ headers, line ≠ [])
    (hcontent : ∀ line ∈ lines content,
      line ≠ hyphens ++ boundary ∧ line ≠ hyphens ++ boundary ++ hyphens) {body : Bytes}
    {epilogue : List Bytes}
    (hbody : lines body = (hyphens ++ boundary) :: (headers ++ [] :: (lines content ++
      (hyphens ++ boundary ++ hyphens) :: epilogue))) :
    parse boundary body = some [{ headers, content }] := by
  rw [parse, hbody]
  simp only [if_true]
  cases hlen : (headers ++ [] :: (lines content ++
      (hyphens ++ boundary ++ hyphens) :: epilogue)).length with
  | zero => simp at hlen
  | succ fuel =>
    simp [parts, headerLines_append hheaders, contentLines_append hcontent, contentLines]

end Lib.Multipart
