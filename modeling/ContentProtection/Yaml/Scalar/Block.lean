import ContentProtection.Yaml.Character

/-!
# Block scalars

Scalars written as indented lines below a header. A literal scalar keeps its line breaks; in a folded one a single break between two lines that start with no blank becomes a space. The header says what becomes of the last line's break and of the blank lines after it.
-/

namespace ContentProtection.Yaml

inductive Chomping
  /-- The last break and the blank lines go. -/
  | strip
  /-- The last break stays. -/
  | clip
  /-- The last break and the blank lines stay. -/
  | keep
  deriving DecidableEq, Repr

namespace Block

structure Header where
  chomping : Chomping := .clip
  /-- How much further than the collection around it the scalar is indented, when the header says so. -/
  indentation? : Option Nat := none
  deriving DecidableEq, Repr

/-- A line with the break that ends it, which is empty at the end of the text, and those of the blank lines after it. -/
structure Line where
  text : List Char
  lineBreak : List Char
  blankLines : List (List Char)
  deriving DecidableEq, Repr

/-! ### Header -/

def readChomping? : List Char → Option (Chomping × List Char)
  | '+' :: rest => some (.keep, rest)
  | '-' :: rest => some (.strip, rest)
  | _ => none

/-- The inner failure is that of a zero, which is no indentation. -/
def readIndentation? : List Char → Option (Option (Nat × List Char))
  | [] => none
  | c :: rest => if c.isDigit then some (if c = '0' then none else some (c.toNat - 48, rest)) else none

/-- Reads the chomping and the indentation, in either order. -/
def readIndicators (text : List Char) : Option (Header × List Char) :=
  match readChomping? text with
  | some (chomping, rest) =>
    match readIndentation? rest with
    | none => some ({ chomping }, rest)
    | some indentation => indentation.map fun (indentation, rest) => (⟨chomping, some indentation⟩, rest)
  | none =>
    match readIndentation? text with
    | none => some ({}, text)
    | some none => none
    | some (some (indentation, rest)) =>
      match readChomping? rest with
      | some (chomping, rest) => some (⟨chomping, some indentation⟩, rest)
      | none => some ({ indentation? := some indentation }, rest)

/-- The rest of a line that holds blanks and a comment at most, from its end on. -/
def skipToLineEnd? (text : List Char) : Option (List Char) :=
  let rest := text.dropWhile isBlank
  let rest := if rest.head? = some '#' then rest.dropWhile (!isBreak ·) else rest
  if endsLine rest then some rest else none

/-- The text behind a line break, if one stands here. -/
def skipBreak (text : List Char) : List Char :=
  match readBreak? text with
  | some (_, rest) => rest
  | none => text

def readHeader (text : List Char) : Option (Header × List Char) := do
  let (header, rest) ← readIndicators text
  let rest ← skipToLineEnd? rest
  pure (header, skipBreak rest)

/-! ### Lines -/

/-- The breaks of blank lines, and the indentation before what follows them. -/
structure BlankLines where
  breaks : List (List Char) := []
  column : Nat := 0
  /-- The widest indentation, the last line's included. -/
  widest : Nat := 0
  deriving DecidableEq, Repr

/-- Reads blank lines and the indentation of the line after them, up to the scalar's own where that is known. No tab may stand in the indentation. -/
def readBlankLines (indent? : Option Nat) (lines : BlankLines) (text : List Char) : Option (BlankLines × List Char) :=
  match hbreak : readBreak? text with
  | some (written, rest) =>
    have := length_of_readBreak? hbreak
    readBlankLines indent? { lines with breaks := lines.breaks ++ [written], column := 0 } rest
  | none =>
    match text with
    | [] => some (lines, [])
    | c :: rest =>
      if indent?.any (· ≤ lines.column) then some (lines, c :: rest)
      else if c = ' ' then
        readBlankLines indent?
          { lines with column := lines.column + 1, widest := max lines.widest (lines.column + 1) } rest
      else if c = '\t' then none
      else some (lines, c :: rest)
termination_by text.length

theorem length_of_readBlankLines {indent? : Option Nat} {lines lines' : BlankLines} {text rest : List Char}
    (hread : readBlankLines indent? lines text = some (lines', rest)) : rest.length ≤ text.length := by
  fun_induction readBlankLines indent? lines text with
  | case1 lines text written after hbreak hshorter ih => exact Nat.le_trans (ih hread) (Nat.le_of_lt hshorter)
  | case4 lines rest hbreak hindent ih => exact Nat.le_succ_of_le (ih hread)
  | case5 => simp at hread
  | case2 | case3 | case6 =>
    simp only [Option.some.injEq, Prod.mk.injEq] at hread
    simp [hread.2]

/-- Reads the lines at the given indentation. -/
def readLines (indent column : Nat) (text : List Char) : Option (List Line × List Char) :=
  if column ≠ indent then some ([], text)
  else match text with
    | [] => some ([], [])
    | c :: rest =>
      let content := (c :: rest).takeWhile (!isBreak ·)
      match hbreak : readBreak? ((c :: rest).dropWhile (!isBreak ·)) with
      | none => some ([⟨content, [], []⟩], [])
      | some (written, after) =>
        match hlines : readBlankLines (some indent) {} after with
        | none => none
        | some (lines, next) =>
          have : next.length < (c :: rest).length :=
            Nat.lt_of_le_of_lt (length_of_readBlankLines hlines)
              (Nat.lt_of_lt_of_le (length_of_readBreak? hbreak) (List.dropWhile_sublist _).length_le)
          (readLines indent lines.column next).map fun (further, rest) =>
            (⟨content, written, lines.breaks⟩ :: further, rest)
termination_by text.length
decreasing_by all_goals (simp only [List.length_cons] at *; omega)

/-! ### Value -/

def Line.startsBlank (line : Line) : Bool := line.text.head?.any isBlank

/-- What stands between a line and the next one. -/
def separator (isFolded : Bool) (line next : Line) : List Char :=
  if isFolded && line.lineBreak == ['\n'] && !line.startsBlank && !next.startsBlank then
    if line.blankLines.isEmpty then [' '] else line.blankLines.flatten
  else line.lineBreak ++ line.blankLines.flatten

/-- What becomes of the end of the last line. -/
def Chomping.ending (chomping : Chomping) (lineBreak : List Char) (blankLines : List (List Char)) : List Char :=
  match chomping with
  | .strip => []
  | .clip => lineBreak
  | .keep => lineBreak ++ blankLines.flatten

def value (isFolded : Bool) (chomping : Chomping) : List Line → List Char
  | [] => []
  | [line] => line.text ++ Chomping.ending chomping line.lineBreak line.blankLines
  | line :: next :: rest =>
    line.text ++ separator isFolded line next ++ value isFolded chomping (next :: rest)

end Block

/-- Reads a block scalar from behind its indicator; `minimum` is the least indentation of a line in the collection around it. -/
def readBlock (isFolded : Bool) (minimum : Nat) (text : List Char) : Option (List Char × List Char) := do
  let (header, rest) ← Block.readHeader text
  let indent? := header.indentation?.map (minimum - 1 + ·)
  let (before, rest) ← Block.readBlankLines indent? {} rest
  let indent := indent?.getD (max (max before.widest minimum) 1)
  let (lines, rest) ← Block.readLines indent before.column rest
  let value := if lines.isEmpty then Block.Chomping.ending header.chomping [] before.breaks
    else before.breaks.flatten ++ Block.value isFolded header.chomping lines
  pure (value, rest)

end ContentProtection.Yaml
