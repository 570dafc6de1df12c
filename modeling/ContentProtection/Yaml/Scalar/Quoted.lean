import ContentProtection.Text.Hex
import ContentProtection.Yaml.Gap

/-!
# Quoted scalars

Scalars in single quotes, where a quote is written twice, and in double quotes, where a backslash starts an escape. The functions here start behind the opening quote and end behind the closing one. No document marker may stand at the start of a line.
-/

namespace ContentProtection.Yaml

/-- Whether a gap ends at the start of a line on which a document marker stands. -/
def Gap.meetsDocumentMarker (gap : Gap) (text : List Char) : Bool :=
  gap.hasBreak && gap.column == 0 && startsDocumentMarker text

def readSingleQuoted (text : List Char) : Option (List Char × List Char) :=
  match text with
  | [] => none
  | c :: rest =>
    if hc : isBlank c = true ∨ isBreak c = true then
      let next := readGap 0 (c :: rest)
      have : next.2.length < (c :: rest).length := length_readGap_lt 0 rest hc
      if next.1.meetsDocumentMarker next.2 then none
      else (readSingleQuoted next.2).map fun (value, rest) => (next.1.fold ++ value, rest)
    else if c = '\x27' then
      match rest with
      | '\x27' :: rest => (readSingleQuoted rest).map fun (value, rest) => ('\x27' :: value, rest)
      | _ => some ([], rest)
    else (readSingleQuoted rest).map fun (value, rest) => (c :: value, rest)
termination_by text.length
decreasing_by all_goals (simp only [List.length_cons] at *; omega)

/-! ### Escapes -/

/-- The letters of the escapes that stand for one fixed character. -/
def escapes : List (Char × Char) :=
  [('0', '\x00'), ('a', '\x07'), ('b', '\x08'), ('t', '\t'), ('n', '\n'), ('v', '\x0b'), ('f', '\x0c'), ('r', '\r'),
    ('e', '\x1b'), ('"', '"'), ('\\', '\\'), ('N', '\x85'), ('_', '\xa0'), ('L', '\u2028'), ('P', '\u2029')]

/-- Further letters that are read as escapes and never written. -/
def readEscapes : List (Char × Char) := [('\t', '\t'), (' ', ' '), ('/', '/')]

/-- How many hexadecimal digits follow the letter of a numeric escape. -/
def numericEscapes : List (Char × Nat) := [('x', 2), ('u', 4), ('U', 8)]

/-- Reads an escape, from behind the backslash. -/
def readEscape : List Char → Option (Char × List Char)
  | [] => none
  | c :: rest =>
    match (escapes ++ readEscapes).lookup c, numericEscapes.lookup c with
    | some value, _ => some (value, rest)
    | none, some width =>
      let digits := (rest.take width).filterMap Hex.value?
      let code := digits.foldl (fun code digit => 16 * code + digit) 0
      if digits.length = width ∧ code.isValidChar then some (Char.ofNat code, rest.drop width) else none
    | none, none => none

theorem length_of_readEscape {c : Char} {text rest : List Char} (hread : readEscape text = some (c, rest)) :
    rest.length < text.length := by
  unfold readEscape at hread
  split at hread
  · simp at hread
  · split at hread
    · simp only [Option.some.injEq, Prod.mk.injEq] at hread
      rw [← hread.2, List.length_cons]
      omega
    · simp only at hread
      split at hread
      · simp only [Option.some.injEq, Prod.mk.injEq] at hread
        rw [← hread.2, List.length_cons, List.length_drop]
        omega
      · simp at hread
    · simp at hread

/-- A line break behind a backslash goes, and so do the blanks after it. Further breaks stay. -/
def Gap.ofEscapedBreak : Gap where breaks := [[]]

def readDoubleQuoted (text : List Char) : Option (List Char × List Char) :=
  match text with
  | [] => none
  | c :: rest =>
    if hc : isBlank c = true ∨ isBreak c = true then
      let next := readGap 0 (c :: rest)
      have : next.2.length < (c :: rest).length := length_readGap_lt 0 rest hc
      if next.1.meetsDocumentMarker next.2 then none
      else (readDoubleQuoted next.2).map fun (value, rest) => (next.1.fold ++ value, rest)
    else if c = '"' then some ([], rest)
    else if c = '\\' then
      match hbreak : readBreak? rest with
      | some (_, after) =>
        let next := readGapInto 0 Gap.ofEscapedBreak after
        have : next.2.length < (c :: rest).length :=
          Nat.lt_succ_of_lt (Nat.lt_of_le_of_lt (length_readGapInto_le _ _ _) (length_of_readBreak? hbreak))
        if next.1.meetsDocumentMarker next.2 then none
        else (readDoubleQuoted next.2).map fun (value, rest) => (next.1.fold ++ value, rest)
      | none =>
        match hescape : readEscape rest with
        | some (c, rest) =>
          have := length_of_readEscape hescape
          (readDoubleQuoted rest).map fun (value, rest) => (c :: value, rest)
        | none => none
    else (readDoubleQuoted rest).map fun (value, rest) => (c :: value, rest)
termination_by text.length
decreasing_by all_goals (simp only [List.length_cons] at *; omega)

end ContentProtection.Yaml
