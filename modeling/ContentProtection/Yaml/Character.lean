/-!
# Character classes of YAML
-/

namespace ContentProtection.Yaml

/-- Space and tab. -/
def isBlank (c : Char) : Bool := c == ' ' || c == '\t'

/-- Line feed, carriage return, next line, line separator and paragraph separator. -/
def isBreak (c : Char) : Bool :=
  c == '\n' || c == '\r' || c == '\x85' || c == '\u2028' || c == '\u2029'

/-- Whether a word ends here: at a blank, a line break or the end. -/
def endsWord : List Char → Bool
  | [] => true
  | c :: _ => isBlank c || isBreak c

/-- Whether a line ends here. -/
def endsLine : List Char → Bool
  | [] => true
  | c :: _ => isBreak c

/-- Letters, digits, hyphen and underscore, of ASCII. -/
def isWordCharacter (c : Char) : Bool := c.isAlphanum || c == '-' || c == '_'

/-- What a document may hold: no control characters but tab and line breaks. -/
def isAllowed (c : Char) : Bool :=
  let code := c.toNat
  code == 0x09 || code == 0x0A || code == 0x0D || (0x20 ≤ code && code ≤ 0x7E) || code == 0x85
    || (0xA0 ≤ code && code ≤ 0xFFFD) || 0x10000 ≤ code

/-- What is written as it is: all that a document may hold but tab, carriage return, next line and the byte order mark. -/
def isPrintable (c : Char) : Bool :=
  let code := c.toNat
  code == 0x0A || (0x20 ≤ code && code ≤ 0x7E) || (0xA0 ≤ code && code ≤ 0xFFFD && code != 0xFEFF) || 0x10000 ≤ code

/-- Splits a line break off, as it stands in text: the line feed for every break but the two separators, which stay. -/
def readBreak? : List Char → Option (List Char × List Char)
  | '\r' :: '\n' :: rest => some (['\n'], rest)
  | c :: rest =>
    if c = '\u2028' ∨ c = '\u2029' then some ([c], rest)
    else if isBreak c then some (['\n'], rest)
    else none
  | [] => none

theorem length_of_readBreak? {text written rest : List Char} (hread : readBreak? text = some (written, rest)) :
    rest.length < text.length := by
  unfold readBreak? at hread
  split at hread
  · simp only [Option.some.injEq, Prod.mk.injEq] at hread
    rw [← hread.2]
    simp only [List.length_cons]
    omega
  · split at hread
    · simp only [Option.some.injEq, Prod.mk.injEq] at hread
      rw [← hread.2, List.length_cons]
      omega
    · split at hread <;> simp only [Option.some.injEq, Prod.mk.injEq, reduceCtorEq] at hread
      rw [← hread.2, List.length_cons]
      omega
  · simp at hread

theorem isBreak_of_readBreak?_eq_none {c : Char} {rest : List Char} (hread : readBreak? (c :: rest) = none) :
    isBreak c = false := by
  by_cases hc : isBreak c
  · unfold readBreak? at hread
    split at hread
    · simp at hread
    · rename_i heq
      obtain ⟨rfl, rfl⟩ := List.cons.inj heq
      split at hread <;> simp_all
    · simp_all
  · simpa using hc

/-- Whether a document marker (three times the same mark) stands here. -/
def startsMarker (mark : Char) : List Char → Bool
  | a :: b :: c :: rest => a == mark && b == mark && c == mark && endsWord rest
  | _ => false

/-- Whether a document starts or ends here, when this is the start of a line. -/
def startsDocumentMarker (text : List Char) : Bool := startsMarker '-' text || startsMarker '.' text

end ContentProtection.Yaml
