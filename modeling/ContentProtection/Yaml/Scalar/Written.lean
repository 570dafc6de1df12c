import ContentProtection.Yaml.Scalar.Quoted
import ContentProtection.Yaml.Spelling
import ContentProtection.Yaml.Token

/-!
# Writing scalars

A text is written plain where that keeps it a text with the same characters, as a literal block where it has line feeds, and else in quotes, double ones only for what needs escapes. Lines are never folded.
-/

namespace ContentProtection.Yaml.Scalar

/-! ### Choice of style -/

/-- Whether two characters that stand side by side satisfy a condition. -/
def anyAdjacent (condition : Char → Char → Bool) : List Char → Bool
  | c :: d :: rest => condition c d || anyAdjacent condition (d :: rest)
  | _ => false

/-- Whether the first characters mean something else than a plain scalar. -/
def startsWithIndicator : List Char → Bool
  | [] => false
  | c :: rest =>
    "#,[]\x7b\x7d&*!|>\x27\"%@\x60".toList.contains c || ("?:-".toList.contains c && endsWord rest)
      || "---".toList.isPrefixOf (c :: rest) || "...".toList.isPrefixOf (c :: rest)

/-- Whether a key or a comment would be seen in a plain scalar. -/
def containsIndicator (value : List Char) : Bool :=
  value.getLast? == some ':' || anyAdjacent (fun c d => c == ':' && endsWord [d]) value
    || anyAdjacent (fun c d => endsWord [c] && d == '#') value

def isSpace (c : Char) : Bool := c == ' '

def needsEscape (value : List Char) : Bool :=
  value.any (!isPrintable ·) || anyAdjacent (fun c d => isSpace c && isBreak d) value

def allowsPlain (value : List Char) : Bool :=
  !(needsEscape value || value.any isBreak || value.head?.any isSpace || value.getLast?.any isSpace
    || startsWithIndicator value || containsIndicator value)

def allowsSingleQuoted (value : List Char) : Bool :=
  !(needsEscape value || anyAdjacent (fun c d => isBreak c && isSpace d) value)

def allowsLiteral (value : List Char) : Bool := !(needsEscape value || value.getLast?.any isSpace)

def style (value : List Char) : ScalarStyle :=
  if value.contains '\n' then if allowsLiteral value then .literal else .doubleQuoted
  else if !Spelling.isAmbiguous value && allowsPlain value then .plain
  else if allowsSingleQuoted value then .singleQuoted
  else .doubleQuoted

/-! ### Text -/

def spaces (count : Nat) : List Char := List.replicate count ' '

/-- The characters between single quotes. A line feed is doubled, since a single one is folded; a line starts at the given column. -/
def singleQuoted (indent : Nat) (afterBreak : Bool) : List Char → List Char
  | [] => if afterBreak then spaces indent else []
  | c :: rest =>
    if isBreak c then (if c = '\n' ∧ !afterBreak then ['\n'] else []) ++ c :: singleQuoted indent true rest
    else if isSpace c then c :: singleQuoted indent afterBreak rest
    else (if afterBreak then spaces indent else []) ++ (if c = '\x27' then [c, c] else [c])
      ++ singleQuoted indent false rest

/-- The last `width` digits of a number, hexadecimal and in upper case. -/
def hexadecimal : (width : Nat) → (number : Nat) → List Char
  | 0, _ => []
  | width + 1, number => hexadecimal width (number / 16) ++ [(Hex.digit (number % 16)).toUpper]

/-- An escape: by letter where there is one, else by number in the shortest width. -/
def escape (c : Char) : List Char :=
  match escapes.find? (·.2 = c) with
  | some (letter, _) => ['\\', letter]
  | none =>
    if c.toNat ≤ 0xFF then '\\' :: 'x' :: hexadecimal 2 c.toNat
    else if c.toNat ≤ 0xFFFF then '\\' :: 'u' :: hexadecimal 4 c.toNat
    else '\\' :: 'U' :: hexadecimal 8 c.toNat

/-- A character between double quotes. -/
def doubleQuotedCharacter (c : Char) : List Char :=
  if !isPrintable c || isBreak c || c == '"' || c == '\\' then escape c else [c]

/-- What the header of a literal block says of its end. -/
def chomping (value : List Char) : List Char :=
  match value.reverse with
  | [] => ['-']
  | [c] => if isBreak c then ['+'] else ['-']
  | c :: d :: _ => if !isBreak c then ['-'] else if isBreak d then ['+'] else []

/-- The header says the indentation where it does not show from the first line. -/
def literalHeader (value : List Char) : List Char :=
  '|' :: (if value.head?.any fun c => isSpace c || isBreak c then ['2'] else []) ++ chomping value ++ ['\n']

def literalLines (indent : Nat) (afterBreak : Bool) : List Char → List Char
  | [] => []
  | c :: rest =>
    if isBreak c then c :: literalLines indent true rest
    else (if afterBreak then spaces indent else []) ++ c :: literalLines indent false rest

/-- Writes a scalar whose further lines start at the given column, two columns beyond those of the collection around it. -/
def write (indent : Nat) (value : List Char) : List Char :=
  match style value with
  | .singleQuoted => '\x27' :: singleQuoted indent false value ++ ['\x27']
  | .doubleQuoted => '"' :: value.flatMap doubleQuotedCharacter ++ ['"']
  | .literal => literalHeader value ++ literalLines indent true value
  | .plain | .folded => value

/-- Ends the line on which a scalar was written, unless its own last line break did. -/
def endLine (written : List Char) : List Char := if written.getLast?.any isBreak then written else written ++ ['\n']

end ContentProtection.Yaml.Scalar
