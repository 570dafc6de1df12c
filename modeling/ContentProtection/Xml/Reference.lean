import ContentProtection.Xml.Character

/-!
# References and line ends

Text and attribute values as written, brought to the characters they stand for. A reference is a character number or one of the five named characters; documents declare no others. Line ends in text become line feeds, and blanks in attribute values become spaces, but a character that came from a reference stays as it is.
-/

namespace ContentProtection.Xml

/-- One piece of written text. -/
inductive Piece
  | literal (c : Char)
  | reference (c : Char)
  deriving DecidableEq, Repr

def digitValue? (radix : Nat) (c : Char) : Option Nat :=
  let value :=
    if '0' ≤ c ∧ c ≤ '9' then c.toNat - 48
    else if 'a' ≤ c ∧ c ≤ 'f' then c.toNat - 87
    else if 'A' ≤ c ∧ c ≤ 'F' then c.toNat - 55
    else radix
  if value < radix then some value else none

/-- The character with a number, if documents may hold it. A number of no character stands for U+FFFD, and one that needs more than 32 bits for nothing. -/
def characterOfNumber? (number : Nat) : Option Char :=
  if UInt32.size ≤ number then none
  else
    let c := if number.isValidChar then Char.ofNat number else Char.ofNat 0xFFFD
    if isCharacter c then some c else none

def numberOfDigits? (radix : Nat) (digits : List Char) : Option Nat :=
  if digits.isEmpty then none
  else (digits.mapM (digitValue? radix)).map fun values => values.foldl (fun number value => number * radix + value) 0

/-- What a reference's name (the text between `&` and `;`) stands for. -/
def characterOfReference? : List Char → Option Char
  | '#' :: 'x' :: digits => (numberOfDigits? 16 digits).bind characterOfNumber?
  | '#' :: digits => (numberOfDigits? 10 digits).bind characterOfNumber?
  | name =>
    if name = "quot".toList then some '"'
    else if name = "amp".toList then some '&'
    else if name = "apos".toList then some '\x27'
    else if name = "lt".toList then some '<'
    else if name = "gt".toList then some '>'
    else none

/-- The pieces of written text; `name?` holds what was read of an open reference, last character first. -/
def piecesFrom : (name? : Option (List Char)) → List Char → Option (List Piece)
  | none, [] => some []
  | some _, [] => none
  | none, c :: rest =>
    if c = '&' then piecesFrom (some []) rest else (piecesFrom none rest).map (.literal c :: ·)
  | some name, c :: rest =>
    if c = ';' then do
      let character ← characterOfReference? name.reverse
      let rest ← piecesFrom none rest
      pure (.reference character :: rest)
    else piecesFrom (some (c :: name)) rest

def pieces? (written : List Char) : Option (List Piece) := piecesFrom none written

/-- Attribute values: a line end or tab becomes one space. -/
def attributeValue : List Piece → List Char
  | [] => []
  | .reference c :: rest => c :: attributeValue rest
  | .literal '\r' :: .literal '\n' :: rest => ' ' :: attributeValue rest
  | .literal c :: rest => (if isSpace c then ' ' else c) :: attributeValue rest

/-- Appends a literal character to text, last character first. A carriage return at the end of the text so far, and one that ends the text, becomes a line feed; a line feed after it is dropped. -/
def pushLiteral (reversed : List Char) (c : Char) (atEnd : Bool) : List Char :=
  let ending := if atEnd && c == '\r' then '\n' else c
  match reversed with
  | '\r' :: before => if c == '\n' then '\n' :: before else ending :: '\n' :: before
  | _ => ending :: reversed

/-- Text of an element: the literal character right after a reference stays as it is. -/
def textFrom : (reversed : List Char) → (afterReference : Bool) → List Piece → List Char
  | reversed, _, [] => reversed.reverse
  | reversed, _, .reference c :: rest => textFrom (c :: reversed) true rest
  | reversed, true, .literal c :: rest => textFrom (c :: reversed) false rest
  | reversed, false, .literal c :: rest => textFrom (pushLiteral reversed c rest.isEmpty) false rest

def textValue (pieces : List Piece) : List Char := textFrom [] false pieces

end ContentProtection.Xml
