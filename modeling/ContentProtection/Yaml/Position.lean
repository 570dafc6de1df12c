import ContentProtection.Yaml.Character

/-!
# Positions in a text

A carriage return and the line feed after it are one line break.
-/

namespace ContentProtection.Yaml

structure Position where
  /-- How many characters stand before. -/
  index : Nat := 0
  line : Nat := 0
  column : Nat := 0
  deriving DecidableEq, Repr

namespace Position

/-- The position behind a text that starts here. -/
def after (position : Position) : List Char → Position
  | [] => position
  | '\r' :: '\n' :: rest => after ⟨position.index + 2, position.line + 1, 0⟩ rest
  | c :: rest =>
    after (if isBreak c then ⟨position.index + 1, position.line + 1, 0⟩
      else ⟨position.index + 1, position.line, position.column + 1⟩) rest

end Position

/-- A text with a position in it, and what stands from there on. -/
structure Cursor where
  position : Position := {}
  rest : List Char
  deriving DecidableEq, Repr

namespace Cursor

/-- Goes on to where only `rest` is left. -/
def moveTo (cursor : Cursor) (rest : List Char) : Cursor :=
  ⟨cursor.position.after (cursor.rest.take (cursor.rest.length - rest.length)), rest⟩

def column (cursor : Cursor) : Nat := cursor.position.column

end Cursor

end ContentProtection.Yaml
