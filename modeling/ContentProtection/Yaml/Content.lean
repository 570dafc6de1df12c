import ContentProtection.Yaml.Node
import ContentProtection.Yaml.Scalar.Written

/-!
# Content to be written

Texts, other scalars, and mappings and sequences of them, without anchors and tags. `Content.write` writes a mapping one entry a line, with the entries of a mapping inside it two columns further on and the items of a sequence at the column of its key. `Content.toNode` is the node that what is written describes.
-/

namespace ContentProtection.Yaml

inductive Content
  /-- A number or a truth value, as it is spelled. -/
  | plain (spelling : List Char)
  | text (value : List Char)
  | texts (values : List (List Char))
  /-- Keys are names that need no quotes. -/
  | mapping (entries : List (String × Content))

namespace Content

/-! ### Node -/

def textNode (value : List Char) : Node := .scalar {} (Scalar.style value) value

mutual

def toNode : Content → Node
  | plain spelling => .scalar {} .plain spelling
  | text value => textNode value
  | texts values => .sequence {} (values.map textNode)
  | mapping entries => .mapping {} (entryNodes entries)

def entryNodes : List (String × Content) → List (Node × Node)
  | [] => []
  | (key, content) :: entries => (.scalar {} .plain key.toList, toNode content) :: entryNodes entries

end

/-! ### Text -/

def itemLine (column : Nat) (value : List Char) : List Char :=
  Scalar.spaces column ++ '-' :: ' ' :: Scalar.endLine (Scalar.write (column + 2) value)

mutual

/-- What follows a key at the given column and its colon. -/
def writeValue (column : Nat) : Content → List Char
  | plain spelling => ' ' :: Scalar.endLine spelling
  | text value => ' ' :: Scalar.endLine (Scalar.write (column + 2) value)
  | texts [] => " []\n".toList
  | texts values => '\n' :: values.flatMap (itemLine column)
  | mapping [] => " \x7b\x7d\n".toList
  | mapping entries => '\n' :: writeEntries (column + 2) entries

def writeEntries (column : Nat) : List (String × Content) → List Char
  | [] => []
  | (key, content) :: entries =>
    Scalar.spaces column ++ key.toList ++ ':' :: writeValue column content ++ writeEntries column entries

end

/-- The document with a mapping as its root. -/
def writeDocument : List (String × Content) → List Char
  | [] => "\x7b\x7d\n".toList
  | entries => writeEntries 0 entries

end Content

end ContentProtection.Yaml
