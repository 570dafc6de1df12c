import ContentProtection.Yaml.Directive

/-!
# Tokens

What a text consists of. Block collections have no marks of their own: their start and end tokens come from the indentation, and a `key` token stands before what turns out to be a key when the colon after it is met.
-/

namespace ContentProtection.Yaml

inductive ScalarStyle
  | plain
  | singleQuoted
  | doubleQuoted
  | literal
  | folded
  deriving DecidableEq, Repr

inductive Token
  | directive (directive : Directive)
  | documentStart
  | documentEnd
  | blockSequenceStart
  | blockMappingStart
  | blockEnd
  | flowSequenceStart
  | flowSequenceEnd
  | flowMappingStart
  | flowMappingEnd
  | blockEntry
  | flowEntry
  | key
  | value
  | alias (name : List Char)
  | anchor (name : List Char)
  | tag (name : TagName)
  | scalar (style : ScalarStyle) (value : List Char)
  deriving DecidableEq, Repr

end ContentProtection.Yaml
