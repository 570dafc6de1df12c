import ContentProtection.Yaml.Layout
import ContentProtection.Yaml.Scalar.Plain
import ContentProtection.Yaml.Scalar.Quoted

/-!
# Tokens of a text

What a text means is decided token by token, from the first characters of each and from the layout.
-/

namespace ContentProtection.Yaml

/-- Skips blanks, comments and line breaks. Whether a key may start is known afterwards: a line break allows it in a block collection. Where it may, no tab is skipped. -/
def skipSeparation (inFlow : Bool) :
    (allowsKey atLineStart inComment : Bool) → List Char → Bool × List Char
  | allowsKey, _, _, [] => (allowsKey, [])
  | allowsKey, atLineStart, inComment, c :: rest =>
    if isBreak c then skipSeparation inFlow (allowsKey || !inFlow) true false rest
    else if inComment then skipSeparation inFlow allowsKey false true rest
    else if c = '#' then skipSeparation inFlow allowsKey false true rest
    else if c = ' ' then skipSeparation inFlow allowsKey false false rest
    else if c = '\t' ∧ (inFlow || !allowsKey) then skipSeparation inFlow allowsKey false false rest
    else if c = '\ufeff' ∧ atLineStart then skipSeparation inFlow allowsKey false false rest
    else (allowsKey, c :: rest)

/-- What starts no plain scalar, unless it is followed by a further character of a word. -/
def isIndicator (c : Char) : Bool := "-?:,[]\x7b\x7d#&*!|>\x27\"%@\x60".toList.contains c

/-- Whether a plain scalar starts here. -/
def startsPlain (inFlow : Bool) : List Char → Bool
  | [] => false
  | c :: rest =>
    if isIndicator c then
      (c == '-' && !rest.head?.any isBlank) || (!inFlow && (c == '?' || c == ':') && !endsWord rest)
    else !endsWord (c :: rest)

namespace Layout

/-- Whether an indicator stands by itself: in a flow collection it always does. -/
def standsAlone (layout : Layout) (rest : List Char) : Bool := layout.inFlow || endsWord rest

/-- Reads a node that can be a key: an alias, a property or a scalar. -/
def readNode {α : Type} (layout : Layout) (position : Position) (token : α → Token) (read : Option (α × List Char)) :
    Option (Layout × List Char) := do
  let layout ← layout.startNode position
  let (value, rest) ← read
  pure (layout.push (token value), rest)

def readPlain (layout : Layout) (cursor : Cursor) : Option (Layout × List Char) := do
  let layout ← layout.startNode cursor.position
  let (plain, rest) ← Yaml.readPlain layout.inFlow layout.minimum cursor.rest
  pure ({ layout with allowsKey := plain.endsLine }.push (.scalar .plain plain.value), rest)

def readBlock (layout : Layout) (style : ScalarStyle) (text : List Char) : Option (Layout × List Char) := do
  let layout ← layout.dropKey
  let (value, rest) ← Yaml.readBlock (style == .folded) layout.minimum text
  pure ({ layout with allowsKey := true }.push (.scalar style value), rest)

def readMarker (layout : Layout) (marker : Token) (text : List Char) : Option (Layout × List Char) := do
  let layout ← layout.leaveDocument
  pure (layout.push marker, text.drop 3)

def readDirective (layout : Layout) (text : List Char) : Option (Layout × List Char) := do
  let layout ← layout.leaveDocument
  let (directive, rest) ← Directive.read text
  pure (layout.push (.directive directive), rest)

/-- Reads the token that starts here. -/
def readToken (layout : Layout) (cursor : Cursor) : Option (Layout × List Char) :=
  let position := cursor.position
  match cursor.rest with
  | [] => none
  | c :: rest =>
    if position.column = 0 ∧ c = '%' then layout.readDirective rest
    else if position.column = 0 ∧ startsMarker '-' (c :: rest) then layout.readMarker .documentStart (c :: rest)
    else if position.column = 0 ∧ startsMarker '.' (c :: rest) then layout.readMarker .documentEnd (c :: rest)
    else if c = '[' then (layout.startFlow position .flowSequenceStart).map (·, rest)
    else if c = '\x7b' then (layout.startFlow position .flowMappingStart).map (·, rest)
    else if c = ']' then (layout.endFlow .flowSequenceEnd).map (·, rest)
    else if c = '\x7d' then (layout.endFlow .flowMappingEnd).map (·, rest)
    else if c = ',' then layout.separateFlow.map (·, rest)
    else if c = '-' ∧ endsWord rest then (layout.startEntry position.column).map (·, rest)
    else if c = '?' ∧ layout.standsAlone rest then (layout.startKey position.column).map (·, rest)
    else if c = ':' ∧ layout.standsAlone rest then (layout.startValue position.column).map (·, rest)
    else if c = '*' then layout.readNode position .alias (readAnchor rest)
    else if c = '&' then layout.readNode position .anchor (readAnchor rest)
    else if c = '!' then layout.readNode position .tag (readTag layout.inFlow (c :: rest))
    else if c = '|' ∧ !layout.inFlow then layout.readBlock .literal rest
    else if c = '>' ∧ !layout.inFlow then layout.readBlock .folded rest
    else if c = '\x27' then layout.readNode position (.scalar .singleQuoted) (readSingleQuoted rest)
    else if c = '"' then layout.readNode position (.scalar .doubleQuoted) (readDoubleQuoted rest)
    else if startsPlain layout.inFlow (c :: rest) then layout.readPlain cursor
    else none

/-- Reads the tokens from here to the end. -/
def readTokens (layout : Layout) (cursor : Cursor) : Option (List Token) :=
  let (allowsKey, text) := skipSeparation layout.inFlow layout.allowsKey (cursor.column == 0) false cursor.rest
  let start := cursor.moveTo text
  match { layout with allowsKey }.dropPastKeys start.position with
  | none => none
  | some layout =>
    if start.rest.isEmpty then layout.closeAllBlocks.dropKey.map (·.tokens)
    else match (layout.closeBlocks start.column).readToken start with
      | none => none
      | some (layout, rest) =>
        if rest.length < cursor.rest.length then layout.readTokens (start.moveTo rest) else none
termination_by cursor.rest.length

end Layout

/-- The tokens of a text whose characters all may stand in a document. -/
def Token.ofText? (text : List Char) : Option (List Token) :=
  if text.all isAllowed then Layout.readTokens {} { rest := text } else none

end ContentProtection.Yaml
