import ContentProtection.Yaml.Position
import ContentProtection.Yaml.Token

/-!
# Layout

What the tokens read so far leave open: the block collections, by the columns they start at, the flow collections, and the places where a key may have started. Tokens for the start of a block mapping and for its first key are put before tokens already read, when a colon tells that those were the key.
-/

namespace ContentProtection.Yaml

/-- A place where a key may have started. -/
structure PossibleKey where
  /-- How many tokens stand before it. -/
  index : Nat
  position : Position
  /-- Whether only a key may start here, because the place is in line with the keys of a block mapping. -/
  isRequired : Bool
  deriving DecidableEq, Repr

/-- A key ends on the line it starts on, within 1024 characters. -/
def PossibleKey.isPast (key : PossibleKey) (position : Position) : Bool :=
  key.position.line < position.line || key.position.index + 1024 < position.index

structure Layout where
  tokens : List Token := []
  /-- The columns of the open block collections, the innermost first. -/
  columns : List Nat := []
  possibleKey? : Option PossibleKey := none
  /-- The possible keys around each open flow collection, the innermost first. -/
  outerKeys : List (Option PossibleKey) := []
  /-- Whether a key or an entry may start here. -/
  allowsKey : Bool := true
  deriving DecidableEq, Repr

namespace Layout

def inFlow (layout : Layout) : Bool := !layout.outerKeys.isEmpty

/-- The least column of the lines that belong to the innermost block collection's content. -/
def minimum (layout : Layout) : Nat :=
  match layout.columns with
  | [] => 0
  | column :: _ => column + 1

def push (layout : Layout) (token : Token) : Layout := { layout with tokens := layout.tokens ++ [token] }

/-! ### Block collections -/

/-- Ends the block collections that start beyond the given column. Within a flow collection the indentation has no meaning. -/
def closeBlocks (layout : Layout) (column : Nat) : Layout :=
  if layout.inFlow then layout
  else
    { layout with
      tokens := layout.tokens ++ List.replicate (layout.columns.takeWhile (column < ·)).length .blockEnd
      columns := layout.columns.dropWhile (column < ·) }

def closeAllBlocks (layout : Layout) : Layout :=
  if layout.inFlow then layout
  else { layout with tokens := layout.tokens ++ List.replicate layout.columns.length .blockEnd, columns := [] }

/-- Starts a block collection at a column beyond all others, with its token after the first `index` ones. -/
def openBlock (layout : Layout) (column : Nat) (start : Token) (index : Nat) : Layout :=
  if !layout.inFlow && layout.minimum ≤ column then
    { layout with columns := column :: layout.columns, tokens := layout.tokens.insertIdx index start }
  else layout

/-- Starts a block collection where an entry or a key stands by its indicator, unless it is open already. -/
def openBlockHere (layout : Layout) (column : Nat) (start : Token) : Option Layout :=
  if layout.inFlow then some layout
  else if layout.allowsKey then some (layout.openBlock column start layout.tokens.length)
  else none

/-! ### Possible keys -/

/-- What started here was no key. -/
def dropKey (layout : Layout) : Option Layout :=
  if layout.possibleKey?.any (·.isRequired) then none else some { layout with possibleKey? := none }

/-- Gives up the possible keys that did not end in time. -/
def dropPastKeys (layout : Layout) (position : Position) : Option Layout :=
  let isPast (key? : Option PossibleKey) := key?.any (·.isPast position)
  let keys := layout.possibleKey? :: layout.outerKeys
  if keys.any fun key? => isPast key? && key?.any (·.isRequired) then none
  else some
    { layout with
      possibleKey? := layout.possibleKey?.filter (!·.isPast position)
      outerKeys := layout.outerKeys.map (·.filter (!·.isPast position)) }

/-- A key may start here, if keys are allowed. -/
def noteKey (layout : Layout) (position : Position) : Option Layout :=
  if layout.allowsKey then do
    let layout ← layout.dropKey
    pure
      { layout with
        possibleKey? := some
          { index := layout.tokens.length, position
            isRequired := !layout.inFlow && layout.columns.head? == some position.column } }
  else some layout

/-- Starts a node that can be a key. -/
def startNode (layout : Layout) (position : Position) : Option Layout :=
  (layout.noteKey position).map fun layout => { layout with allowsKey := false }

/-! ### Indicators -/

def startFlow (layout : Layout) (position : Position) (start : Token) : Option Layout := do
  let layout ← layout.noteKey position
  let layout :=
    { layout with possibleKey? := none, outerKeys := layout.possibleKey? :: layout.outerKeys, allowsKey := true }
  pure (layout.push start)

def endFlow (layout : Layout) (stop : Token) : Option Layout := do
  let layout ← layout.dropKey
  let layout := match layout.outerKeys with
    | [] => layout
    | key? :: outerKeys => { layout with possibleKey? := key?, outerKeys }
  pure ({ layout with allowsKey := false }.push stop)

def separateFlow (layout : Layout) : Option Layout := do
  let layout ← layout.dropKey
  pure ({ layout with allowsKey := true }.push .flowEntry)

def startEntry (layout : Layout) (column : Nat) : Option Layout := do
  let layout ← layout.openBlockHere column .blockSequenceStart
  let layout ← layout.dropKey
  pure ({ layout with allowsKey := true }.push .blockEntry)

def startKey (layout : Layout) (column : Nat) : Option Layout := do
  let layout ← layout.openBlockHere column .blockMappingStart
  let layout ← layout.dropKey
  pure ({ layout with allowsKey := !layout.inFlow }.push .key)

/-- A colon: what started at the possible key was the key. -/
def startValue (layout : Layout) (column : Nat) : Option Layout :=
  match layout.possibleKey? with
  | some key =>
    let layout := { layout with tokens := layout.tokens.insertIdx key.index .key }
    let layout := layout.openBlock key.position.column .blockMappingStart key.index
    some ({ layout with possibleKey? := none, allowsKey := false }.push .value)
  | none => do
    let layout ← layout.openBlockHere column .blockMappingStart
    pure ({ layout with allowsKey := !layout.inFlow }.push .value)

/-- A document marker or a directive ends all block collections. -/
def leaveDocument (layout : Layout) : Option Layout := do
  let layout ← layout.closeAllBlocks.dropKey
  pure { layout with allowsKey := false }

end Layout

end ContentProtection.Yaml
