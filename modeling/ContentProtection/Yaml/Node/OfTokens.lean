import ContentProtection.Yaml.Node
import ContentProtection.Yaml.Token.OfText

/-!
# The document that tokens describe

Each kind of collection has its own tokens for start, end and entries. A node may be left out where its absence shows from the next token; an empty scalar stands there then. The entries of a block sequence may also stand directly in a block mapping, at the column of its keys, without start and end.
-/

namespace ContentProtection.Yaml

/-- What a handle means. -/
abbrev Handles := List (List Char × Bytes)

/-- The meaning of the handles that need no directive. -/
def Handles.standard : Handles := [("!".toList, Utf8.encode "!".toList), ("!!".toList, Utf8.encode "tag:yaml.org,2002:".toList)]

/-- The text that a tag stands for. -/
def Handles.expand? (handles : Handles) (tag : TagName) : Option Bytes :=
  if tag.handle.isEmpty then some tag.suffix else (handles.lookup tag.handle).map (· ++ tag.suffix)

/-- The tokens left, and the numbers of the anchors met so far. -/
structure Remainder where
  tokens : List Token
  anchors : List (List Char × Nat) := []
  deriving DecidableEq, Repr

namespace Remainder

/-- Takes the first token off. -/
def skip (remainder : Remainder) : Remainder := { remainder with tokens := remainder.tokens.drop 1 }

/-- An anchor has as its number how many other names there are before it; a name used again takes the number of names met so far. -/
def nameAnchor (remainder : Remainder) (name : List Char) : Nat × Remainder :=
  let number := remainder.anchors.length
  (number, { remainder with anchors := (name, number) :: remainder.anchors.filter (·.1 ≠ name) })

/-- Reads the anchor and the tag before a node, in either order. -/
def readProperties (handles : Handles) (remainder : Remainder) : Option (Properties × Remainder) :=
  match remainder.tokens with
  | .anchor name :: .tag tag :: tokens | .tag tag :: .anchor name :: tokens => do
    let tag ← handles.expand? tag
    let (number, remainder) := { remainder with tokens }.nameAnchor name
    pure (⟨some number, some tag⟩, remainder)
  | .anchor name :: tokens =>
    let (number, remainder) := { remainder with tokens }.nameAnchor name
    some (⟨some number, none⟩, remainder)
  | .tag tag :: tokens => do
    let tag ← handles.expand? tag
    pure (⟨none, some tag⟩, { remainder with tokens })
  | _ => some ({}, remainder)

end Remainder

/-- On a scalar an exclamation mark alone is no tag. -/
def Properties.ofScalar (properties : Properties) : Properties :=
  { properties with tag? := properties.tag?.filter (· ≠ Utf8.encode ['!']) }

/-- Where a node stands, which tells what collections it may be. -/
inductive Place
  | block
  /-- A key or a value of a block mapping. -/
  | blockMapping
  | flow
  deriving DecidableEq, Repr

namespace Node

mutual

def read (handles : Handles) : Nat → Place → Remainder → Option (Node × Remainder)
  | 0, _, _ => none
  | fuel + 1, place, remainder =>
    match remainder.tokens with
    | .alias name :: _ => (remainder.anchors.lookup name).map fun number => (.alias number, remainder.skip)
    | _ => do
      let (properties, remainder) ← remainder.readProperties handles
      match remainder.tokens, place with
      | .scalar style value :: _, _ => some (.scalar properties.ofScalar style value, remainder.skip)
      | .flowSequenceStart :: _, _ => do
        let (items, remainder) ← readFlowItems handles fuel true remainder.skip
        pure (.sequence properties items, remainder)
      | .flowMappingStart :: _, _ => do
        let (entries, remainder) ← readFlowEntries handles fuel true remainder.skip
        pure (.mapping properties entries, remainder)
      | .blockSequenceStart :: _, .block | .blockSequenceStart :: _, .blockMapping => do
        let (items, remainder) ← readBlockItems handles fuel remainder.skip
        pure (.sequence properties items, remainder)
      | .blockMappingStart :: _, .block | .blockMappingStart :: _, .blockMapping => do
        let (entries, remainder) ← readBlockEntries handles fuel remainder.skip
        pure (.mapping properties entries, remainder)
      | .blockEntry :: _, .blockMapping => do
        let (items, remainder) ← readOpenItems handles fuel remainder
        pure (.sequence properties items, remainder)
      | _, _ => if properties = {} then none else some (.scalar properties .plain [], remainder)

/-- Reads a node, or nothing when one of the given tokens comes next. -/
def readUnless (handles : Handles) :
    Nat → Place → (stops : List Token) → Remainder → Option (Node × Remainder)
  | 0, _, _, _ => none
  | fuel + 1, place, stops, remainder =>
    if remainder.tokens.head?.any (stops.contains ·) then some (empty, remainder)
    else read handles fuel place remainder

/-- Reads a value with the colon before it, if one comes next. -/
def readValue (handles : Handles) : Nat → Place → (stops : List Token) → Remainder → Option (Node × Remainder)
  | 0, _, _, _ => none
  | fuel + 1, place, stops, remainder =>
    match remainder.tokens with
    | .value :: _ => readUnless handles fuel place stops remainder.skip
    | _ => some (empty, remainder)

/-- Reads the entries of a block sequence, with its end. -/
def readBlockItems (handles : Handles) : Nat → Remainder → Option (List Node × Remainder)
  | 0, _ => none
  | fuel + 1, remainder =>
    match remainder.tokens with
    | .blockEntry :: _ => do
      let (item, remainder) ← readUnless handles fuel .block [.blockEntry, .blockEnd] remainder.skip
      let (items, remainder) ← readBlockItems handles fuel remainder
      pure (item :: items, remainder)
    | .blockEnd :: _ => some ([], remainder.skip)
    | _ => none

/-- Reads the entries of a sequence that stands directly in a block mapping. -/
def readOpenItems (handles : Handles) : Nat → Remainder → Option (List Node × Remainder)
  | 0, _ => none
  | fuel + 1, remainder =>
    match remainder.tokens with
    | .blockEntry :: _ => do
      let (item, remainder) ←
        readUnless handles fuel .block [.blockEntry, .key, .value, .blockEnd] remainder.skip
      let (items, remainder) ← readOpenItems handles fuel remainder
      pure (item :: items, remainder)
    | _ => some ([], remainder)

/-- Reads the entries of a block mapping, with its end. -/
def readBlockEntries (handles : Handles) : Nat → Remainder → Option (List (Node × Node) × Remainder)
  | 0, _ => none
  | fuel + 1, remainder =>
    match remainder.tokens with
    | .key :: _ => do
      let (key, remainder) ← readUnless handles fuel .blockMapping [.key, .value, .blockEnd] remainder.skip
      let (value, remainder) ← readValue handles fuel .blockMapping [.key, .value, .blockEnd] remainder
      let (entries, remainder) ← readBlockEntries handles fuel remainder
      pure ((key, value) :: entries, remainder)
    | .blockEnd :: _ => some ([], remainder.skip)
    | _ => none

/-- Reads the items of a flow sequence, with its end. An item with a key is a mapping of one entry; where the key is left out, the token that shows it is passed over. -/
def readFlowItems (handles : Handles) : Nat → (isFirst : Bool) → Remainder → Option (List Node × Remainder)
  | 0, _, _ => none
  | fuel + 1, isFirst, remainder =>
    let remainder? := match remainder.tokens with
      | .flowSequenceEnd :: _ => some remainder
      | .flowEntry :: _ => if isFirst then some remainder else some remainder.skip
      | _ => if isFirst then some remainder else none
    remainder?.bind fun remainder =>
      match remainder.tokens with
      | .flowSequenceEnd :: _ => some ([], remainder.skip)
      | .key :: _ => do
        let stops := [.value, .flowEntry, .flowSequenceEnd]
        let remainder := remainder.skip
        let (key, remainder) ←
          if remainder.tokens.head?.any (stops.contains ·) then some (empty, remainder.skip)
          else read handles fuel .flow remainder
        let (value, remainder) ← readValue handles fuel .flow [.flowEntry, .flowSequenceEnd] remainder
        let (items, remainder) ← readFlowItems handles fuel false remainder
        pure (.mapping {} [(key, value)] :: items, remainder)
      | _ => do
        let (item, remainder) ← read handles fuel .flow remainder
        let (items, remainder) ← readFlowItems handles fuel false remainder
        pure (item :: items, remainder)

/-- Reads the entries of a flow mapping, with its end. A node that no `key` token precedes is a key without a value. -/
def readFlowEntries (handles : Handles) :
    Nat → (isFirst : Bool) → Remainder → Option (List (Node × Node) × Remainder)
  | 0, _, _ => none
  | fuel + 1, isFirst, remainder =>
    let remainder? := match remainder.tokens with
      | .flowMappingEnd :: _ => some remainder
      | .flowEntry :: _ => if isFirst then some remainder else some remainder.skip
      | _ => if isFirst then some remainder else none
    remainder?.bind fun remainder =>
      match remainder.tokens with
      | .flowMappingEnd :: _ => some ([], remainder.skip)
      | .key :: _ => do
        let (key, remainder) ←
          readUnless handles fuel .flow [.value, .flowEntry, .flowMappingEnd] remainder.skip
        let (value, remainder) ← readValue handles fuel .flow [.flowEntry, .flowMappingEnd] remainder
        let (entries, remainder) ← readFlowEntries handles fuel false remainder
        pure ((key, value) :: entries, remainder)
      | _ => do
        let (key, remainder) ← read handles fuel .flow remainder
        let (entries, remainder) ← readFlowEntries handles fuel false remainder
        pure ((key, empty) :: entries, remainder)

end

end Node

/-! ### Documents -/

namespace Document

/-- Reads the directives of a document: one version at most, which is 1.1 or 1.2, and one meaning at most for each handle. -/
def readDirectives (hasVersion : Bool) (handles : Handles) : List Token → Option (Handles × List Token)
  | .directive (.version major minor) :: rest =>
    if hasVersion || major != 1 || (minor != 1 && minor != 2) then none else readDirectives true handles rest
  | .directive (.tagHandle handle meaning) :: rest =>
    if (handles.lookup handle).isSome then none else readDirectives hasVersion (handles ++ [(handle, meaning)]) rest
  | tokens => some (handles, tokens)

/-- Whether a document that has started is empty. -/
def isEmptyBefore : List Token → Bool
  | [] | .directive _ :: _ | .documentStart :: _ | .documentEnd :: _ => true
  | _ => false

/-- Reads the root. A token is passed by fewer than four steps. -/
def readRoot (handles : Handles) (tokens : List Token) : Option (Node × List Token) :=
  (Node.read (handles ++ Handles.standard) (4 * tokens.length + 4) .block { tokens }).map fun (root, remainder) =>
    (root, remainder.tokens)

/-- The document that the tokens describe. Nothing but end markers may follow it. -/
def ofTokens? : List Token → Option Document
  | [] => some ⟨none⟩
  | tokens => do
    let (root, rest) ←
      if isEmptyBefore tokens then
        match ← readDirectives false [] tokens with
        | (handles, .documentStart :: rest) =>
          if isEmptyBefore rest then some (Node.empty, rest) else readRoot handles rest
        | _ => none
      else readRoot [] tokens
    if rest.all (· == .documentEnd) then some ⟨some root⟩ else none

def ofText? (text : List Char) : Option Document := (Token.ofText? text).bind ofTokens?

end Document

end ContentProtection.Yaml
