import ContentProtection.Yaml.Token

/-!
# Nodes

The values a document is made of. An alias stands for the node whose anchor it names by number.
-/

namespace ContentProtection.Yaml

structure Properties where
  anchor? : Option Nat := none
  tag? : Option Bytes := none
  deriving DecidableEq, Repr

inductive Node
  | alias (number : Nat)
  | scalar (properties : Properties) (style : ScalarStyle) (value : List Char)
  | sequence (properties : Properties) (items : List Node)
  | mapping (properties : Properties) (entries : List (Node × Node))

namespace Node

/-- What stands where no node is written. -/
def empty : Node := .scalar {} .plain []

def isEmpty : Node → Bool
  | .scalar _ .plain [] => true
  | _ => false

def properties : Node → Properties
  | .alias _ => {}
  | .scalar properties _ _ | .sequence properties _ | .mapping properties _ => properties

/-- The node alone, if it has the anchor with the given number. -/
def ifAnchored (number : Nat) (node : Node) : List Node :=
  if node.properties.anchor? = some number then [node] else []

mutual

/-- The nodes that have the anchor with the given number, in the order in which they start. -/
def anchored (number : Nat) : Node → List Node
  | .alias _ => []
  | .scalar properties style value => ifAnchored number (.scalar properties style value)
  | .sequence properties items => ifAnchored number (.sequence properties items) ++ anchoredItems number items
  | .mapping properties entries => ifAnchored number (.mapping properties entries) ++ anchoredEntries number entries

def anchoredItems (number : Nat) : List Node → List Node
  | [] => []
  | item :: items => anchored number item ++ anchoredItems number items

def anchoredEntries (number : Nat) : List (Node × Node) → List Node
  | [] => []
  | (key, value) :: entries => anchored number key ++ anchored number value ++ anchoredEntries number entries

end

end Node

/-- A text holds one document at most. -/
structure Document where
  root? : Option Node

namespace Document

/-- The node itself, or the one that an alias stands for. Anchors with the same number are told apart by nothing but their order: the last one counts. -/
def resolve (document : Document) : Node → Option Node
  | .alias number => document.root?.bind fun root => (root.anchored number).getLast?
  | node => some node

end Document

end ContentProtection.Yaml
