import ContentProtection.Xml.Namespace

/-!
# XML documents

The tree of a document. It has one root element; every element is closed by a tag of its own name, prefix included; around the root stand only spaces, comments and instructions. Pieces of text that nothing separates are one text.
-/

namespace ContentProtection.Xml

inductive Node
  /-- An element with its attributes that have no namespace. -/
  | element (name : QualifiedName) (attributes : List Attribute) (children : List Node)
  | text (value : List Char)
  /-- A comment or an instruction. -/
  | remark

namespace Node

def localName? : Node → Option (List Char)
  | element name _ _ => some name.localName
  | _ => none

/-- The value of an attribute without a namespace. -/
def attribute? (node : Node) (name : List Char) : Option (List Char) :=
  match node with
  | element _ attributes _ => (attributes.find? fun attr => attr.name.localName = name).map Attribute.value
  | _ => none

/-- The text that an element starts with. -/
def text? : Node → Option (List Char)
  | element _ _ (text value :: _) => some value
  | _ => none

mutual

/-- The node and everything in it, in document order. -/
def descendants : Node → List Node
  | element name attributes children => element name attributes children :: descendantsOfAll children
  | node => [node]

def descendantsOfAll : List Node → List Node
  | [] => []
  | node :: rest => node.descendants ++ descendantsOfAll rest

end

/-- The elements in the node that have a local name, the node among them. -/
def elementsNamed (node : Node) (name : List Char) : List Node :=
  node.descendants.filter fun descendant => descendant.localName? = some name

end Node

/-! ### Building the tree -/

/-- An element whose end has not been read, with the children so far, last first. -/
structure OpenElement where
  name : QualifiedName
  attributes : List Attribute
  scope : Scope
  children : List Node := []

def OpenElement.close (element : OpenElement) : Node :=
  .element element.name element.attributes element.children.reverse

/-- Text right after text joins it. -/
def OpenElement.push (element : OpenElement) (child : Node) : OpenElement :=
  match child, element.children with
  | .text value, .text before :: rest => { element with children := .text (before ++ value) :: rest }
  | child, children => { element with children := child :: children }

/-- A document read so far: the open elements, innermost first, and the root once it is closed. -/
structure Builder where
  openElements : List OpenElement := []
  root : Option Node := none

namespace Builder

/-- Adds a finished element. -/
def attach (builder : Builder) (node : Node) : Builder :=
  match builder.openElements with
  | [] => { builder with root := some node }
  | innermost :: outer => { builder with openElements := innermost.push node :: outer }

/-- Adds text, which needs an open element. -/
def addText? (builder : Builder) (value : List Char) : Option Builder :=
  match builder.openElements with
  | [] => none
  | _ :: _ => some (builder.attach (.text value))

def addRemark (builder : Builder) : Builder :=
  match builder.openElements with
  | [] => builder
  | _ :: _ => builder.attach .remark

def startElement? (builder : Builder) (name : QualifiedName) (attributes : List Attribute) (isEmpty : Bool) :
    Option Builder := do
  if builder.openElements.isEmpty && builder.root.isSome then none
  let outer : Scope := (builder.openElements.head?.map OpenElement.scope).getD []
  let (scope, attributes) ← outer.enter? name attributes
  let element : OpenElement := { name, attributes, scope }
  if isEmpty then some (builder.attach element.close)
  else some { builder with openElements := element :: builder.openElements }

def endElement? (builder : Builder) (name : QualifiedName) : Option Builder :=
  match builder.openElements with
  | [] => none
  | innermost :: outer =>
    if innermost.name = name then some ({ builder with openElements := outer }.attach innermost.close) else none

def addToken? (builder : Builder) : Token → Option Builder
  | .startTag name attributes isEmpty => builder.startElement? name attributes isEmpty
  | .endTag name => builder.endElement? name
  | .text written =>
    if builder.openElements.isEmpty then if written.all isSpace then some builder else none
    else (pieces? written).bind fun pieces => builder.addText? (textValue pieces)
  | .characterData value => builder.addText? value
  | .comment | .instruction => some builder.addRemark

/-- The root of a finished document. -/
def root? (builder : Builder) : Option Node :=
  if builder.openElements.isEmpty then builder.root else none

end Builder

/-- The root element of a document. -/
def parse? (text : List Char) : Option Node := do
  let body ← dropDeclaration? (dropByteOrderMark text)
  let tokens ← tokens? body
  let builder ← tokens.foldlM Builder.addToken? {}
  builder.root?

end ContentProtection.Xml
