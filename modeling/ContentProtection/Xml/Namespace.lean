import ContentProtection.Xml.Token

/-!
# XML namespaces

A prefix on a name stands for a namespace that the element or one around it declares. A declaration is an attribute: `xmlns:p` declares the prefix `p`, and a local name `xmlns` declares the namespace of elements without a prefix. Attributes without a prefix have no namespace.
-/

namespace ContentProtection.Xml

/-- The declarations in force, innermost first; the default namespace has the empty prefix. -/
abbrev Scope := List (List Char × List Char)

/-- The namespace that the prefix `xml` always has. -/
def xmlNamespace : List Char := "http://www.w3.org/XML/1998/namespace".toList

/-- The namespace of declarations, which nothing may declare. -/
def declarationNamespace : List Char := "http://www.w3.org/2000/xmlns/".toList

def declarationPrefix : List Char := "xmlns".toList

def Scope.find? (scope : Scope) (qualifier : List Char) : Option (List Char) := scope.lookup qualifier

/-- Adds the declaration of a prefix to those of the same element. A prefix is declared at most once, `xml` only with its own namespace, which no other prefix may have. -/
def Scope.declare? (scope : Scope) (qualifier uri : List Char) : Option Scope :=
  if uri = declarationNamespace then none
  else if qualifier = "xml".toList then if uri = xmlNamespace then some scope else none
  else if uri = xmlNamespace then none
  else if (scope.find? qualifier).isSome then none
  else some (scope ++ [(qualifier, uri)])

/-- Adds a default namespace; the first of several counts. -/
def Scope.declareDefault? (scope : Scope) (uri : List Char) : Option Scope :=
  if uri = xmlNamespace ∨ uri = declarationNamespace then none else some (scope ++ [([], uri)])

/-- Sorts the attributes of an element into its declarations and the others. -/
def sortAttributes : (own : Scope) → List Attribute → Option (Scope × List Attribute)
  | own, [] => some (own, [])
  | own, attr :: rest =>
    if attr.name.qualifier = declarationPrefix then
      (own.declare? attr.name.localName attr.value).bind (sortAttributes · rest)
    else if attr.name.localName = declarationPrefix then
      (own.declareDefault? attr.value).bind (sortAttributes · rest)
    else (sortAttributes own rest).map fun (own, others) => (own, attr :: others)

/-- A local name with its namespace, if it has one. -/
structure ExpandedName where
  uri : Option (List Char)
  localName : List Char
  deriving DecidableEq, Repr

/-- The namespace of an attribute; a prefix must be declared. -/
def Scope.expandAttribute? (scope : Scope) (name : QualifiedName) : Option ExpandedName :=
  if name.qualifier = "xml".toList then some ⟨some xmlNamespace, name.localName⟩
  else if name.qualifier.isEmpty then some ⟨none, name.localName⟩
  else (scope.find? name.qualifier).map fun uri => ⟨some uri, name.localName⟩

/-- Whether an element may have this name: it has no prefix, or one that is declared. -/
def Scope.admitsElement (scope : Scope) (name : QualifiedName) : Bool :=
  name.qualifier ≠ declarationPrefix && (name.qualifier.isEmpty || (scope.find? name.qualifier).isSome)

/-- The scope inside an element and its attributes that have no namespace. No two attributes have the same expanded name. -/
def Scope.enter? (outer : Scope) (name : QualifiedName) (attributes : List Attribute) :
    Option (Scope × List Attribute) := do
  let (own, others) ← sortAttributes [] attributes
  let scope : Scope := own ++ outer
  let names ← others.mapM fun attr => scope.expandAttribute? attr.name
  if names.Nodup ∧ scope.admitsElement name then
    some (scope, others.filter fun attr => attr.name.qualifier.isEmpty)
  else none

end ContentProtection.Xml
