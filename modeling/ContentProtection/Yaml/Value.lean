import ContentProtection.Yaml.Node.OfTokens
import ContentProtection.Yaml.Spelling

/-!
# Values of nodes

What a node means where a value of a certain kind is expected. An alias means what it stands for. An empty plain scalar stands for a mapping or a sequence without entries.
-/

namespace ContentProtection.Yaml

/-- Whether a scalar may be a number or a truth value: a plain one may, and a literal one whose tag says so. -/
def mayBe (kind : String) (properties : Properties) (style : ScalarStyle) : Bool :=
  style == .plain
    || (style == .literal && properties.tag? == some (Utf8.encode ("tag:yaml.org,2002:".toList ++ kind.toList)))

/-- What follows the exclamation mark of a tag that no document but this one gives a meaning. -/
def Properties.localTag? (properties : Properties) : Option (List Char) :=
  match properties.tag? with
  | some (first :: rest) => if [first] = Utf8.encode ['!'] then Utf8.decode? rest else none
  | _ => none

namespace Document

def text? (document : Document) (node : Node) : Option (List Char) :=
  match document.resolve node with
  | some (.scalar _ _ value) => some value
  | _ => none

def bool? (document : Document) (node : Node) : Option Bool :=
  match document.resolve node with
  | some (.scalar properties style value) => if mayBe "bool" properties style then Spelling.bool? value else none
  | _ => none

/-- An integer of 64 bits without a sign. -/
def unsigned? (document : Document) (node : Node) : Option UInt64 :=
  match document.resolve node with
  | some (.scalar properties style value) =>
    if mayBe "int" properties style then
      ((Spelling.natural? value).filter (· < UInt64.size)).map UInt64.ofNat
    else none
  | _ => none

/-- One of several names: a scalar, or a tag on a null. -/
def name? (document : Document) (node : Node) : Option (List Char) :=
  match document.resolve node with
  | some (.scalar properties style value) =>
    match properties.localTag? with
    | none => some value
    | some name => if style == .plain && (value.isEmpty || Spelling.isNull value) then some name else none
  | _ => none

def items? (document : Document) (node : Node) : Option (List Node) :=
  match document.resolve node with
  | some (.sequence _ items) => some items
  | some node => if node.isEmpty then some [] else none
  | none => none

/-- The entries of a mapping whose keys are texts. -/
def entries? (document : Document) (node : Node) : Option (List (List Char × Node)) :=
  match document.resolve node with
  | some (.mapping _ entries) => entries.mapM fun (key, value) => (document.text? key).map (·, value)
  | some node => if node.isEmpty then some [] else none
  | none => none

end Document

/-- The value under a key that stands once at most, or else the given one. -/
def field? {α : Type} (entries : List (List Char × Node)) (key : String) (missing : α) (read : Node → Option α) :
    Option α :=
  match entries.filter (·.1 == key.toList) with
  | [] => some missing
  | [(_, value)] => read value
  | _ => none

end ContentProtection.Yaml
