import ContentProtection.Json.Token

/-!
# JSON values

A text as a tree. Objects keep their members in order, repeated keys included, so that readers can tell. Numbers are kept as being numbers only.

The tree is built with a stack of open containers: each token either starts or ends a container, delivers a value, or separates two items, and `Position` says which of these may come next.
-/

namespace ContentProtection.Json

inductive Value
  | null
  | boolean (value : Bool)
  | number
  /-- A string, as written between its quotes. -/
  | string (written : Bytes)
  | array (items : List Value)
  | object (members : List (Bytes × Value))

/-! ### Writing -/

mutual

/-- The text of a value, without spaces; a number is written as zero. -/
def Value.render : Value → Bytes
  | .null => [110, 117, 108, 108]
  | .boolean true => [116, 114, 117, 101]
  | .boolean false => [102, 97, 108, 115, 101]
  | .number => [48]
  | .string written => 34 :: written ++ [34]
  | .array items => 91 :: renderItems items ++ [93]
  | .object members => 123 :: renderMembers members ++ [125]

def renderItems : List Value → Bytes
  | [] => []
  | [item] => item.render
  | item :: rest => item.render ++ 44 :: renderItems rest

def renderMembers : List (Bytes × Value) → Bytes
  | [] => []
  | [(key, value)] => 34 :: key ++ [34, 58] ++ value.render
  | (key, value) :: rest => 34 :: key ++ [34, 58] ++ value.render ++ 44 :: renderMembers rest

end

/-! ### Reading -/

/-- An open container with what it holds so far, last item first. -/
inductive Container
  | array (items : List Value)
  /-- An object, with the key whose value comes next. -/
  | object (members : List (Bytes × Value)) (key : Bytes)

/-- What may come next. -/
inductive Position
  | value
  /-- A first item or the end of the array just opened. -/
  | firstItem
  /-- A first key or the end of the object just opened. -/
  | firstKey
  | key (members : List (Bytes × Value))
  | colon (members : List (Bytes × Value)) (key : Bytes)
  /-- A comma or the end of the array. -/
  | afterItem (items : List Value)
  /-- A comma or the end of the object. -/
  | afterMember (members : List (Bytes × Value))
  | finished (value : Value)

structure Reader where
  outer : List Container := []
  position : Position := .value

namespace Reader

/-- Hands a finished value to the innermost open container. -/
def deliver (outer : List Container) (value : Value) : Reader :=
  match outer with
  | [] => ⟨[], .finished value⟩
  | .array items :: outer => ⟨outer, .afterItem (value :: items)⟩
  | .object members key :: outer => ⟨outer, .afterMember ((key, value) :: members)⟩

/-- A token where a value is due. -/
def startValue? (outer : List Container) : Token → Option Reader
  | .null => some (deliver outer .null)
  | .boolean value => some (deliver outer (.boolean value))
  | .number => some (deliver outer .number)
  | .string written => some (deliver outer (.string written))
  | .openArray => some ⟨outer, .firstItem⟩
  | .openObject => some ⟨outer, .firstKey⟩
  | _ => none

def step? (reader : Reader) (token : Token) : Option Reader :=
  match reader.position, token with
  | .value, token => startValue? reader.outer token
  | .firstItem, .closeArray => some (deliver reader.outer (.array []))
  | .firstItem, token => startValue? (.array [] :: reader.outer) token
  | .firstKey, .closeObject => some (deliver reader.outer (.object []))
  | .firstKey, .string key => some ⟨reader.outer, .colon [] key⟩
  | .key members, .string key => some ⟨reader.outer, .colon members key⟩
  | .colon members key, .colon => some ⟨.object members key :: reader.outer, .value⟩
  | .afterItem items, .comma => some ⟨.array items :: reader.outer, .value⟩
  | .afterItem items, .closeArray => some (deliver reader.outer (.array items.reverse))
  | .afterMember members, .comma => some ⟨reader.outer, .key members⟩
  | .afterMember members, .closeObject => some (deliver reader.outer (.object members.reverse))
  | _, _ => none

def value? (reader : Reader) : Option Value :=
  match reader.position with
  | .finished value => some value
  | _ => none

end Reader

/-- The value of a whole text. -/
def parse? (text : Bytes) : Option Value := do
  let tokens ← tokens? text
  let reader ← tokens.foldlM Reader.step? {}
  reader.value?

end ContentProtection.Json
