import ContentProtection.Json.Text

/-!
# JSON records

A record has named fields in a fixed order. It is written as an object, whose unknown members are skipped and in which no field may stand twice, or as an array with the fields in order, of which the last ones may be missing.
-/

namespace ContentProtection.Json

/-- The value of one field among members whose keys have been decoded. -/
def field? (members : List (List Char × Value)) (name : List Char) : Option (Option Value) :=
  match members.filter fun member => member.1 = name with
  | [] => some none
  | [member] => some (some member.2)
  | _ => none

/-- The values of the named fields, in their order. -/
def Value.fields? (names : List (List Char)) : Value → Option (List (Option Value))
  | .object members => do
    let decoded ← members.mapM fun (key, value) => (decode? key).map fun key => (key, value)
    names.mapM (field? decoded)
  | .array items =>
    if items.length ≤ names.length then
      some (items.map some ++ List.replicate (names.length - items.length) none)
    else none
  | _ => none

def Value.text? : Value → Option (List Char)
  | .string written => decode? written
  | _ => none

/-- A text that may be missing or null. -/
def optionalText? : Option Value → Option (Option (List Char))
  | none | some .null => some none
  | some value => value.text?.map some

end ContentProtection.Json
