import ContentProtection.Json.Record
import ContentProtection.Text.Base64
import ContentProtection.Text.Blank
import ContentProtection.Uuid

/-!
# Key sets

A clear key license is a JSON Web Key set. The key for a key id is the first one of type `oct` with the right length whose own id is that key id. A key without an id, or with an id that cannot be decoded, is taken for any key id, and so is any key by a session that has no key id.
-/

namespace ContentProtection.ClearKey

structure ContentKey where
  bytes : Bytes
  length_eq : bytes.length = 16

instance : DecidableEq ContentKey
  | ⟨left, _⟩, ⟨right, _⟩ =>
    if h : left = right then isTrue (by subst h; rfl) else isFalse fun heq => h (congrArg ContentKey.bytes heq)

def ContentKey.ofBytes? (bytes : Bytes) : Option ContentKey :=
  if h : bytes.length = 16 then some ⟨bytes, h⟩ else none

structure WebKey where
  type : List Char
  value : List Char
  keyId : Option (List Char) := none
  deriving DecidableEq, Repr

structure KeySet where
  keys : List WebKey
  deriving DecidableEq, Repr

/-! ### Reading -/

def WebKey.ofJson? (json : Json.Value) : Option WebKey := do
  match ← json.fields? ["kty".toList, "k".toList, "kid".toList] with
  | [some type, some value, keyId] =>
    let type ← type.text?
    let value ← value.text?
    let keyId ← Json.optionalText? keyId
    pure { type, value, keyId }
  | _ => none

def KeySet.ofJson? (json : Json.Value) : Option KeySet := do
  match ← json.fields? ["keys".toList] with
  | [some (.array items)] => (items.mapM WebKey.ofJson?).map KeySet.mk
  | _ => none

def KeySet.parse? (license : Bytes) : Option KeySet := (Json.parse? license).bind KeySet.ofJson?

/-! ### Choosing a key -/

/-- The text without the pad symbols at its end. -/
def dropPadding (text : List Char) : List Char := (text.reverse.dropWhile (· = '=')).reverse

/-- Decodes the URL-safe alphabet, with padding or without, else the standard alphabet with padding. Blanks around the text do not matter. -/
def decodeText? (text : List Char) : Option Bytes :=
  let trimmed := Blank.trim text
  match Base64.decode Base64.urlSafe (Utf8.encode (dropPadding trimmed)) with
  | .ok bytes => some bytes
  | .error _ => (Base64.decode Base64.standard (Utf8.encode trimmed)).toOption

namespace WebKey

def isOctets (key : WebKey) : Bool := key.type = "oct".toList

/-- Whether the key may serve a key id. -/
def serves (key : WebKey) (wanted : Option Uuid) : Bool :=
  match wanted, key.keyId.bind decodeText? with
  | some wanted, some keyId => keyId = wanted.bytes
  | _, _ => true

def contentKey? (key : WebKey) : Option ContentKey := (decodeText? key.value).bind ContentKey.ofBytes?

end WebKey

/-- The key for a key id. -/
def KeySet.select? (set : KeySet) (wanted : Option Uuid) : Option ContentKey :=
  (set.keys.filter fun key => key.isOctets && key.serves wanted).findSome? WebKey.contentKey?

/-! ### Asking for a key -/

/-- The request for a key, in which ids have the URL-safe alphabet and no padding. -/
def requestFor (keyId : Uuid) : Bytes :=
  (Json.Value.object
    [(Utf8.encode "kids".toList, .array [.string (Base64.encode Base64.urlSafe keyId.bytes)]),
      (Utf8.encode "type".toList, .string (Utf8.encode "temporary".toList))]).render

end ContentProtection.ClearKey
