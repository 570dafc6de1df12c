import ContentProtection.Uuid
import ContentProtection.Text.Utf8

/-!
# Key ids

A content key is named by sixteen bytes, but init data spells the name in several ways. `normalize` brings each to a UUID.
-/

namespace ContentProtection.KeyId

/-- The UUID form for sixteen bytes, hexadecimal digits otherwise. -/
def display (keyId : Bytes) : String :=
  match Uuid.ofBytes? keyId with
  | some uuid => uuid.toText
  | none => String.ofList (Hex.encode keyId)

/-- Sixteen bytes stand for themselves and 32 hexadecimal digits for the UUID they spell; of anything else the last sixteen bytes count, with zero bytes in front of a shorter id. -/
def normalize (keyId : Bytes) : Uuid :=
  match Uuid.ofBytes? keyId with
  | some uuid => uuid
  | none =>
    if keyId.length = 32 then ((Utf8.decode? keyId).bind Uuid.ofText?).getD (Uuid.ofLastBytes keyId)
    else Uuid.ofLastBytes keyId

end ContentProtection.KeyId
