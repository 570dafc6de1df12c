import ContentProtection.Uuid

/-!
# Protection systems

The systems a stream can be protected with: each has a registered UUID, which boxes and manifests carry, and a key system name, which content decryption modules understand.
-/

namespace ContentProtection

inductive ProtectionSystem
  | widevine
  | playReady
  | clearKey
  | verimatrix
  deriving DecidableEq, Repr

namespace ProtectionSystem

def all : List ProtectionSystem := [widevine, playReady, clearKey, verimatrix]

/-- The registered identifier. -/
def uuid : ProtectionSystem → Uuid
  | widevine => ⟨[0xed, 0xef, 0x8b, 0xa9, 0x79, 0xd6, 0x4a, 0xce, 0xa3, 0xc8, 0x27, 0xdc, 0xd5, 0x1d, 0x21, 0xed], rfl⟩
  | playReady => ⟨[0x9a, 0x04, 0xf0, 0x79, 0x98, 0x40, 0x42, 0x86, 0xab, 0x92, 0xe6, 0x5b, 0xe0, 0x88, 0x5f, 0x95], rfl⟩
  | clearKey => ⟨[0x10, 0x77, 0xef, 0xec, 0xc0, 0xb2, 0x4d, 0x02, 0xac, 0xe3, 0x3c, 0x1e, 0x52, 0xe2, 0xfb, 0x4b], rfl⟩
  | verimatrix => ⟨[0x9a, 0x27, 0xdd, 0x82, 0xfd, 0xe2, 0x47, 0x25, 0x8c, 0xbc, 0x42, 0x34, 0xaa, 0x06, 0xec, 0x09], rfl⟩

def ofUuid? (uuid : Uuid) : Option ProtectionSystem := all.find? fun system => system.uuid = uuid

/-- The name that a content decryption module knows the system by. -/
def keySystem : ProtectionSystem → String
  | widevine => "com.widevine.alpha"
  | playReady => "com.microsoft.playready"
  | clearKey => "org.w3.clearkey"
  | verimatrix => "com.verimatrix.ott"

end ProtectionSystem

end ContentProtection
