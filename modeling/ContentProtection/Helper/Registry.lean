import ContentProtection.Helper.Systems

/-!
# Helper registries

Which factory makes the helpers for which system UUID. The last registration for a UUID counts.
-/

namespace ContentProtection.Helper

/-- Makes a fresh helper for a stream. -/
abbrev Factory := ProtectionInfo → Helper

/-- A kind makes helpers of this kind. -/
instance : Coe Kind Factory := ⟨ofInfo⟩

/-- Registrations, latest first. -/
structure Registry where
  entries : List (Uuid × Factory)

namespace Registry

def empty : Registry := ⟨[]⟩

def register (registry : Registry) (uuid : Uuid) (factory : Factory) : Registry :=
  ⟨(uuid, factory) :: registry.entries⟩

def contains (registry : Registry) (uuid : Uuid) : Bool := registry.entries.any fun entry => entry.1 = uuid

def find? (registry : Registry) (uuid : Uuid) : Option Factory :=
  (registry.entries.find? fun entry => entry.1 = uuid).map Prod.snd

/-- The registry with a helper for each known system. -/
def standard : Registry :=
  ProtectionSystem.all.foldl (fun registry system => registry.register system.uuid (Kind.ofSystem system)) empty

/-- The text of a system UUID without the blanks around it and without `urn:uuid:` in front. -/
def bareText (text : String) : List Char :=
  let trimmed := Blank.trim text.toList
  (Search.dropMarker? Uuid.scheme trimmed).getD trimmed

/-- Reads the UUID of a system in any of the spellings of UUIDs. -/
def readSystemUuid? (text : String) : Option Uuid := Uuid.ofText? (bareText text)

/-- Whether the system of a stream is known. -/
def knows (registry : Registry) (info : ProtectionInfo) : Bool :=
  (readSystemUuid? info.systemUuid).any registry.contains

/-- A fresh helper for a stream, when its system is known. -/
def helperFor? (registry : Registry) (info : ProtectionInfo) : Option Helper := do
  let uuid ← readSystemUuid? info.systemUuid
  let factory ← registry.find? uuid
  pure (factory info)

end Registry

end ContentProtection.Helper
