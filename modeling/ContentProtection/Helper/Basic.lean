import ContentProtection.Pssh

/-!
# Helpers

A helper knows how one protection system describes its data. The kind of a helper is a record of that knowledge, which hosts can make for systems of their own; a helper of that kind adds the manifest's description of the stream and what it holds of the protection data it has read so far. Each reading works on what is held and writes the fields that it knows about, one after the other; what it has written by the time it refuses the data stays.
-/

namespace ContentProtection

/-- What a manifest says about the protection of a stream. -/
structure ProtectionInfo where
  /-- A UUID in text form. -/
  systemUuid : String := ""
  method : String := ""
  keyUri : String := ""
  manifestUrl : String := ""
  hdcp22Required : Bool := false
  deriving DecidableEq, Repr

/-- A memory system that the host has set up, by number. -/
structure MemoryId where
  number : Nat
  deriving DecidableEq, Repr

namespace Helper

/-- What a helper takes from protection data, and what it tells of it. -/
structure Contents where
  initData : Bytes := []
  keyIds : List Uuid := []
  licenseUrl : Option String := none
  deriving DecidableEq

/-- Why a helper refuses protection data. -/
inductive Refusal
  | unusable
  /-- Widevine data whose key ids cannot be read. -/
  | noKeyIds (error : Error)
  /-- A PlayReady object whose header cannot be read. -/
  | noHeader (error : Error)
  deriving DecidableEq, Repr

/-- The warning about a refusal, where its cause says more than the refusal itself. -/
def Refusal.warning? : Refusal → Option String
  | unusable => none
  | noKeyIds error => some ("Widevine PSSH without usable key ids: " ++ error.message)
  | noHeader error => some ("PlayReady header parse failed: " ++ error.message)

/-! ### Readings -/

/-- Reads protection data into what a helper holds, or refuses it. -/
abbrev Reading := ExceptT Refusal (StateM Contents) Unit

namespace Reading

/-- Whether the data was taken, and what is held afterwards. -/
def run (reading : Reading) (held : Contents) : Except Refusal Unit × Contents := StateT.run (ExceptT.run reading) held

def error (refusal : Refusal) : Reading := throw refusal

/-- Holds the contents in place of all that was held, as readings of a host's own kinds may. -/
def ok (contents : Contents) : Reading := set contents

def setInitData (initData : Bytes) : Reading := modify fun held => { held with initData }

def setKeyIds (keyIds : List Uuid) : Reading := modify fun held => { held with keyIds }

def setLicenseUrl (licenseUrl : Option String) : Reading := modify fun held => { held with licenseUrl }

end Reading

structure Kind where
  name : String
  system : ProtectionSystem
  /-- Whether key URIs hold the protection data as it is and not in base64. -/
  isRaw : Bool := false
  /-- Reads protection data for a stream. -/
  read : ProtectionInfo → Bytes → Reading
  /-- What a helper for a stream tells of what it holds. -/
  tell : ProtectionInfo → Contents → Contents := fun _ held => held
  memory : Option MemoryId := none

end Helper

structure Helper where
  kind : Helper.Kind
  info : ProtectionInfo
  held : Helper.Contents := {}

namespace Helper

def ofInfo (kind : Kind) (info : ProtectionInfo) : Helper := { kind, info }

def keySystem (helper : Helper) : String := helper.kind.system.keySystem

def contents (helper : Helper) : Contents := helper.kind.tell helper.info helper.held

/-- The helper after it was given protection data, and whether it took them. -/
def offer (helper : Helper) (data : Bytes) : Bool × Helper :=
  let (answer, held) := (helper.kind.read helper.info data).run helper.held
  (answer.isOk, { helper with held })

/-- The helper after it took protection data, for those who drop a helper that refuses them. -/
def read (helper : Helper) (data : Bytes) : Except Refusal Helper :=
  let (answer, held) := (helper.kind.read helper.info data).run helper.held
  answer.map fun _ => { helper with held }

end Helper

end ContentProtection
