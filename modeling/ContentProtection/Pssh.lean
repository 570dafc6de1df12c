import ContentProtection.Error
import ContentProtection.Search
import ContentProtection.ProtectionSystem

/-!
# Protection system specific headers

A `pssh` box names a protection system and carries its init data; boxes of version 1 list key ids as well. Init data also comes without a box: as bare Widevine protection data, recognised by being in canonical form, or as a PlayReady object, recognised by the end tag of its header. Such data is wrapped in a header of version 0. Strict reading refuses anything else; lenient reading takes it for Widevine's.

A box is written with a 32-bit size. It is read with a 32-bit size, with a 64-bit size after a size of 1, or with a size of 0 for "up to the end". The size must not exceed the data, and the parts of the box must lie within the data; bytes after the box do not matter.
-/

namespace ContentProtection

structure Pssh where
  version : UInt8
  flags : UInt32
  systemId : Uuid
  /-- The key ids that a box of version 1 lists. -/
  listedKeyIds : List Uuid
  initData : Bytes
  deriving DecidableEq

namespace Pssh

/-- A box of version 1 that only lists key ids. -/
def ofKeyIds (system : ProtectionSystem) (keyIds : List Uuid) : Pssh := ⟨1, 0, system.uuid, keyIds, []⟩

/-- A header of version 0 around init data. -/
def wrap (system : ProtectionSystem) (initData : Bytes) : Pssh := ⟨0, 0, system.uuid, [], initData⟩

/-- The box type `pssh`. -/
def boxType : Bytes := [112, 115, 115, 104]

/-! ### Writing -/

def encodeKeyIds (keyIds : List Uuid) : Bytes :=
  Bytes.ofNatBE 4 keyIds.length ++ keyIds.flatMap Uuid.bytes

/-- The box without its size and type. -/
def body (pssh : Pssh) : Bytes :=
  pssh.version :: Bytes.ofNatBE 3 pssh.flags.toNat ++ pssh.systemId.bytes
    ++ (if pssh.version = 1 then encodeKeyIds pssh.listedKeyIds else [])
    ++ Bytes.ofNatBE 4 pssh.initData.length ++ pssh.initData

def toBytes (pssh : Pssh) : Bytes := Bytes.ofNatBE 4 (pssh.body.length + 8) ++ boxType ++ pssh.body

/-! ### Reading -/

/-- Reads size and type of a box that starts `bytes`; gives the size and what follows. -/
def readBoxStart? (bytes : Bytes) : Option (Nat × Bytes) := do
  let (size, rest) ← bytes.split? 4
  let (type, rest) ← rest.split? 4
  if type ≠ boxType then none
  else if size.toNatBE = 1 then (rest.split? 8).map fun (size, rest) => (size.toNatBE, rest)
  else if size.toNatBE = 0 then some (bytes.length, rest)
  else some (size.toNatBE, rest)

def readUuid? (bytes : Bytes) : Option (Uuid × Bytes) := do
  let (bytes, rest) ← bytes.split? 16
  let uuid ← Uuid.ofBytes? bytes
  pure (uuid, rest)

def readUuids? : (count : Nat) → Bytes → Option (List Uuid × Bytes)
  | 0, bytes => some ([], bytes)
  | count + 1, bytes => do
    let (uuid, rest) ← readUuid? bytes
    let (uuids, rest) ← readUuids? count rest
    pure (uuid :: uuids, rest)

def readKeyIds? (bytes : Bytes) : Option (List Uuid × Bytes) := do
  let (count, rest) ← bytes.split? 4
  readUuids? count.toNatBE rest

/-- Reads the body of a box and gives what follows it. -/
def readBody? : Bytes → Option (Pssh × Bytes)
  | [] => none
  | version :: bytes => do
    let (flags, rest) ← Bytes.split? 3 bytes
    let (systemId, rest) ← readUuid? rest
    let (keyIds, rest) ← if version = 1 then readKeyIds? rest else some ([], rest)
    let (length, rest) ← rest.split? 4
    let (initData, rest) ← rest.split? length.toNatBE
    pure (⟨version, UInt32.ofNat flags.toNatBE, systemId, keyIds, initData⟩, rest)

/-- Reads data that starts with a box. -/
def ofBox? (bytes : Bytes) : Option Pssh := do
  let (size, rest) ← readBoxStart? bytes
  if bytes.length < size then none else (readBody? rest).map Prod.fst

/-- The end tag of a PlayReady header. -/
def headerEndTag : Bytes := Utf16.encode "</WRMHEADER>".toList

/-- The system whose init data the bytes can be recognised as. -/
def recognise? (bytes : Bytes) : Option ProtectionSystem :=
  if Widevine.ProtectionData.isCanonical bytes then some .widevine
  else if Search.occurs headerEndTag bytes then some .playReady
  else none

/-- Reads a box or bare init data. -/
def parse (strict : Bool) (bytes : Bytes) : Except InitDataFault Pssh :=
  if bytes.isEmpty then .error .empty
  else match ofBox? bytes, recognise? bytes with
    | some pssh, _ => .ok pssh
    | none, some system => .ok (wrap system bytes)
    | none, none => if strict then .error .unrecognised else .ok (wrap .widevine bytes)

/-- Reads base64 text with blanks around it, leniently. -/
def ofBase64 (text : String) : Except Error Pssh :=
  match Base64.decode Base64.standard (Utf8.encode (Blank.trim text.toList)) with
  | .error fault => .error (.base64 fault)
  | .ok bytes => (parse false bytes).mapError .initData

/-! ### Key ids -/

/-- The key ids that a box lists or, when it lists none, that its init data names. -/
def keyIds (pssh : Pssh) : Except Error (List Uuid) :=
  if pssh.version = 1 ∧ pssh.listedKeyIds ≠ [] then .ok pssh.listedKeyIds
  else match ProtectionSystem.ofUuid? pssh.systemId with
    | some .widevine =>
      match Widevine.ProtectionData.decode pssh.initData with
      | .ok data => .ok (data.keyIds.map KeyId.normalize)
      | .error fault => .error (.widevine fault)
    | some .playReady => (PlayReady.Header.ofObject pssh.initData).mapError .playReady |>.map PlayReady.Header.keyIds
    | _ => .error (.initData .noKeyIdsForSystem)

end Pssh

end ContentProtection
