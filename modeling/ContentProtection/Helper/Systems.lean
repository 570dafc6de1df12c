import ContentProtection.Helper.Basic

/-!
# Helpers of the known systems

Each of them checks all of the data before it writes the first field.
-/

namespace ContentProtection.Helper

open Reading

/-- Widevine: the data must belong to Widevine and name its key ids; it is the init data as it stands. -/
def readWidevine (data : Bytes) : Reading := do
  let .ok pssh := Pssh.parse false data | error .unusable
  match pssh.keyIds with
  | .error cause => error (.noKeyIds cause)
  | .ok keyIds =>
    if pssh.systemId ≠ ProtectionSystem.widevine.uuid then error .unusable
    else
      setKeyIds keyIds
      setInitData data

/-- PlayReady: key ids and license server come from the header in the init data, whatever system the box names. -/
def readPlayReady (data : Bytes) : Reading := do
  let .ok pssh := Pssh.parse false data | error .unusable
  match PlayReady.Header.ofObject pssh.initData with
  | .error fault => error (.noHeader (.playReady fault))
  | .ok header =>
    setKeyIds header.keyIds
    setLicenseUrl header.licenseUrl
    setInitData data

/-- Clear key: the data must be recognised, not just taken for Widevine's, and name at least one key id. -/
def readClearKey (data : Bytes) : Reading := do
  let .ok pssh := Pssh.parse true data | error .unusable
  match pssh.keyIds with
  | .error _ | .ok [] => error .unusable
  | .ok keyIds =>
    setKeyIds keyIds
    setInitData data

/-- Verimatrix: any data but none at all is the init data. -/
def readVerimatrix (data : Bytes) : Reading :=
  if data.isEmpty then error .unusable else setInitData data

/-- The key URI, when it is an address of its own and does not hold data. -/
def licenseUrlOfKeyUri (info : ProtectionInfo) : Option String :=
  if info.keyUri = "" ∨ "data:".toList.isPrefixOf info.keyUri.toList then none else some info.keyUri

/-- The helper kind of each system. Only PlayReady's data name a license server. -/
def Kind.ofSystem : ProtectionSystem → Kind
  | .widevine =>
    { name := "Widevine", system := .widevine, read := fun _ => readWidevine
      tell := fun _ held => { held with licenseUrl := none } }
  | .playReady => { name := "PlayReady", system := .playReady, read := fun _ => readPlayReady }
  | .clearKey =>
    { name := "Clearkey", system := .clearKey, read := fun _ => readClearKey
      tell := fun info held => { held with licenseUrl := licenseUrlOfKeyUri info } }
  | .verimatrix =>
    { name := "Verimatrix", system := .verimatrix, isRaw := true, read := fun _ => readVerimatrix
      tell := fun _ held => { initData := held.initData } }

end ContentProtection.Helper
