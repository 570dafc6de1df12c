import ContentProtection.Duration
import ContentProtection.PlayReady.Header
import ContentProtection.Session.Fault
import ContentProtection.Widevine

/-!
# Errors

What can go wrong between a manifest and a ready session, by cause. `Error.message` gives each cause its wording.
-/

namespace ContentProtection

/-- Why init data cannot be used. -/
inductive InitDataFault
  | empty
  /-- The data is in none of the known forms. -/
  | unrecognised
  /-- The box lists no key ids, and its system does not say where else they are. -/
  | noKeyIdsForSystem
  /-- A reason in a host's own words. -/
  | described (reason : String)
  deriving DecidableEq, Repr

def InitDataFault.message : InitDataFault → String
  | .empty => "Data must not be empty"
  | .unrecognised => "Could not parse data as PSSH or Widevine PSSH Data"
  | .noKeyIdsForSystem => "Unsupported system ID for key_ids"
  | .described reason => reason

/-- Refusals of the operating system, with its wording. -/
inductive SystemFault
  | noSuchFile
  | noSuchProcess
  | notUtf8
  deriving DecidableEq, Repr

def SystemFault.message : SystemFault → String
  | .noSuchFile => "No such file or directory (os error 2)"
  | .noSuchProcess => "No such process (os error 3)"
  | .notUtf8 => "stream did not contain valid UTF-8"

inductive Error
  | unsupportedKeySystem (keySystem : String)
  /-- A native session is asked for and there is no content decryption module. -/
  | noModule (keySystem : String)
  | initData (fault : InitDataFault)
  | playReady (fault : PlayReady.Fault)
  | widevine (fault : Widevine.DecodeFault)
  | base64 (fault : Base64.Fault)
  | decode (reason : String)
  | license (reason : String)
  | keyRequestTimeout (timeout : Duration)
  | licenseFetch (reason : String)
  | session (fault : Session.Fault)
  | configuration
  | io (fault : SystemFault)
  | other (reason : String)
  deriving DecidableEq, Repr

def Error.message : Error → String
  | .unsupportedKeySystem keySystem => "Unsupported key system: " ++ keySystem
  | .noModule keySystem => "No CDM binding configured for key system " ++ keySystem
  | .initData fault => "Invalid init data: " ++ fault.message
  | .playReady (.keyId fault) => "Base64 decode error: " ++ fault.message
  | .playReady fault => "Invalid init data: " ++ fault.message
  | .widevine fault => "Decode error: Failed to parse WidevinePsshData: " ++ fault.message
  | .base64 fault => "Base64 decode error: " ++ fault.message
  | .decode reason => "Decode error: " ++ reason
  | .license reason => "Invalid license: " ++ reason
  | .keyRequestTimeout timeout => s!"No key request produced within {timeout}"
  | .licenseFetch reason => "License acquisition failed: " ++ reason
  | .session fault => fault.message
  | .configuration => "Configuration error"
  | .io fault => "IO error: " ++ fault.message
  | .other reason => reason

end ContentProtection
