import ContentProtection.Helper.Registry
import ContentProtection.Hls.Attributes

/-!
# Key tags

An `EXT-X-KEY` tag names a protection system by `KEYFORMAT` and carries its protection data in `URI`. `helperFor` finds the helper and has it read the data, or says at which step that failed.
-/

namespace ContentProtection.Hls

/-- Why a key tag gives no helper. -/
inductive KeyTagFault
  | noKeyFormat (attributes : String)
  | noUri (attributes : String)
  | unknownKeyFormat (keyFormat : String)
  | notBase64 (fault : Base64.Fault)
  | emptyData (helperName : String)
  | refused (helperName : String) (refusal : Helper.Refusal)
  deriving DecidableEq, Repr

/-- The warnings about a fault, in the order of their causes. -/
def KeyTagFault.warnings : KeyTagFault → List String
  | .noKeyFormat attributes => ["EXT-X-KEY without KEYFORMAT: " ++ attributes]
  | .noUri attributes => ["EXT-X-KEY without URI: " ++ attributes]
  | .unknownKeyFormat keyFormat => ["No DRM helper for key format " ++ keyFormat]
  | .notBase64 fault => ["Key URI is not base64 PSSH data: " ++ fault.message]
  | .emptyData helperName => [helperName ++ " key URI carries no PSSH data"]
  | .refused helperName refusal => refusal.warning?.toList ++ [helperName ++ " PSSH parse failed"]

/-- The protection data in a key URI: all of it as it is for a raw system, else what follows the first comma (all of it, when there is none), in base64. -/
def protectionDataOfUri (uri : String) (isRaw : Bool) : Except Base64.Fault Bytes :=
  if isRaw then .ok (Utf8.encode uri.toList)
  else
    let encoded := match Search.splitAtFirst? [','] uri.toList with
      | some (_, data) => data
      | none => uri.toList
    Base64.decode Base64.standard (Utf8.encode (Blank.trim encoded))

/-- The system UUID in a key format: without one `urn:uuid:` in front. -/
def systemUuidOfKeyFormat (keyFormat : String) : String :=
  match Search.dropMarker? Uuid.scheme keyFormat.toList with
  | some rest => String.ofList rest
  | none => keyFormat

/-- The helper for the attribute list of a key tag, with its data read. -/
def helperFor (registry : Helper.Registry) (attributes : String) (hdcp22Required : Bool) :
    Except KeyTagFault Helper := do
  let some keyFormat := findAttribute? attributes "KEYFORMAT" | .error (.noKeyFormat attributes)
  let some uri := findAttribute? attributes "URI" | .error (.noUri attributes)
  let info : ProtectionInfo :=
    { systemUuid := systemUuidOfKeyFormat keyFormat
      method := (findAttribute? attributes "METHOD").getD ""
      keyUri := uri
      hdcp22Required }
  let some helper := registry.helperFor? info | .error (.unknownKeyFormat keyFormat)
  let data ← (protectionDataOfUri uri helper.kind.isRaw).mapError .notBase64
  if data.isEmpty then .error (.emptyData helper.kind.name)
  else (helper.read data).mapError (.refused helper.kind.name)

end ContentProtection.Hls
