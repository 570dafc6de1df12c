import ContentProtection.Key.Id
import ContentProtection.PlayReady.Object
import ContentProtection.Text.Blank
import ContentProtection.Text.Utf16
import ContentProtection.Xml.Document

/-!
# PlayReady headers

The rights management header is an XML document in UTF-16. Its version decides where the key ids stand: as the text of a `KID` element in 4.0.0.0, as the attribute `VALUE` of one in 4.1.0.0 to 4.3.0.0. Elements are found by their local names wherever they stand; one without a value is passed over. The first `LA_URL` gives the address of the license server.
-/

namespace ContentProtection.PlayReady

structure Header where
  keyIds : List Uuid
  licenseUrl : Option String
  deriving DecidableEq

def Fault.message : Fault → String
  | .tooShort => "PlayReady data too short"
  | .lengthMismatch => "PlayReady object length mismatch"
  | .truncatedRecord => "PlayReady record truncated"
  | .noHeader => "Unsupported PlayReady object"
  | .notText => "Invalid PlayReady XML"
  | .notXml => "PlayReady XML parse error: "
  | .noVersion => "Missing PlayReady version"
  | .unsupportedVersion version => "Unsupported PlayReady version " ++ version
  | .noKeyIds => "No PlayReady KIDs found"
  | .keyId fault => fault.message

/-- A header version, for where it puts key ids. -/
inductive Version
  | elementText
  | valueAttribute
  deriving DecidableEq, Repr

def Version.ofText? (text : List Char) : Option Version :=
  if text = "4.0.0.0".toList then some .elementText
  else if ["4.1.0.0".toList, "4.2.0.0".toList, "4.3.0.0".toList].contains text then some .valueAttribute
  else none

/-- The written key id of a `KID` element. -/
def Version.keyIdText? (version : Version) (element : Xml.Node) : Option (List Char) :=
  match version with
  | .elementText => element.text?
  | .valueAttribute => element.attribute? "VALUE".toList

/-- Sixteen bytes are in mixed byte order; other lengths are brought to a UUID like any key id. -/
def keyIdOfBytes (bytes : Bytes) : Uuid :=
  match Uuid.ofBytes? bytes with
  | some stored => stored.ofMixedEndian
  | none => KeyId.normalize bytes

def readKeyId (text : List Char) : Except Fault Uuid :=
  match Base64.decode Base64.standard (Utf8.encode (Blank.trim text)) with
  | .ok bytes => .ok (keyIdOfBytes bytes)
  | .error fault => .error (.keyId fault)

namespace Header

/-- The key ids under the root, in document order. The version is looked at only when there is a `KID` element. -/
def readKeyIds (version : List Char) (root : Xml.Node) : Except Fault (List Uuid) :=
  let elements := root.elementsNamed "KID".toList
  match elements, Version.ofText? version with
  | [], _ => .error .noKeyIds
  | _ :: _, none => .error (.unsupportedVersion (String.ofList version))
  | elements, some version => do
    let keyIds ← (elements.filterMap version.keyIdText?).mapM readKeyId
    if keyIds.isEmpty then .error .noKeyIds else .ok keyIds

def licenseUrl? (root : Xml.Node) : Option String :=
  (root.elementsNamed "LA_URL".toList).head?.bind fun element =>
    element.text?.map fun text => String.ofList (Blank.trim text)

def ofRoot (root : Xml.Node) : Except Fault Header :=
  match root.attribute? "version".toList with
  | none => .error .noVersion
  | some version => (readKeyIds version root).map fun keyIds => ⟨keyIds, licenseUrl? root⟩

/-- Reads the text of a header. -/
def ofText (text : List Char) : Except Fault Header :=
  match Xml.parse? text with
  | none => .error .notXml
  | some root => ofRoot root

/-- Reads the payload of a header record. An odd last byte is no part of the text. -/
def ofPayload (payload : Bytes) : Except Fault Header :=
  match Utf16.decode? payload with
  | none => .error .notText
  | some text => ofText text

/-- Reads the header in an object. -/
def ofObject (bytes : Bytes) : Except Fault Header := (headerPayload bytes).bind ofPayload

end Header

end ContentProtection.PlayReady
