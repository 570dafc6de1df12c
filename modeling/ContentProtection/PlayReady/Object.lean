import ContentProtection.Bytes
import ContentProtection.Text.Base64

/-!
# PlayReady objects

An object is a list of typed records with its own total length in front, all integers least significant byte first. The record of type 1 is the rights management header; others are embedded stores, which are passed over. Records after the first header are not read, so what they hold cannot matter.
-/

namespace ContentProtection.PlayReady

/-- Why an object or its header cannot be read. -/
inductive Fault
  | tooShort
  | lengthMismatch
  | truncatedRecord
  | noHeader
  | notText
  | notXml
  | noVersion
  | unsupportedVersion (version : String)
  | noKeyIds
  /-- A key id is not base64. -/
  | keyId (fault : Base64.Fault)
  deriving DecidableEq, Repr

structure Record where
  type : Nat
  payload : Bytes
  deriving DecidableEq, Repr

/-- The type of the rights management header. -/
def headerType : Nat := 1

/-! ### Writing -/

def Record.encode (record : Record) : Bytes :=
  Bytes.ofNatLE 2 record.type ++ Bytes.ofNatLE 2 record.payload.length ++ record.payload

def encode (records : List Record) : Bytes :=
  let body := records.flatMap Record.encode
  Bytes.ofNatLE 4 (body.length + 6) ++ Bytes.ofNatLE 2 records.length ++ body

/-! ### Reading -/

/-- Reads one record. -/
def readRecord? (bytes : Bytes) : Option (Record × Bytes) := do
  let (type, rest) ← bytes.split? 2
  let (length, rest) ← rest.split? 2
  let (payload, rest) ← rest.split? length.toNatLE
  pure (⟨type.toNatLE, payload⟩, rest)

/-- The payload of the first header among the next `count` records. -/
def findHeader : (count : Nat) → Bytes → Except Fault Bytes
  | 0, _ => .error .noHeader
  | count + 1, bytes =>
    match readRecord? bytes with
    | none => .error .truncatedRecord
    | some (record, rest) => if record.type = headerType then .ok record.payload else findHeader count rest

/-- The payload of an object's first header. The object must be as long as it states. -/
def headerPayload (bytes : Bytes) : Except Fault Bytes :=
  if bytes.length < 6 then .error .tooShort
  else if Bytes.toNatLE (bytes.take 4) ≠ bytes.length then .error .lengthMismatch
  else findHeader (Bytes.toNatLE ((bytes.drop 4).take 2)) (bytes.drop 6)

end ContentProtection.PlayReady
