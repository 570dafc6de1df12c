import ContentProtection.Protobuf.Wire
import ContentProtection.Text.Utf8

/-!
# Widevine protection data

The init data of a Widevine box is a protobuf message with four fields: key ids (2, repeated), provider (3), content id (4) and policy (6). Writing puts the present fields in the order of their numbers. Reading takes fields in any order, keeps the last of several values and skips fields it does not know, so several byte strings stand for one message and exactly one of them is canonical: the one that writing gives.
-/

namespace ContentProtection.Widevine

structure ProtectionData where
  keyIds : List Bytes := []
  provider : Option String := none
  contentId : Option Bytes := none
  policy : Option String := none
  deriving DecidableEq

inductive Field
  | keyIds
  | provider
  | contentId
  | policy
  deriving DecidableEq, Repr

namespace Field

def number : Field → Nat
  | keyIds => 2
  | provider => 3
  | contentId => 4
  | policy => 6

def ofNumber? : Nat → Option Field
  | 2 => some keyIds
  | 3 => some provider
  | 4 => some contentId
  | 6 => some policy
  | _ => none

/-- The field's name with the message's in front, as error messages give it. -/
def name : Field → String
  | keyIds => "WidevinePsshData.key_ids"
  | provider => "WidevinePsshData.provider"
  | contentId => "WidevinePsshData.content_id"
  | policy => "WidevinePsshData.policy"

def encode (field : Field) (value : Bytes) : Bytes :=
  (Protobuf.Key.mk field.number .lengthDelimited).encode ++ Protobuf.encodeDelimited value

end Field

/-- A fault, with the field whose value has it; a fault between fields has none. -/
structure DecodeFault where
  field : Option Field
  fault : Protobuf.Fault
  deriving DecidableEq, Repr

def DecodeFault.message (failure : DecodeFault) : String :=
  let location := match failure.field with
    | some field => field.name ++ ": "
    | none => ""
  "failed to decode Protobuf message: " ++ location ++ failure.fault.message

namespace ProtectionData

/-! ### Writing -/

def encode (data : ProtectionData) : Bytes :=
  data.keyIds.flatMap (Field.keyIds.encode ·)
    ++ data.provider.elim [] (fun text => Field.provider.encode (Utf8.encode text.toList))
    ++ data.contentId.elim [] Field.contentId.encode
    ++ data.policy.elim [] (fun text => Field.policy.encode (Utf8.encode text.toList))

/-! ### Reading -/

/-- The message with one more field value. -/
def put (data : ProtectionData) (field : Field) (value : Bytes) : Except Protobuf.Fault ProtectionData :=
  match field with
  | .keyIds => .ok { data with keyIds := data.keyIds ++ [value] }
  | .contentId => .ok { data with contentId := some value }
  | .provider =>
    match Utf8.decode? value with
    | some text => .ok { data with provider := some (String.ofList text) }
    | none => .error .notUtf8
  | .policy =>
    match Utf8.decode? value with
    | some text => .ok { data with policy := some (String.ofList text) }
    | none => .error .notUtf8

/-- Reads one field value and puts it into the message. -/
def readField (data : ProtectionData) (field : Field) (wireType : Protobuf.WireType) (bytes : Bytes) :
    Except Protobuf.Fault (ProtectionData × Bytes) :=
  if wireType ≠ .lengthDelimited then .error (.wrongWireType wireType .lengthDelimited)
  else match Protobuf.readDelimited bytes with
    | .error fault => .error fault
    | .ok (value, rest) => (data.put field value).map fun data => (data, rest)

theorem length_of_readField {data next : ProtectionData} {field : Field} {wireType : Protobuf.WireType}
    {bytes rest : Bytes} (hread : data.readField field wireType bytes = .ok (next, rest)) :
    rest.length < bytes.length := by
  unfold readField at hread
  split at hread
  · simp at hread
  · split at hread
    · simp at hread
    · rename_i value remaining hdelimited
      cases hput : data.put field value with
      | error fault => simp [hput, Except.map] at hread
      | ok result =>
        simp [hput, Except.map] at hread
        exact hread.2 ▸ Protobuf.length_of_readDelimited hdelimited

/-- Reads the fields up to the end of the input into the message. -/
def readFields (data : ProtectionData) (bytes : Bytes) : Except DecodeFault ProtectionData :=
  if bytes.isEmpty then .ok data
  else match hkey : Protobuf.readKey bytes with
    | .error fault => .error ⟨none, fault⟩
    | .ok (key, rest) =>
      have := Protobuf.length_of_readKey hkey
      match Field.ofNumber? key.number with
      | some field =>
        match hfield : data.readField field key.wireType rest with
        | .error fault => .error ⟨some field, fault⟩
        | .ok (data, rest') =>
          have := length_of_readField hfield
          readFields data rest'
      | none =>
        match hskip : Protobuf.skipValue key rest with
        | .error fault => .error ⟨none, fault⟩
        | .ok rest' =>
          have := Protobuf.length_of_skipValue hskip
          readFields data rest'
termination_by bytes.length

def decode (bytes : Bytes) : Except DecodeFault ProtectionData := readFields {} bytes

/-- Whether the bytes are what writing the message they stand for gives. -/
def isCanonical (bytes : Bytes) : Bool :=
  match decode bytes with
  | .ok data => data.encode == bytes
  | .error _ => false

end ProtectionData

end ContentProtection.Widevine
