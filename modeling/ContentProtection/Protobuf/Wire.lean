import ContentProtection.Bytes

/-!
# The protobuf wire format

A message is a run of fields. Each starts with a key, which holds the field's number and the wire type that says how far its value reaches. Integers, keys among them, are varints: base 128, least significant digit first, the high bit set on every byte but the last, at most ten bytes and below `2 ^ 64`.

Reading gives the value and the rest of the input, and the rest is always shorter than the input; every loop over fields ends for that reason. A field that a message does not know is skipped, a group with everything in it.
-/

namespace ContentProtection.Protobuf

inductive WireType
  | varint
  | sixtyFourBit
  | lengthDelimited
  | startGroup
  | endGroup
  | thirtyTwoBit
  deriving DecidableEq, Repr

namespace WireType

def code : WireType → Nat
  | varint => 0
  | sixtyFourBit => 1
  | lengthDelimited => 2
  | startGroup => 3
  | endGroup => 4
  | thirtyTwoBit => 5

def ofCode? : Nat → Option WireType
  | 0 => some varint
  | 1 => some sixtyFourBit
  | 2 => some lengthDelimited
  | 3 => some startGroup
  | 4 => some endGroup
  | 5 => some thirtyTwoBit
  | _ => none

def name : WireType → String
  | varint => "Varint"
  | sixtyFourBit => "SixtyFourBit"
  | lengthDelimited => "LengthDelimited"
  | startGroup => "StartGroup"
  | endGroup => "EndGroup"
  | thirtyTwoBit => "ThirtyTwoBit"

end WireType

/-- Why a message cannot be read. -/
inductive Fault
  | invalidVarint
  | invalidKey (value : Nat)
  | invalidWireType (code : Nat)
  | fieldNumberZero
  | unexpectedEndGroup
  | underflow
  | nestingLimit
  | wrongWireType (found expected : WireType)
  | notUtf8
  deriving DecidableEq, Repr

def Fault.message : Fault → String
  | .invalidVarint => "invalid varint"
  | .invalidKey value => s!"invalid key value: {value}"
  | .invalidWireType code => s!"invalid wire type value: {code}"
  | .fieldNumberZero => "invalid tag value: 0"
  | .unexpectedEndGroup => "unexpected end group tag"
  | .underflow => "buffer underflow"
  | .nestingLimit => "recursion limit reached"
  | .wrongWireType found expected => s!"invalid wire type: {found.name} (expected {expected.name})"
  | .notUtf8 => "invalid string value: data is not UTF-8 encoded"

/-! ### Varints -/

/-- The shortest varint of a number. -/
def encodeVarint (value : Nat) : Bytes :=
  if value < 128 then [UInt8.ofNat value]
  else UInt8.ofNat (value % 128 + 128) :: encodeVarint (value / 128)

/-- Reads a varint from its digit number `index` on. The tenth digit is the last and holds one bit. -/
def readVarintFrom (index : Nat) : Bytes → Except Fault (Nat × Bytes)
  | [] => .error .invalidVarint
  | byte :: rest =>
    if byte < 128 then
      if index = 9 ∧ 2 ≤ byte then .error .invalidVarint else .ok (byte.toNat, rest)
    else if index = 9 then .error .invalidVarint
    else (readVarintFrom (index + 1) rest).map fun (value, rest) => (byte.toNat - 128 + 128 * value, rest)

def readVarint (bytes : Bytes) : Except Fault (Nat × Bytes) := readVarintFrom 0 bytes

theorem length_of_readVarintFrom {index : Nat} {bytes : Bytes} {value : Nat} {rest : Bytes}
    (hread : readVarintFrom index bytes = .ok (value, rest)) : rest.length < bytes.length := by
  induction bytes generalizing index value rest with
  | nil => simp [readVarintFrom] at hread
  | cons byte bytes ih =>
    unfold readVarintFrom at hread
    split at hread
    · split at hread
      · simp at hread
      · simp at hread
        simp [← hread.2]
    · split at hread
      · simp at hread
      · cases hnext : readVarintFrom (index + 1) bytes with
        | error fault => simp [hnext, Except.map] at hread
        | ok next =>
          simp [hnext, Except.map] at hread
          have := @ih (index + 1) next.1 next.2 hnext
          simp [← hread.2]
          omega

theorem length_of_readVarint {bytes : Bytes} {value : Nat} {rest : Bytes}
    (hread : readVarint bytes = .ok (value, rest)) : rest.length < bytes.length :=
  length_of_readVarintFrom hread

/-! ### Keys -/

structure Key where
  number : Nat
  wireType : WireType
  deriving DecidableEq, Repr

def Key.encode (key : Key) : Bytes := encodeVarint (key.number * 8 + key.wireType.code)

def Key.ofNat (value : Nat) : Except Fault Key :=
  if UInt32.size ≤ value then .error (.invalidKey value)
  else match WireType.ofCode? (value % 8) with
    | none => .error (.invalidWireType (value % 8))
    | some wireType => if value / 8 = 0 then .error .fieldNumberZero else .ok ⟨value / 8, wireType⟩

def readKey (bytes : Bytes) : Except Fault (Key × Bytes) :=
  match readVarint bytes with
  | .error fault => .error fault
  | .ok (value, rest) => (Key.ofNat value).map fun key => (key, rest)

theorem length_of_readKey {bytes : Bytes} {key : Key} {rest : Bytes} (hread : readKey bytes = .ok (key, rest)) :
    rest.length < bytes.length := by
  unfold readKey at hread
  split at hread
  · simp at hread
  · rename_i value next hvarint
    cases hkey : Key.ofNat value with
    | error fault => simp [hkey, Except.map] at hread
    | ok key =>
      simp [hkey, Except.map] at hread
      exact hread.2 ▸ length_of_readVarint hvarint

/-! ### Values -/

/-- Drops a value of known width. -/
def dropBytes (count : Nat) (bytes : Bytes) : Except Fault Bytes :=
  if count ≤ bytes.length then .ok (bytes.drop count) else .error .underflow

/-- A value with its length in front. -/
def readDelimited (bytes : Bytes) : Except Fault (Bytes × Bytes) :=
  match readVarint bytes with
  | .error fault => .error fault
  | .ok (length, rest) =>
    if length ≤ rest.length then .ok (rest.take length, rest.drop length) else .error .underflow

def encodeDelimited (value : Bytes) : Bytes := encodeVarint value.length ++ value

theorem length_of_readDelimited {bytes value rest : Bytes} (hread : readDelimited bytes = .ok (value, rest)) :
    rest.length < bytes.length := by
  unfold readDelimited at hread
  split at hread
  · simp at hread
  · rename_i length next hvarint
    have := length_of_readVarint hvarint
    split at hread
    · simp at hread
      simp [← hread.2]
      omega
    · simp at hread

/-- Drops a value that is not a group. -/
def skipScalar (wireType : WireType) (bytes : Bytes) : Except Fault Bytes :=
  match wireType with
  | .varint => (readVarint bytes).map Prod.snd
  | .sixtyFourBit => dropBytes 8 bytes
  | .thirtyTwoBit => dropBytes 4 bytes
  | .lengthDelimited => (readDelimited bytes).map Prod.snd
  | .startGroup | .endGroup => .error .unexpectedEndGroup

theorem length_of_skipScalar {wireType : WireType} {bytes rest : Bytes}
    (hskip : skipScalar wireType bytes = .ok rest) : rest.length ≤ bytes.length := by
  unfold skipScalar at hskip
  split at hskip
  · cases hread : readVarint bytes with
    | error fault => simp [hread, Except.map] at hskip
    | ok result =>
      simp [hread, Except.map] at hskip
      exact hskip ▸ Nat.le_of_lt (length_of_readVarint hread)
  · unfold dropBytes at hskip
    split at hskip <;> simp at hskip
    simp [← hskip]
  · unfold dropBytes at hskip
    split at hskip <;> simp at hskip
    simp [← hskip]
  · cases hread : readDelimited bytes with
    | error fault => simp [hread, Except.map] at hskip
    | ok result =>
      simp [hread, Except.map] at hskip
      exact hskip ▸ Nat.le_of_lt (length_of_readDelimited hread)
  · simp at hskip
  · simp at hskip

/-- How many groups may be open at once. -/
def groupLimit : Nat := 100

/-- Drops the fields of the open groups (their numbers, innermost first) up to the end of the outermost. -/
def skipGroups : (openGroups : List Nat) → Bytes → Except Fault Bytes
  | [], bytes => .ok bytes
  | number :: outer, bytes =>
    match hkey : readKey bytes with
    | .error fault => .error fault
    | .ok (key, rest) =>
      have := length_of_readKey hkey
      if key.wireType = .endGroup then
        if key.number = number then skipGroups outer rest else .error .unexpectedEndGroup
      else if outer.length + 1 = groupLimit then .error .nestingLimit
      else if key.wireType = .startGroup then skipGroups (key.number :: number :: outer) rest
      else match hskip : skipScalar key.wireType rest with
        | .error fault => .error fault
        | .ok rest' =>
          have := length_of_skipScalar hskip
          skipGroups (number :: outer) rest'
termination_by _ bytes => bytes.length

/-- Drops the value of a field that the message does not know. -/
def skipValue (key : Key) (bytes : Bytes) : Except Fault Bytes :=
  if key.wireType = .startGroup then skipGroups [key.number] bytes else skipScalar key.wireType bytes

theorem length_of_skipGroups {openGroups : List Nat} {bytes rest : Bytes}
    (hskip : skipGroups openGroups bytes = .ok rest) : rest.length ≤ bytes.length := by
  fun_induction skipGroups openGroups bytes <;> simp_all <;> omega

theorem length_of_skipValue {key : Key} {bytes rest : Bytes} (hskip : skipValue key bytes = .ok rest) :
    rest.length ≤ bytes.length := by
  unfold skipValue at hskip
  split at hskip
  · exact length_of_skipGroups hskip
  · exact length_of_skipScalar hskip

end ContentProtection.Protobuf
