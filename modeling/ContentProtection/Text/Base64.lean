import ContentProtection.Bytes

/-!
# Base64

Four symbols carry three bytes. Writing and reading take a format: the standard alphabet with padding, or the URL-safe alphabet without. Reading is strict. Padding must be exactly what writing gives, and the bits of the last symbol that reach no byte must be zero. A refusal names its cause and the offset of the symbol at fault.

All groups of four but the last are read first, so a pad symbol among them counts as a symbol outside the alphabet; the last group, of one to four symbols, decides about padding.
-/

namespace ContentProtection.Base64

inductive Fault
  | invalidSymbol (offset : Nat) (symbol : UInt8)
  | invalidLength (length : Nat)
  | invalidLastSymbol (offset : Nat) (symbol : UInt8)
  | invalidPadding
  deriving DecidableEq, Repr

def Fault.message : Fault → String
  | .invalidSymbol offset symbol => s!"Invalid symbol {symbol}, offset {offset}."
  | .invalidLength length => s!"Invalid input length: {length}"
  | .invalidLastSymbol offset symbol => s!"Invalid last symbol {symbol}, offset {offset}."
  | .invalidPadding => "Invalid padding"

structure Format where
  /-- The symbols of the values 62 and 63. -/
  symbol62 : UInt8
  symbol63 : UInt8
  padded : Bool
  deriving DecidableEq, Repr

/-- `+` and `/`, with padding. -/
def standard : Format := ⟨43, 47, true⟩

/-- `-` and `_`, without padding. -/
def urlSafe : Format := ⟨45, 95, false⟩

/-- The symbol `=`. -/
def pad : UInt8 := 61

def Format.symbol (format : Format) (value : Nat) : UInt8 :=
  if value < 26 then UInt8.ofNat (65 + value)
  else if value < 52 then UInt8.ofNat (71 + value)
  else if value < 62 then UInt8.ofNat (value - 4)
  else if value = 62 then format.symbol62
  else format.symbol63

def Format.value? (format : Format) (symbol : UInt8) : Option Nat :=
  if 65 ≤ symbol ∧ symbol ≤ 90 then some (symbol.toNat - 65)
  else if 97 ≤ symbol ∧ symbol ≤ 122 then some (symbol.toNat - 71)
  else if 48 ≤ symbol ∧ symbol ≤ 57 then some (symbol.toNat + 4)
  else if symbol = format.symbol62 then some 62
  else if symbol = format.symbol63 then some 63
  else none

/-! ### Writing -/

def Format.padding (format : Format) (count : Nat) : Bytes :=
  if format.padded then List.replicate count pad else []

def encode (format : Format) : Bytes → Bytes
  | [] => []
  | [a] =>
    [format.symbol (a.toNat / 4), format.symbol (a.toNat % 4 * 16)] ++ format.padding 2
  | [a, b] =>
    [format.symbol (a.toNat / 4), format.symbol (a.toNat % 4 * 16 + b.toNat / 16),
      format.symbol (b.toNat % 16 * 4)] ++ format.padding 1
  | a :: b :: c :: rest =>
    format.symbol (a.toNat / 4) :: format.symbol (a.toNat % 4 * 16 + b.toNat / 16)
      :: format.symbol (b.toNat % 16 * 4 + c.toNat / 64) :: format.symbol (c.toNat % 64)
      :: encode format rest

/-! ### Reading -/

def Format.valueAt (format : Format) (offset : Nat) (symbol : UInt8) : Except Fault Nat :=
  match format.value? symbol with
  | some value => .ok value
  | none => .error (.invalidSymbol offset symbol)

/-- What the last group has given so far: the values of its symbols and the number of pad symbols after them. -/
structure Group where
  values : List Nat := []
  lastSymbol : UInt8 := 0
  pads : Nat := 0

/-- Reads the last group, symbol by symbol. A pad symbol needs two symbols before it and none after it; `index` counts from the group's start at `offset`. -/
def Format.readGroup (format : Format) (offset : Nat) : (index : Nat) → Group → Bytes → Except Fault Group
  | _, group, [] => .ok group
  | index, group, symbol :: rest =>
    if symbol = pad then
      if index < 2 then .error (.invalidSymbol (offset + index) symbol)
      else format.readGroup offset (index + 1) { group with pads := group.pads + 1 } rest
    else if 0 < group.pads then .error (.invalidSymbol (offset + index - group.pads) pad)
    else do
      let value ← format.valueAt (offset + index) symbol
      format.readGroup offset (index + 1)
        { group with values := group.values ++ [value], lastSymbol := symbol } rest

/-- The bytes of the last group, which starts at `offset`. -/
def Format.decodeLast (format : Format) (offset : Nat) (symbols : Bytes) : Except Fault Bytes := do
  let group ← format.readGroup offset 0 {} symbols
  let paddingFits :=
    if format.padded then (group.values.length + group.pads) % 4 == 0 else group.pads == 0
  match group.values with
  | [] | [_] =>
    if symbols.isEmpty then .ok [] else .error (.invalidLength (offset + group.values.length))
  | [a, b] =>
    if !paddingFits then .error .invalidPadding
    else if b % 16 = 0 then .ok [UInt8.ofNat (a * 4 + b / 16)]
    else .error (.invalidLastSymbol (offset + 1) group.lastSymbol)
  | [a, b, c] =>
    if !paddingFits then .error .invalidPadding
    else if c % 4 = 0 then .ok [UInt8.ofNat (a * 4 + b / 16), UInt8.ofNat (b % 16 * 16 + c / 4)]
    else .error (.invalidLastSymbol (offset + 2) group.lastSymbol)
  | a :: b :: c :: d :: _ =>
    if !paddingFits then .error .invalidPadding
    else .ok [UInt8.ofNat (a * 4 + b / 16), UInt8.ofNat (b % 16 * 16 + c / 4), UInt8.ofNat (c % 4 * 64 + d)]

def Format.decodeFrom (format : Format) (offset : Nat) : Bytes → Except Fault Bytes
  | s₀ :: s₁ :: s₂ :: s₃ :: next :: rest => do
    let a ← format.valueAt offset s₀
    let b ← format.valueAt (offset + 1) s₁
    let c ← format.valueAt (offset + 2) s₂
    let d ← format.valueAt (offset + 3) s₃
    let rest ← format.decodeFrom (offset + 4) (next :: rest)
    .ok (UInt8.ofNat (a * 4 + b / 16) :: UInt8.ofNat (b % 16 * 16 + c / 4) :: UInt8.ofNat (c % 4 * 64 + d) :: rest)
  | symbols => format.decodeLast offset symbols

/-- A lone symbol after the last group of four that is outside the alphabet (a line break, say) is reported before anything else. -/
def Format.strayLast? (format : Format) (symbols : Bytes) : Option UInt8 :=
  if symbols.length % 4 = 1 then
    symbols.getLast?.filter fun symbol => symbol ≠ pad ∧ (format.value? symbol).isNone
  else none

def decode (format : Format) (symbols : Bytes) : Except Fault Bytes :=
  match format.strayLast? symbols with
  | some symbol => .error (.invalidSymbol (symbols.length - 1) symbol)
  | none => format.decodeFrom 0 symbols

end ContentProtection.Base64
