import ContentProtection.Text.Hex

/-!
# Spellings of values

How null, truth values and numbers are spelled in plain scalars. A text that reads as one of them needs quotes to stay a text.
-/

namespace ContentProtection.Yaml.Spelling

def isNull (text : List Char) : Bool := ["null", "Null", "NULL", "~"].any (·.toList == text)

def bool? (text : List Char) : Option Bool :=
  if ["true", "True", "TRUE"].any (·.toList == text) then some true
  else if ["false", "False", "FALSE"].any (·.toList == text) then some false
  else none

/-! ### Integers -/

/-- The value of digits of a base up to sixteen, at least one and nothing else. -/
def digits? (base : Nat) (text : List Char) : Option Nat :=
  let digits := text.filterMap fun c => (Hex.value? c).filter (· < base)
  if !text.isEmpty && digits.length == text.length then some (digits.foldl (fun value digit => base * value + digit) 0)
  else none

def dropPlus : List Char → List Char
  | '+' :: rest => rest
  | text => text

/-- Whether a number of several digits starts with a zero, which makes it no number. -/
def hasLeadingZero (text : List Char) : Bool :=
  let unsigned := match text with
    | '-' :: rest | '+' :: rest => rest
    | text => text
  match unsigned with
  | '0' :: d :: rest => (d :: rest).all Char.isDigit
  | _ => false

/-- A number in hexadecimal, octal or binary digits, by its prefix. -/
def based? : List Char → Option Nat
  | '0' :: 'x' :: digits => digits? 16 digits
  | '0' :: 'o' :: digits => digits? 8 digits
  | '0' :: 'b' :: digits => digits? 2 digits
  | _ => none

/-- The value of an unsigned integer. -/
def natural? (text : List Char) : Option Nat :=
  let text := dropPlus text
  (based? text).or (if hasLeadingZero text then none else digits? 10 text)

/-- Whether the text is an integer with a base prefix, of 128 bits at most. -/
def isBasedInteger (text : List Char) : Bool :=
  match text with
  | '-' :: rest => (based? rest).any (· ≤ 1 <<< 127)
  | _ => (based? (dropPlus text)).any (· < 1 <<< 128)

/-! ### Decimal numbers -/

/-- The value `mantissa * 10 ^ exponent`. -/
structure Decimal where
  mantissa : Nat
  exponent : Int
  deriving DecidableEq, Repr

namespace Decimal

/-- From this value on a number rounds to infinity in 64-bit floating point. -/
def overflow : Nat := (1 <<< 1024) - (1 <<< 970)

/-- Whether the number is finite in 64-bit floating point. The power of ten is computed only where the count of digits does not decide. -/
def isFinite (number : Decimal) : Bool :=
  let magnitude := (Nat.toDigits 10 number.mantissa).length + number.exponent
  if number.mantissa = 0 ∨ magnitude < 309 then true
  else if magnitude > 309 then false
  else if 0 ≤ number.exponent then number.mantissa * Nat.pow 10 number.exponent.toNat < overflow
  else number.mantissa < overflow * Nat.pow 10 (-number.exponent).toNat

/-- An exponent with its mark, or nothing. -/
def exponent? : List Char → Option Int
  | [] => some 0
  | c :: rest =>
    if c = 'e' ∨ c = 'E' then
      match rest with
      | '-' :: digits => (digits? 10 digits).map fun value => -value
      | '+' :: digits | digits => (digits? 10 digits).map fun value => (value : Int)
    else none

/-- Digits with a point among them, before them or after them, and an exponent. -/
def ofText? (text : List Char) : Option Decimal :=
  let whole := text.takeWhile Char.isDigit
  let rest := text.dropWhile Char.isDigit
  let (fraction, rest) := match rest with
    | '.' :: rest => (rest.takeWhile Char.isDigit, rest.dropWhile Char.isDigit)
    | rest => ([], rest)
  match digits? 10 (whole ++ fraction), exponent? rest with
  | some mantissa, some exponent => some ⟨mantissa, exponent - fraction.length⟩
  | _, _ => none

end Decimal

/-- Whether the text is a finite number in decimal digits, an infinity, or no number spelled as one. -/
def isFloat (text : List Char) : Bool :=
  let unsigned := match text with
    | '-' :: rest | '+' :: rest => rest
    | text => text
  (Decimal.ofText? unsigned).any (·.isFinite) || [".inf", ".Inf", ".INF"].any (·.toList == unsigned)
    || [".nan", ".NaN", ".NAN"].any (·.toList == text)

/-- Whether a plain scalar with this text would be read as something else than a text, or by some readers. -/
def isAmbiguous (text : List Char) : Bool :=
  text.isEmpty || isNull text || (bool? text).isSome || isBasedInteger text || isFloat text || hasLeadingZero text

end ContentProtection.Yaml.Spelling
