/-!
# Durations

A span of time in nanoseconds. Its text uses the largest of the units second, millisecond, microsecond and nanosecond that is not longer than the span, as a decimal number without trailing zeros.
-/

namespace ContentProtection

structure Duration where
  nanoseconds : Nat
  deriving DecidableEq, Repr

namespace Duration

def ofMilliseconds (count : Nat) : Duration := ⟨count * 1000000⟩

def ofSeconds (count : Nat) : Duration := ⟨count * 1000000000⟩

instance : Add Duration := ⟨fun a b => ⟨a.nanoseconds + b.nanoseconds⟩⟩

/-- The digits after the decimal point of a fraction in units of `10 ^ -places`, without trailing zeros. -/
def fractionDigits : (places : Nat) → (fraction : Nat) → List Char
  | 0, _ => []
  | places + 1, fraction =>
    if fraction = 0 then []
    else Char.ofNat (48 + fraction / Nat.pow 10 places) :: fractionDigits places (fraction % Nat.pow 10 places)

/-- A number of units, each `10 ^ places` nanoseconds long. -/
def decimal (nanoseconds places : Nat) : String :=
  let fraction := fractionDigits places (nanoseconds % Nat.pow 10 places)
  let whole := (nanoseconds / Nat.pow 10 places).repr
  if fraction.isEmpty then whole else whole ++ "." ++ String.ofList fraction

def toText (duration : Duration) : String :=
  let count := duration.nanoseconds
  if 1000000000 ≤ count then decimal count 9 ++ "s"
  else if 1000000 ≤ count then decimal count 6 ++ "ms"
  else if 1000 ≤ count then decimal count 3 ++ "µs"
  else decimal count 0 ++ "ns"

instance : ToString Duration := ⟨toText⟩

end Duration

end ContentProtection
