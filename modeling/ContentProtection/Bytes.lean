/-!
# Byte strings

Payloads, boxes and keys are lists of bytes. This module holds the fixed-width integers that the box and record formats carry, in both byte orders.

Writing an integer keeps its low `8 * width` bits, so a length that does not fit its field is cut, and reading back gives the integer modulo `256 ^ width`.
-/

namespace ContentProtection

abbrev Bytes := List UInt8

namespace Bytes

/-- The integer whose digits in base 256 are the bytes, most significant first. -/
def toNatBE (bytes : Bytes) : Nat := bytes.foldl (fun value byte => value * 256 + byte.toNat) 0

/-- The integer whose digits in base 256 are the bytes, least significant first. -/
def toNatLE : Bytes → Nat
  | [] => 0
  | byte :: rest => byte.toNat + 256 * toNatLE rest

/-- The low `width` bytes of an integer, least significant first. -/
def ofNatLE : (width : Nat) → Nat → Bytes
  | 0, _ => []
  | width + 1, value => UInt8.ofNat value :: ofNatLE width (value / 256)

/-- The low `width` bytes of an integer, most significant first. -/
def ofNatBE (width value : Nat) : Bytes := (ofNatLE width value).reverse

/-- The first `count` bytes and the rest, when there are that many. -/
def split? (count : Nat) (bytes : Bytes) : Option (Bytes × Bytes) :=
  if count ≤ bytes.length then some (bytes.take count, bytes.drop count) else none

theorem length_ofNatLE (width value : Nat) : (ofNatLE width value).length = width := by
  induction width generalizing value with
  | zero => rfl
  | succ width ih => simp [ofNatLE, ih]

theorem length_ofNatBE (width value : Nat) : (ofNatBE width value).length = width := by
  rw [ofNatBE, List.length_reverse, length_ofNatLE]

end Bytes

end ContentProtection
