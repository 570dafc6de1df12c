import ContentProtection.Protobuf.Wire
import Mathlib.Algebra.Group.Nat.Defs

/-!
# Written wire values read back

A number below `2 ^ 64` is read from its varint, and a value from its length and its bytes, with what comes after them left over. The last digit of a varint is never a zero that could be left out.
-/

namespace ContentProtection.Protobuf

theorem readVarintFrom_encodeVarint (value : Nat) {index : Nat} (hindex : index ≤ 9)
    (hvalue : value < 2 ^ (64 - 7 * index)) (rest : Bytes) :
    readVarintFrom index (encodeVarint value ++ rest) = .ok (value, rest) := by
  induction value using encodeVarint.induct generalizing index with
  | case1 value hsmall =>
    have hbyte : (UInt8.ofNat value).toNat = value := UInt8.toNat_ofNat_of_lt' (show value < 256 by omega)
    have hlast : ¬(index = 9 ∧ 2 ≤ UInt8.ofNat value) := by
      rintro ⟨rfl, htwo⟩
      have htwo' : 2 ≤ value := hbyte ▸ UInt8.le_iff_toNat_le.mp htwo
      omega
    have hdigit : UInt8.ofNat value < 128 := by
      rw [UInt8.lt_iff_toNat_lt, hbyte]
      exact hsmall
    rw [encodeVarint, if_pos hsmall, List.singleton_append, readVarintFrom, if_pos hdigit, if_neg hlast, hbyte]
  | case2 value hlarge ih =>
    have hbyte : (UInt8.ofNat (value % 128 + 128)).toNat = value % 128 + 128 :=
      UInt8.toNat_ofNat_of_lt' (show value % 128 + 128 < 256 by omega)
    have hdigit : ¬UInt8.ofNat (value % 128 + 128) < 128 := by
      rw [UInt8.lt_iff_toNat_lt, hbyte]
      exact Nat.not_lt.mpr (Nat.le_add_left _ _)
    -- The tenth digit holds one bit, so a number that goes on after it is too large.
    have hmore : index ≠ 9 := by
      rintro rfl
      omega
    have hnext : value / 128 < 2 ^ (64 - 7 * (index + 1)) := by
      have hbits : 64 - 7 * index = 64 - 7 * (index + 1) + 7 := by omega
      rw [hbits, Nat.pow_add] at hvalue
      exact Nat.div_lt_of_lt_mul (Nat.mul_comm _ 128 ▸ hvalue)
    rw [encodeVarint, if_neg hlarge, List.cons_append, readVarintFrom, if_neg hdigit, if_neg hmore,
      ih (by omega) hnext]
    show Except.ok (_, rest) = _
    rw [hbyte]
    congr 2
    omega

theorem readVarint_encodeVarint {value : Nat} (hvalue : value < 2 ^ 64) (rest : Bytes) :
    readVarint (encodeVarint value ++ rest) = .ok (value, rest) :=
  readVarintFrom_encodeVarint value (Nat.zero_le 9) hvalue rest

theorem readDelimited_encodeDelimited {value : Bytes} (hvalue : value.length < 2 ^ 64) (rest : Bytes) :
    readDelimited (encodeDelimited value ++ rest) = .ok (value, rest) := by
  have hroom : value.length ≤ (value ++ rest).length := by
    rw [List.length_append]
    exact Nat.le_add_right _ _
  rw [readDelimited, encodeDelimited, List.append_assoc, readVarint_encodeVarint hvalue]
  simp only [if_pos hroom, List.take_left, List.drop_left]

theorem ofCode?_code (wireType : WireType) : WireType.ofCode? wireType.code = some wireType := by
  cases wireType <;> rfl

theorem code_lt (wireType : WireType) : wireType.code < 8 := by
  cases wireType <;> decide

theorem readKey_encode {key : Key} (hpos : 0 < key.number) (hnumber : key.number < 2 ^ 29) (rest : Bytes) :
    readKey (key.encode ++ rest) = .ok (key, rest) := by
  have hcode := code_lt key.wireType
  have hfits : ¬UInt32.size ≤ key.number * 8 + key.wireType.code := by
    rw [show UInt32.size = 2 ^ 32 from rfl]
    omega
  have hmod : (key.number * 8 + key.wireType.code) % 8 = key.wireType.code := by omega
  have hdiv : (key.number * 8 + key.wireType.code) / 8 = key.number := by omega
  rw [readKey, Key.encode, readVarint_encodeVarint (by omega)]
  dsimp only
  rw [Key.ofNat, if_neg hfits, hmod, ofCode?_code]
  dsimp only
  rw [hdiv, if_neg (Nat.pos_iff_ne_zero.mp hpos)]
  rfl

/-! ### The shape of varints -/

/-- A number that takes one digit is that digit; any other starts with a digit that has the high bit set, and goes on with the varint of a smaller number that is not zero. -/
theorem encodeVarint_cases (value : Nat) :
    value < 128 ∧ encodeVarint value = [UInt8.ofNat value] ∨
      ∃ digit : UInt8, ∃ next, 128 ≤ digit ∧ 0 < next ∧ encodeVarint value = digit :: encodeVarint next := by
  by_cases hsmall : value < 128
  · exact .inl ⟨hsmall, by rw [encodeVarint, if_pos hsmall]⟩
  · have hdigit : (128 : UInt8) ≤ UInt8.ofNat (value % 128 + 128) := by
      rw [UInt8.le_iff_toNat_le, UInt8.toNat_ofNat_of_lt' (show value % 128 + 128 < 256 by omega)]
      exact Nat.le_add_left _ _
    exact .inr ⟨_, value / 128, hdigit, by omega, by rw [encodeVarint, if_neg hsmall]⟩

theorem head?_encodeVarint_ne_zero {value : Nat} (hvalue : 0 < value) : (encodeVarint value).head? ≠ some 0 := by
  rcases encodeVarint_cases value with ⟨hsmall, hbytes⟩ | ⟨digit, next, hdigit, -, hbytes⟩
  · rw [hbytes, List.head?_cons, ne_eq, Option.some.injEq, ← UInt8.toNat_inj,
      UInt8.toNat_ofNat_of_lt' (show value < 256 by omega)]
    exact Nat.pos_iff_ne_zero.mp hvalue
  · rw [hbytes, List.head?_cons, ne_eq, Option.some.injEq]
    rintro rfl
    exact absurd hdigit (by decide)

theorem encodeVarint_ne_nil (value : Nat) : encodeVarint value ≠ [] := by
  rcases encodeVarint_cases value with ⟨-, hbytes⟩ | ⟨digit, next, -, -, hbytes⟩ <;> simp [hbytes]

end ContentProtection.Protobuf
