import ContentProtection.Bytes
import Mathlib.Tactic.Ring

/-!
# Facts about byte strings

What the formats may rely on: an integer that is written in a number of bytes reads back modulo what they can hold, and splitting off as many bytes as stand in front gives them back and leaves the rest alone. Splitting that succeeds is such a splitting.
-/

namespace ContentProtection.Bytes

/-! ### Integers -/

theorem toNatLE_ofNatLE (width value : Nat) : (ofNatLE width value).toNatLE = value % 256 ^ width := by
  induction width generalizing value with
  | zero => simp only [ofNatLE, toNatLE, pow_zero, Nat.mod_one]
  | succ width ih =>
    have hbyte : (UInt8.ofNat value).toNat = value % 256 := UInt8.toNat_ofNat'
    rw [ofNatLE, toNatLE, ih, hbyte, pow_succ', Nat.mod_mul]

theorem toNatBE_reverse (bytes : Bytes) : toNatBE bytes.reverse = toNatLE bytes := by
  rw [toNatBE, List.foldl_reverse]
  induction bytes with
  | nil => rfl
  | cons byte bytes ih =>
    rw [List.foldr_cons, ih, toNatLE]
    ring

theorem toNatBE_ofNatBE (width value : Nat) : (ofNatBE width value).toNatBE = value % 256 ^ width := by
  rw [ofNatBE, toNatBE_reverse, toNatLE_ofNatLE]

theorem ofNatLE_mod (width value : Nat) : ofNatLE width (value % 256 ^ width) = ofNatLE width value := by
  induction width generalizing value with
  | zero => rfl
  | succ width ih =>
    have hlow : UInt8.ofNat (value % 256 ^ (width + 1)) = UInt8.ofNat value := by
      apply UInt8.toNat_inj.mp
      rw [UInt8.toNat_ofNat', UInt8.toNat_ofNat', pow_succ', Nat.mod_mul_right_mod]
    rw [ofNatLE, ofNatLE, hlow, pow_succ', Nat.mod_mul_right_div_self, ih]

theorem ofNatBE_mod (width value : Nat) : ofNatBE width (value % 256 ^ width) = ofNatBE width value := by
  rw [ofNatBE, ofNatBE, ofNatLE_mod]

theorem toNatLE_lt (bytes : Bytes) : toNatLE bytes < 256 ^ bytes.length := by
  induction bytes with
  | nil => exact Nat.one_pos
  | cons byte bytes ih =>
    have hbyte : byte.toNat < 256 := byte.toNat_lt
    rw [toNatLE, List.length_cons, pow_succ']
    omega

/-- Every byte string is what its integer is written as. -/
theorem ofNatLE_toNatLE (bytes : Bytes) : ofNatLE bytes.length (toNatLE bytes) = bytes := by
  induction bytes with
  | nil => rfl
  | cons byte bytes ih =>
    have hbyte : byte.toNat < 256 := byte.toNat_lt
    have hlow : UInt8.ofNat (byte.toNat + 256 * toNatLE bytes) = byte := by
      apply UInt8.toNat_inj.mp
      rw [UInt8.toNat_ofNat']
      omega
    have hhigh : (byte.toNat + 256 * toNatLE bytes) / 256 = toNatLE bytes := by omega
    rw [toNatLE, List.length_cons, ofNatLE, hlow, hhigh, ih]

theorem ofNatBE_toNatBE {width : Nat} {bytes : Bytes} (hwidth : bytes.length = width) :
    ofNatBE width (toNatBE bytes) = bytes := by
  have hreverse := ofNatLE_toNatLE bytes.reverse
  rw [List.length_reverse, hwidth, ← toNatBE_reverse, List.reverse_reverse] at hreverse
  rw [ofNatBE, hreverse, List.reverse_reverse]

theorem toNatBE_lt (bytes : Bytes) : toNatBE bytes < 256 ^ bytes.length := by
  have hreverse := toNatLE_lt bytes.reverse
  rwa [← toNatBE_reverse, List.reverse_reverse, List.length_reverse] at hreverse

/-! ### Splitting -/

/-- The count is a variable of its own, so that a field's width need not be rewritten to the length of what fills it. -/
theorem split?_append {count : Nat} {front : Bytes} (hfront : front.length = count) (rest : Bytes) :
    split? count (front ++ rest) = some (front, rest) := by
  subst count
  have hroom : front.length ≤ (front ++ rest).length := by
    rw [List.length_append]
    exact Nat.le_add_right _ _
  rw [split?, if_pos hroom, List.take_left, List.drop_left]

theorem eq_append_of_split? {count : Nat} {bytes front rest : Bytes}
    (hsplit : split? count bytes = some (front, rest)) : bytes = front ++ rest ∧ front.length = count := by
  rw [split?] at hsplit
  split at hsplit
  · rename_i hroom
    obtain ⟨rfl, rfl⟩ := Prod.mk.inj (Option.some.inj hsplit)
    exact ⟨(List.take_append_drop count bytes).symm, List.length_take_of_le hroom⟩
  · exact absurd hsplit (by simp)

theorem split?_ofNatBE (width value : Nat) (rest : Bytes) :
    split? width (ofNatBE width value ++ rest) = some (ofNatBE width value, rest) :=
  split?_append (length_ofNatBE width value) rest

end ContentProtection.Bytes
