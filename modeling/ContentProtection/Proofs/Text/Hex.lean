import ContentProtection.Proofs.Text.Ascii
import ContentProtection.Text.Hex

/-!
# Hexadecimal digits read back

Digits are read as bytes exactly when these bytes are written as the same digits in lower case.
-/

namespace ContentProtection.Hex

open Ascii

/-! ### One digit -/

theorem value?_of_not_ascii {c : Char} (hc : 128 ≤ c.toNat) : value? c = none := by
  have hnot (high : Char) (hhigh : high.toNat < 128) : ¬c ≤ high := fun hle => by
    have hcode : c.toNat ≤ high.toNat := hle
    omega
  rw [value?, if_neg fun hrange => hnot '9' (by decide) hrange.2, if_neg fun hrange => hnot 'f' (by decide) hrange.2,
    if_neg fun hrange => hnot 'F' (by decide) hrange.2]

theorem value?_eq_some_iff {c : Char} {value : Nat} : value? c = some value ↔ value < 16 ∧ c.toLower = digit value := by
  rcases Nat.lt_or_ge c.toNat 128 with hascii | hlarge
  · constructor
    · have hread : ∀ c : Char, c.toNat < 128 → ∀ value ∈ value? c, value < 16 ∧ c.toLower = digit value :=
        forall_ascii (by decide)
      exact hread c hascii value
    · have hwritten : ∀ c : Char, c.toNat < 128 → ∀ value < 16, c.toLower = digit value → value? c = some value :=
        forall_ascii (by decide +kernel)
      exact fun hvalue => hwritten c hascii value hvalue.1 hvalue.2
  · rw [value?_of_not_ascii hlarge, toLower_of_not_ascii hlarge]
    refine ⟨nofun, fun hvalue => ?_⟩
    have hdigit : ∀ value < 16, (digit value).toNat < 128 := by decide
    exact absurd (hvalue.2 ▸ hdigit value hvalue.1) (Nat.not_lt.mpr hlarge)

/-! ### Bytes -/

theorem encode_cons (byte : UInt8) (bytes : Bytes) :
    encode (byte :: bytes) = digit (byte.toNat / 16) :: digit (byte.toNat % 16) :: encode bytes := rfl

theorem encode_append (bytes more : Bytes) : encode (bytes ++ more) = encode bytes ++ encode more := List.flatMap_append

theorem length_encode (bytes : Bytes) : (encode bytes).length = 2 * bytes.length := by
  induction bytes with
  | nil => rfl
  | cons byte bytes ih =>
    rw [encode_cons, List.length_cons, List.length_cons, List.length_cons, ih]
    omega

/-- What is true of every digit is true of all that is written. -/
theorem forall_mem_encode {property : Char → Prop} (hdigit : ∀ value < 16, property (digit value)) (bytes : Bytes) :
    ∀ c ∈ encode bytes, property c := by
  induction bytes with
  | nil => exact fun _ hmem => absurd hmem List.not_mem_nil
  | cons byte bytes ih =>
    have hbyte := byte.toNat_lt
    rw [encode_cons, List.forall_mem_cons, List.forall_mem_cons]
    exact ⟨hdigit _ (by omega), hdigit _ (by omega), ih⟩

theorem decode?_eq_some_iff {digits : List Char} {bytes : Bytes} :
    decode? digits = some bytes ↔ digits.map Char.toLower = encode bytes := by
  induction digits using decode?.induct generalizing bytes with
  | case1 =>
    cases bytes with
    | nil => exact ⟨fun _ => rfl, fun _ => rfl⟩
    | cons byte bytes => exact ⟨nofun, nofun⟩
  | case2 c =>
    have hlength := length_encode bytes
    refine ⟨nofun, fun hlower => ?_⟩
    rw [← hlower] at hlength
    simp only [List.map_cons, List.map_nil, List.length_cons, List.length_nil] at hlength
    omega
  | case3 high low rest ih =>
    simp only [decode?, Option.bind_eq_bind, Option.bind_eq_some_iff, Option.pure_def, Option.some.injEq,
      value?_eq_some_iff, ih, List.map_cons]
    constructor
    · rintro ⟨a, ⟨ha, hhigh⟩, b, ⟨hb, hlow⟩, others, hrest, rfl⟩
      have hbyte : (UInt8.ofNat (a * 16 + b)).toNat = a * 16 + b := by
        rw [UInt8.toNat_ofNat']
        omega
      rw [encode_cons, hbyte, hhigh, hlow, hrest, show (a * 16 + b) / 16 = a by omega,
        show (a * 16 + b) % 16 = b by omega]
    · intro hlower
      cases bytes with
      | nil => cases hlower
      | cons byte others =>
        have hbyte := byte.toNat_lt
        simp only [encode_cons, List.cons.injEq] at hlower
        obtain ⟨hhigh, hlow, hrest⟩ := hlower
        refine ⟨_, ⟨by omega, hhigh⟩, _, ⟨by omega, hlow⟩, others, hrest, ?_⟩
        rw [show byte.toNat / 16 * 16 + byte.toNat % 16 = byte.toNat by omega, UInt8.ofNat_toNat]

theorem isSome_value?_of_map_toLower {digits : List Char} {bytes : Bytes}
    (hdigits : digits.map Char.toLower = encode bytes) : ∀ c ∈ digits, (value? c).isSome = true := by
  have hwritten : ∀ c ∈ encode bytes, ∃ value < 16, c = digit value :=
    forall_mem_encode (fun value hvalue => ⟨value, hvalue, rfl⟩) bytes
  intro c hmem
  obtain ⟨value, hvalue⟩ := hwritten c.toLower (hdigits ▸ List.mem_map_of_mem hmem)
  rw [value?_eq_some_iff.mpr hvalue]
  rfl

/-- An even number of digits is read. -/
theorem exists_decode? {digits : List Char} (heven : digits.length % 2 = 0)
    (hdigits : ∀ c ∈ digits, (value? c).isSome = true) : ∃ bytes, decode? digits = some bytes := by
  induction digits using decode?.induct with
  | case1 => exact ⟨[], rfl⟩
  | case2 c => cases heven
  | case3 high low rest ih =>
    simp only [List.forall_mem_cons, Option.isSome_iff_exists] at hdigits
    obtain ⟨⟨a, ha⟩, ⟨b, hb⟩, hothers⟩ := hdigits
    have hshorter : rest.length % 2 = 0 := by
      simp only [List.length_cons] at heven
      omega
    obtain ⟨others, hrest⟩ := ih hshorter fun c hmem => Option.isSome_iff_exists.mpr (hothers c hmem)
    exact ⟨_, by rw [decode?, ha, hb, hrest]; rfl⟩

end ContentProtection.Hex
