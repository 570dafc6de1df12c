import ContentProtection.Key.Id
import ContentProtection.Proofs.Text.Utf8
import ContentProtection.Proofs.Uuid
import Mathlib.Data.Bool.AllAny

/-!
# Key ids agree across their encodings

A UUID is the same key id as sixteen bytes and as 32 digits. Of every other byte string the last sixteen bytes count, with zero bytes in front of a shorter one.
-/

namespace ContentProtection.KeyId

/-- The hexadecimal digits of either case, as bytes. -/
def digitBytes : Bytes := Utf8.encode "0123456789abcdefABCDEF".toList

/-- Whether a key id is written in 32 hexadecimal digits. -/
def IsWritten (keyId : Bytes) : Prop := keyId.length = 32 ∧ ∀ byte ∈ keyId, byte ∈ digitBytes

instance (keyId : Bytes) : Decidable (IsWritten keyId) :=
  decidable_of_iff (keyId.length = 32 ∧ keyId.all fun byte => byte ∈ digitBytes)
    (and_congr_right fun _ => List.all_iff_forall_prop)

/-! ### Written key ids -/

theorem isWritten_encode {uuid : Uuid} {digits : List Char}
    (hdigits : digits.map Char.toLower = Hex.encode uuid.bytes) : IsWritten (Utf8.encode digits) := by
  have hlength := congrArg List.length hdigits
  rw [List.length_map, Hex.length_encode, uuid.length_eq] at hlength
  have hascii : ∀ c ∈ digits, c.toNat < 128 := Uuid.SpelledBy.ascii ⟨.digits, hdigits⟩
  have hbyte : ∀ c : Char, c.toNat < 128 → (Hex.value? c).isSome = true → UInt8.ofNat c.toNat ∈ digitBytes :=
    Ascii.forall_ascii (by decide)
  rw [Ascii.encode_eq_map hascii]
  exact ⟨by rwa [List.length_map],
    List.forall_mem_map.mpr fun c hmem => hbyte c (hascii c hmem) (Hex.isSome_value?_of_map_toLower hdigits c hmem)⟩

theorem exists_of_isWritten {keyId : Bytes} (hwritten : IsWritten keyId) :
    ∃ (uuid : Uuid) (digits : List Char),
      keyId = Utf8.encode digits ∧ digits.map Char.toLower = Hex.encode uuid.bytes := by
  obtain ⟨hlength, hbytes⟩ := hwritten
  have hascii : ∀ byte ∈ digitBytes, byte < 128 := List.all_iff_forall_prop.mp (by decide)
  have hvalue : ∀ byte ∈ digitBytes, (Hex.value? (Char.ofNat byte.toNat)).isSome = true :=
    List.all_iff_forall_prop.mp (by decide)
  have hdigits : ∀ c ∈ keyId.map (fun byte => Char.ofNat byte.toNat), (Hex.value? c).isSome = true :=
    List.forall_mem_map.mpr fun byte hmem => hvalue byte (hbytes byte hmem)
  obtain ⟨bytes, hdecode⟩ := Hex.exists_decode? (by rw [List.length_map, hlength]) hdigits
  have hlower := Hex.decode?_eq_some_iff.mp hdecode
  have hsixteen : bytes.length = 16 := by
    have hcount := congrArg List.length hlower
    rw [List.length_map, List.length_map, hlength, Hex.length_encode] at hcount
    omega
  exact ⟨⟨bytes, hsixteen⟩, _, (Ascii.encode_map_ofNat fun byte hmem => hascii byte (hbytes byte hmem)).symm, hlower⟩

/-! ### Normalized key ids -/

theorem normalize_bytes (uuid : Uuid) : normalize uuid.bytes = uuid := by
  rw [normalize, Uuid.ofBytes?, dif_pos uuid.length_eq]

theorem normalize_of_length_ne {keyId : Bytes} (hlength : keyId.length ≠ 16) :
    normalize keyId =
      if keyId.length = 32 then ((Utf8.decode? keyId).bind Uuid.ofText?).getD (Uuid.ofLastBytes keyId)
      else Uuid.ofLastBytes keyId := by
  rw [normalize, Uuid.ofBytes?, dif_neg hlength]

theorem normalize_encode {uuid : Uuid} {digits : List Char}
    (hdigits : digits.map Char.toLower = Hex.encode uuid.bytes) : normalize (Utf8.encode digits) = uuid := by
  have hlength : (Utf8.encode digits).length = 32 := (isWritten_encode hdigits).1
  have hread : Uuid.ofText? digits = some uuid := Uuid.ofText?_eq_some_iff.mpr ⟨.digits, hdigits⟩
  rw [normalize_of_length_ne (by omega), if_pos hlength, Utf8.decode?_encode, Option.bind_some, hread, Option.getD_some]

/-- In 32 bytes no form of a UUID has room but the digits. -/
theorem isWritten_of_ofText? {keyId : Bytes} {uuid : Uuid} (hlength : keyId.length = 32)
    (hread : (Utf8.decode? keyId).bind Uuid.ofText? = some uuid) : IsWritten keyId := by
  obtain ⟨text, hdecode, htext⟩ := Option.bind_eq_some_iff.mp hread
  obtain rfl := Utf8.decode?_eq_some_iff.mp hdecode
  have hspelled := Uuid.ofText?_eq_some_iff.mp htext
  rw [Ascii.encode_eq_map hspelled.ascii, List.length_map] at hlength
  obtain ⟨form, hlower⟩ := hspelled
  have hform : form.length = 32 := by
    rw [← form.length_text uuid, ← hlower, List.length_map, hlength]
  cases form with
  | digits => exact isWritten_encode hlower
  | hyphenated | braced | urn => cases hform

theorem normalize_suffix {keyId : Bytes} (hwritten : ¬IsWritten keyId) :
    (normalize keyId).bytes <:+ List.replicate 16 0 ++ keyId := by
  by_cases hlength : keyId.length = 16
  · have hsame : (normalize keyId).bytes = keyId := congrArg Uuid.bytes (normalize_bytes ⟨keyId, hlength⟩)
    rw [hsame]
    exact List.suffix_append _ _
  · have hlast : normalize keyId = Uuid.ofLastBytes keyId := by
      rw [normalize_of_length_ne hlength]
      split
      · rename_i hroom
        rw [Option.eq_none_iff_forall_ne_some.mpr fun uuid hread => hwritten (isWritten_of_ofText? hroom hread)]
        rfl
      · rfl
    rw [hlast]
    exact List.drop_suffix _ _

theorem normalize_zeros_append {keyId : Bytes} {count : Nat} (hshort : ¬IsWritten keyId)
    (hlong : ¬IsWritten (List.replicate count 0 ++ keyId)) :
    normalize (List.replicate count 0 ++ keyId) = normalize keyId := by
  have hzeros : List.replicate 16 0 ++ (List.replicate count 0 ++ keyId) =
      List.replicate count 0 ++ (List.replicate 16 0 ++ keyId) := by
    simp only [← List.append_assoc, List.replicate_append_replicate, Nat.add_comm]
  have hsuffix : (normalize keyId).bytes <:+ List.replicate 16 0 ++ (List.replicate count 0 ++ keyId) :=
    hzeros ▸ (normalize_suffix hshort).trans (List.suffix_append _ _)
  have hlength : (normalize (List.replicate count 0 ++ keyId)).bytes.length = (normalize keyId).bytes.length := by
    rw [Uuid.length_eq, Uuid.length_eq]
  have hbytes := List.suffix_of_suffix_length_le (normalize_suffix hlong) hsuffix (Nat.le_of_eq hlength)
  exact Uuid.eq_of_bytes_eq (hbytes.eq_of_length hlength)

/-- A UUID comes out of its bytes and of its digits in letters of either case, and each key id of 32 digits spells the UUID that comes out. Of all other key ids it is the last sixteen bytes behind sixteen zero bytes, so that more zero bytes in front make no difference. -/
theorem normalize_agrees_across_encodings :
    (∀ uuid : Uuid, normalize uuid.bytes = uuid) ∧
    (∀ (uuid : Uuid) (digits : List Char), digits.map Char.toLower = Hex.encode uuid.bytes →
      normalize (Utf8.encode digits) = uuid) ∧
    (∀ keyId, IsWritten keyId → ∃ digits : List Char,
      keyId = Utf8.encode digits ∧ digits.map Char.toLower = Hex.encode (normalize keyId).bytes) ∧
    (∀ keyId, ¬IsWritten keyId → (normalize keyId).bytes <:+ List.replicate 16 0 ++ keyId) ∧
    (∀ keyId count, ¬IsWritten keyId → ¬IsWritten (List.replicate count 0 ++ keyId) →
      normalize (List.replicate count 0 ++ keyId) = normalize keyId) := by
  refine ⟨normalize_bytes, fun uuid digits => normalize_encode, fun keyId hwritten => ?_, fun keyId => normalize_suffix,
    fun keyId count => normalize_zeros_append⟩
  obtain ⟨uuid, digits, rfl, hdigits⟩ := exists_of_isWritten hwritten
  exact ⟨digits, rfl, by rw [normalize_encode hdigits, hdigits]⟩

/-- A UUID in letters of either case, 32 bytes of which the last is no digit, and a short key id with zero bytes in front. -/
theorem normalize_agrees_across_encodings_of_near_digits :
    let uuid : Uuid := ⟨List.replicate 16 0xab, rfl⟩
    let digits := "aBAbabABabABabABabABabABabABabAB".toList
    let nearDigits := Utf8.encode "aBAbabABabABabABabABabABabABabAg".toList
    normalize uuid.bytes = uuid ∧ normalize (Utf8.encode digits) = uuid ∧
      (∃ digits' : List Char, Utf8.encode digits = Utf8.encode digits' ∧
        digits'.map Char.toLower = Hex.encode (normalize (Utf8.encode digits)).bytes) ∧
      (normalize nearDigits).bytes <:+ List.replicate 16 0 ++ nearDigits ∧
      normalize (List.replicate 3 0 ++ [7]) = normalize [7] := by
  intro uuid digits nearDigits
  obtain ⟨hbytes, hdigits, hwritten, hothers, hzeros⟩ := normalize_agrees_across_encodings
  exact ⟨hbytes uuid, hdigits uuid digits (by decide), hwritten (Utf8.encode digits) (by decide),
    hothers nearDigits (by decide), hzeros [7] 3 (by decide) (by decide)⟩

end ContentProtection.KeyId
