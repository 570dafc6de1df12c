import ContentProtection.Proofs.Protobuf.Wire
import ContentProtection.Proofs.Text.Utf8
import ContentProtection.Widevine

/-!
# Widevine protection data reads back

Writing puts each present field behind the one before it, so what was written is a run of fields, and reading a run puts the values into the message one after another. A message that was written is therefore read whole, and it is canonical. Nothing but a run of fields is canonical; in particular each field starts with one of four key bytes.
-/

namespace ContentProtection.Widevine

namespace Field

theorem ofNumber?_number (field : Field) : ofNumber? field.number = some field := by
  cases field <;> rfl

/-- The byte that a field starts with. -/
def keyByte : Field → UInt8
  | keyIds => 0x12
  | provider => 0x1a
  | contentId => 0x22
  | policy => 0x32

theorem encode_eq (field : Field) (value : Bytes) :
    field.encode value = field.keyByte :: Protobuf.encodeDelimited value := by
  have hkey : (Protobuf.Key.mk field.number .lengthDelimited).encode = [field.keyByte] := by
    rw [Protobuf.Key.encode, Protobuf.encodeVarint]
    cases field <;> rfl
  rw [encode, hkey, List.singleton_append]

theorem keyByte_le (field : Field) : 0x12 ≤ field.keyByte.toNat := by
  cases field <;> decide

theorem length_le_length_encode (field : Field) (value : Bytes) : value.length ≤ (field.encode value).length := by
  rw [encode_eq, Protobuf.encodeDelimited, List.length_cons, List.length_append]
  omega

end Field

namespace ProtectionData

/-! ### Reading what was written -/

theorem readField_encode (data : ProtectionData) (field : Field) {value : Bytes} (hvalue : value.length < 2 ^ 64)
    (rest : Bytes) :
    data.readField field .lengthDelimited (Protobuf.encodeDelimited value ++ rest) =
      (data.put field value).map fun next => (next, rest) := by
  rw [readField, if_neg (fun hother => hother rfl), Protobuf.readDelimited_encodeDelimited hvalue]

theorem readFields_encode {data next : ProtectionData} {field : Field} {value : Bytes} (hvalue : value.length < 2 ^ 64)
    (hput : data.put field value = .ok next) (rest : Bytes) :
    readFields data (field.encode value ++ rest) = readFields next rest := by
  have hkey : Protobuf.readKey (field.encode value ++ rest) =
      .ok (⟨field.number, .lengthDelimited⟩, Protobuf.encodeDelimited value ++ rest) := by
    rw [Field.encode, List.append_assoc]
    exact Protobuf.readKey_encode (by cases field <;> decide) (by cases field <;> decide) _
  have hfield : data.readField field .lengthDelimited (Protobuf.encodeDelimited value ++ rest) = .ok (next, rest) := by
    rw [readField_encode data field hvalue, hput]
    rfl
  have hsome : ¬(field.encode value ++ rest).isEmpty = true := by
    rw [Field.encode_eq]
    exact Bool.false_ne_true
  rw [readFields, if_neg hsome]
  split
  · rename_i fault hread
    rw [hkey] at hread
    cases hread
  · rename_i key after hread
    rw [hkey] at hread
    cases hread
    split
    · rename_i found hfound
      rw [Field.ofNumber?_number] at hfound
      cases hfound
      split
      · rename_i fault hread
        rw [hfield] at hread
        cases hread
      · rename_i hread
        rw [hfield] at hread
        cases hread
        rfl
    · rename_i hfound
      rw [Field.ofNumber?_number] at hfound
      cases hfound

theorem readFields_keyIds (data : ProtectionData) {ids : List Bytes}
    (hsize : (ids.flatMap (Field.keyIds.encode ·)).length < 2 ^ 64) (rest : Bytes) :
    readFields data (ids.flatMap (Field.keyIds.encode ·) ++ rest) =
      readFields { data with keyIds := data.keyIds ++ ids } rest := by
  induction ids generalizing data with
  | nil => rw [List.append_nil]; rfl
  | cons id ids ih =>
    have hput : data.put .keyIds id = .ok { data with keyIds := data.keyIds ++ [id] } := rfl
    have hid := Field.length_le_length_encode .keyIds id
    rw [List.flatMap_cons, List.length_append] at hsize
    rw [List.flatMap_cons, List.append_assoc, readFields_encode (by omega) hput, ih _ (by omega), List.append_assoc]
    rfl

/-- A field that may be missing is put when it is there. -/
theorem readFields_elim {α : Type} {data : ProtectionData} {field : Field} {write : α → Bytes}
    (set : Option α → ProtectionData) (hnone : set none = data)
    (hput : ∀ item, data.put field (write item) = .ok (set (some item))) {item? : Option α}
    (hsize : (item?.elim [] fun item => field.encode (write item)).length < 2 ^ 64) (rest : Bytes) :
    readFields data ((item?.elim [] fun item => field.encode (write item)) ++ rest) = readFields (set item?) rest := by
  cases item? with
  | none => rw [hnone]; rfl
  | some item =>
    have hlength := Field.length_le_length_encode field (write item)
    exact readFields_encode (Nat.lt_of_le_of_lt hlength hsize) (hput item) rest

theorem readFields_nil (data : ProtectionData) : readFields data [] = .ok data := by
  rw [readFields]
  rfl

theorem decode_encode {data : ProtectionData} (hsize : data.encode.length < 2 ^ 64) :
    decode data.encode = .ok data := by
  obtain ⟨keyIds, provider, contentId, policy⟩ := data
  have hprovider (text : String) : put { keyIds := keyIds } .provider (Utf8.encode text.toList) =
      .ok { keyIds := keyIds, provider := some text } := by
    simp [put, Utf8.decode?_encode]
  have hpolicy (text : String) : put ⟨keyIds, provider, contentId, none⟩ .policy (Utf8.encode text.toList) =
      .ok ⟨keyIds, provider, contentId, some text⟩ := by
    simp [put, Utf8.decode?_encode]
  simp only [encode, List.length_append] at hsize
  have hcontentId : (contentId.elim [] Field.contentId.encode).length < 2 ^ 64 := by omega
  rw [decode, encode]
  dsimp only
  rw [List.append_assoc, List.append_assoc, readFields_keyIds _ (by omega), List.nil_append,
    readFields_elim (fun provider => { keyIds := keyIds, provider }) rfl hprovider (by omega),
    readFields_elim (fun contentId => { keyIds := keyIds, provider, contentId }) rfl (fun _ => rfl) hcontentId,
    ← List.append_nil (policy.elim [] _),
    readFields_elim (fun policy => ⟨keyIds, provider, contentId, policy⟩) rfl hpolicy (by omega), readFields_nil]

theorem isCanonical_iff {bytes : Bytes} :
    isCanonical bytes = true ↔ ∃ data, decode bytes = .ok data ∧ data.encode = bytes := by
  rw [isCanonical]
  cases decode bytes with
  | ok data => simp
  | error fault => simp

theorem isCanonical_encode {data : ProtectionData} (hsize : data.encode.length < 2 ^ 64) :
    isCanonical data.encode = true :=
  isCanonical_iff.mpr ⟨data, decode_encode hsize, rfl⟩

/-! ### Runs of fields -/

/-- Fields one after another, in any order and any number. -/
inductive FieldRun : Bytes → Prop
  | nil : FieldRun []
  | cons (field : Field) (value : Bytes) {rest : Bytes} (hrest : FieldRun rest) : FieldRun (field.encode value ++ rest)

theorem FieldRun.append {first second : Bytes} (hfirst : FieldRun first) (hsecond : FieldRun second) :
    FieldRun (first ++ second) := by
  induction hfirst with
  | nil => exact hsecond
  | cons field value _ ih =>
    rw [List.append_assoc]
    exact .cons field value ih

theorem FieldRun.single (field : Field) (value : Bytes) : FieldRun (field.encode value) :=
  List.append_nil (field.encode value) ▸ .cons field value .nil

theorem FieldRun.elim {α : Type} (item? : Option α) (field : Field) (write : α → Bytes) :
    FieldRun (item?.elim [] fun item => field.encode (write item)) := by
  cases item? with
  | none => exact .nil
  | some item => exact .single field (write item)

theorem fieldRun_encode (data : ProtectionData) : FieldRun data.encode := by
  have hkeyIds : FieldRun (data.keyIds.flatMap (Field.keyIds.encode ·)) := by
    induction data.keyIds with
    | nil => exact .nil
    | cons id ids ih => exact .cons .keyIds id ih
  exact ((hkeyIds.append (.elim _ _ _)).append (.elim data.contentId .contentId id)).append (.elim _ _ _)

theorem FieldRun.head {bytes : Bytes} (hrun : FieldRun bytes) (hsome : bytes ≠ []) :
    ∃ (field : Field) (rest : Bytes), bytes = field.keyByte :: rest := by
  cases hrun with
  | nil => exact absurd rfl hsome
  | cons field value _ =>
    rw [Field.encode_eq]
    exact ⟨field, _, rfl⟩

/-- The byte behind the key is the length of the value, with the other fields behind the value, or it is the first of several that make up the length; then zero cannot come next. -/
theorem FieldRun.second {first second : UInt8} {rest : Bytes} (hrun : FieldRun (first :: second :: rest)) :
    second < 128 ∧ FieldRun (rest.drop second.toNat) ∨ 128 ≤ second ∧ rest.head? ≠ some 0 := by
  generalize hbytes : first :: second :: rest = bytes at hrun
  cases hrun with
  | nil => cases hbytes
  | @cons field value behind hbehind =>
    rw [Field.encode_eq, Protobuf.encodeDelimited, List.cons_append, List.append_assoc] at hbytes
    have hlength := (List.cons.inj hbytes).2
    rcases Protobuf.encodeVarint_cases value.length with ⟨hsmall, hone⟩ | ⟨digit, next, hdigit, hnext, hmore⟩
    · rw [hone] at hlength
      obtain ⟨rfl, rfl⟩ := List.cons.inj hlength
      have hvalue : (UInt8.ofNat value.length).toNat = value.length :=
        UInt8.toNat_ofNat_of_lt' (show value.length < 256 by omega)
      refine .inl ⟨UInt8.lt_iff_toNat_lt.mpr (by rw [hvalue]; exact hsmall), ?_⟩
      rw [hvalue]
      show FieldRun ((value ++ behind).drop value.length)
      rw [List.drop_left]
      exact hbehind
    · rw [hmore] at hlength
      obtain ⟨rfl, rfl⟩ := List.cons.inj hlength
      have hhead : (Protobuf.encodeVarint next ++ (value ++ behind)).head? = (Protobuf.encodeVarint next).head? := by
        rw [List.head?_append, Option.or_of_isSome (List.isSome_head?.mpr (Protobuf.encodeVarint_ne_nil next))]
      exact .inr ⟨hdigit, hhead ▸ Protobuf.head?_encodeVarint_ne_zero hnext⟩

theorem FieldRun.key {first : UInt8} {rest : Bytes} (hrun : FieldRun (first :: rest)) :
    first.toNat = 0x12 ∨ first.toNat = 0x1a ∨ first.toNat = 0x22 ∨ first.toNat = 0x32 := by
  obtain ⟨field, behind, heq⟩ := hrun.head (List.cons_ne_nil _ _)
  rw [(List.cons.inj heq).1]
  cases field <;> decide

theorem FieldRun.of_isCanonical {bytes : Bytes} (hcanonical : isCanonical bytes = true) : FieldRun bytes := by
  obtain ⟨data, -, rfl⟩ := isCanonical_iff.mp hcanonical
  exact fieldRun_encode data

end ProtectionData

end ContentProtection.Widevine
