import ContentProtection.Proofs.Helper
import ContentProtection.Proofs.Pssh.Recognition

/-!
# Widevine data, bare and in a box

Protection data is its own init data: without a box it is wrapped, and from a box it comes out again. Its first byte is the key of a field, which as the first byte of a box would promise more than `0x12000000` bytes; so bare data below that length is no box, even when a key id puts the type of one where it would have to stand.
-/

namespace ContentProtection.Pssh

theorem ofBox?_of_fieldRun {bytes : Bytes} (hrun : Widevine.ProtectionData.FieldRun bytes)
    (hsize : bytes.length < 0x12000000) : ofBox? bytes = none := by
  rw [Option.eq_none_iff_forall_ne_some]
  intro pssh hread
  have hbox := ofBox?_eq_some_iff.mp hread
  by_cases hsome : bytes = []
  · subst hsome
    cases hread
  · obtain ⟨field, rest, rfl⟩ := hrun.head hsome
    have hhead := hbox.head_le
    have hkey := field.keyByte_le
    omega

/-- The key ids of a header of version 0 for Widevine are those that its init data names. -/
theorem keyIds_widevine {data : Widevine.ProtectionData} (hsize : data.encode.length < 2 ^ 64) (flags : UInt32) :
    keyIds { wrap .widevine data.encode with flags } = .ok (data.keyIds.map KeyId.normalize) := by
  have hversion : ¬((0 : UInt8) = 1 ∧ ([] : List Uuid) ≠ []) := by decide
  have hsystem : ProtectionSystem.ofUuid? ProtectionSystem.widevine.uuid = some .widevine := by decide
  rw [keyIds, wrap, if_neg hversion]
  dsimp only
  rw [hsystem]
  dsimp only
  rw [Widevine.ProtectionData.decode_encode hsize]

/-- Protection data is read as it is and from a box of version 0, and gives the same key ids either way. -/
theorem protection_data_read_bare_and_boxed (data : Widevine.ProtectionData) :
    (data.encode ≠ [] → data.encode.length < 0x12000000 →
      Helper.ReadsAs .widevine data.encode (wrap .widevine data.encode)
        { initData := data.encode, keyIds := data.keyIds.map KeyId.normalize }) ∧
    ∀ flags : UInt32,
      let box : Pssh := { wrap .widevine data.encode with flags }
      box.toBytes.length < 2 ^ 32 →
        Helper.ReadsAs .widevine box.toBytes { box with flags := UInt32.ofNat (flags.toNat % 2 ^ 24) }
          { initData := box.toBytes, keyIds := data.keyIds.map KeyId.normalize } := by
  constructor
  · intro hsome hsize
    have hbytes : data.encode.length < 2 ^ 64 := by omega
    have hcanonical := Widevine.ProtectionData.isCanonical_encode hbytes
    have hbox := ofBox?_of_fieldRun (Widevine.ProtectionData.fieldRun_encode data) hsize
    have hrecognised : recognise? data.encode = some .widevine := by rw [recognise?, if_pos hcanonical]
    refine Helper.readsAs_widevine (fun strict => ?_) (keyIds_widevine hbytes 0) rfl
    rw [parse_of_no_box hsome hbox, hrecognised]
  · intro flags box hsize
    have hdata := (counts_le_length_body box).2
    have hlength := length_toBytes box
    have hbytes : data.encode.length < 2 ^ 64 := by
      have hinit : box.initData.length = data.encode.length := rfl
      omega
    exact Helper.readsAs_widevine (parse_of_ofBox? (ofBox?_toBytes hsize)) (keyIds_widevine hbytes _) rfl

/-- A key id can put the type of a box behind the first four bytes, and one can be empty. -/
theorem protection_data_read_with_box_type_inside :
    let data : Widevine.ProtectionData := { keyIds := [[7, 7] ++ boxType, []] }
    let keyIds := [Uuid.ofLastBytes ([7, 7] ++ boxType), Uuid.zero]
    let box : Pssh := { wrap .widevine data.encode with flags := 0x1000002 }
    data.encode = [0x12, 6, 7, 7] ++ boxType ++ [0x12, 0] ∧ data.encode.length < 0x12000000 ∧
      Helper.ReadsAs .widevine data.encode (wrap .widevine data.encode) { initData := data.encode, keyIds } ∧
      box.toBytes.length < 2 ^ 32 ∧
      Helper.ReadsAs .widevine box.toBytes { box with flags := 2 } { initData := box.toBytes, keyIds } := by
  intro data keyIds box
  have hbytes : data.encode = [0x12, 6, 7, 7] ++ boxType ++ [0x12, 0] := by cbv
  have hsome : data.encode ≠ [] := by rw [hbytes]; exact List.cons_ne_nil _ _
  have hbare : data.encode.length < 0x12000000 := by rw [hbytes]; decide
  have hboxed : box.toBytes.length < 2 ^ 32 := by
    rw [length_toBytes]
    cbv
  exact ⟨hbytes, hbare, (protection_data_read_bare_and_boxed data).1 hsome hbare, hboxed,
    (protection_data_read_bare_and_boxed data).2 0x1000002 hboxed⟩

end ContentProtection.Pssh
