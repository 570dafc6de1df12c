import ContentProtection.Proofs.Helper
import ContentProtection.Proofs.Pssh.RoundTrip

/-!
# Boxes that list key ids

What comes of a list of key ids that is written as a box and read by a clear key helper, however long the list is. The four bytes for the number of key ids keep it modulo `2 ^ 32`, so reading gives the first key ids of the list, that many of them. The box is in any case long enough for what the cut numbers say, because all key ids stand in it.
-/

namespace ContentProtection

namespace Pssh

/-- The key ids of a list that come back from a box. -/
def kept (ids : List Uuid) : List Uuid := ids.take (ids.length % 2 ^ 32)

/-- The key ids that stand in the box and are not read. -/
def dropped (ids : List Uuid) : List Uuid := ids.drop (ids.length % 2 ^ 32)

theorem kept_append_dropped (ids : List Uuid) : kept ids ++ dropped ids = ids := List.take_append_drop _ _

theorem length_kept (ids : List Uuid) : (kept ids).length = ids.length % 2 ^ 32 :=
  List.length_take_of_le (Nat.mod_le _ _)

theorem length_dropped (ids : List Uuid) : (dropped ids).length = ids.length - ids.length % 2 ^ 32 :=
  List.length_drop

theorem kept_of_length_lt {ids : List Uuid} (hcount : ids.length < 2 ^ 32) : kept ids = ids := by
  rw [kept, Nat.mod_eq_of_lt hcount, List.take_length]

/-- When any key ids come back, the first one does. -/
theorem head?_kept {ids : List Uuid} (hsome : kept ids ≠ []) : (kept ids).head? = ids.head? := by
  conv_rhs => rw [← kept_append_dropped ids]
  cases hkept : kept ids with
  | nil => exact absurd hkept hsome
  | cons first others => rfl

theorem readKeyIds?_encodeKeyIds (ids : List Uuid) (rest : Bytes) :
    readKeyIds? (encodeKeyIds ids ++ rest) = some (kept ids, (dropped ids).flatMap Uuid.bytes ++ rest) := by
  have hread : (Bytes.ofNatBE 4 ids.length).toNatBE = (kept ids).length := by
    rw [length_kept]
    exact Bytes.toNatBE_ofNatBE 4 _
  have hids : ids.flatMap Uuid.bytes = (kept ids).flatMap Uuid.bytes ++ (dropped ids).flatMap Uuid.bytes := by
    rw [← List.flatMap_append, kept_append_dropped]
  rw [readKeyIds?, encodeKeyIds, List.append_assoc, Bytes.split?_ofNatBE]
  simp [hread, hids, readUuids?_append]

theorem split?_eq_some {count : Nat} {bytes : Bytes} (hroom : count ≤ bytes.length) :
    bytes.split? count = some (bytes.take count, bytes.drop count) := if_pos hroom

/-- Key ids that are not read are so many that whatever length is found in them does not lead beyond them. -/
theorem split?_dropped (ids : List Uuid) :
    ∃ length behind initData rest,
      Bytes.split? 4 ((dropped ids).flatMap Uuid.bytes ++ Bytes.ofNatBE 4 0) = some (length, behind) ∧
      behind.split? length.toNatBE = some (initData, rest) := by
  have hcount := length_dropped ids
  by_cases hshort : ids.length < 2 ^ 32
  · rw [Nat.mod_eq_of_lt hshort, Nat.sub_self] at hcount
    rw [List.length_eq_zero_iff.mp hcount]
    exact ⟨Bytes.ofNatBE 4 0, [], [], [], by decide, by decide⟩
  · have hlength := length_flatMap_bytes (dropped ids)
    have hmany : 2 ^ 32 ≤ (dropped ids).length := by omega
    generalize (dropped ids).flatMap Uuid.bytes = bytes at hlength ⊢
    have hroom : 4 ≤ (bytes ++ Bytes.ofNatBE 4 0).length := by
      rw [List.length_append]
      omega
    have hwidth := Bytes.toNatBE_lt ((bytes ++ Bytes.ofNatBE 4 0).take 4)
    rw [List.length_take_of_le hroom] at hwidth
    refine ⟨_, _, _, _, split?_eq_some hroom, split?_eq_some ?_⟩
    rw [List.length_drop, List.length_append]
    omega

theorem readBody?_ofKeyIds (system : ProtectionSystem) (ids : List Uuid) :
    ∃ initData rest, readBody? (ofKeyIds system ids).body = some (⟨1, 0, system.uuid, kept ids, initData⟩, rest) := by
  obtain ⟨length, behind, initData, rest, hlength, hdata⟩ := split?_dropped ids
  have hkeys := readKeyIds?_encodeKeyIds ids (Bytes.ofNatBE 4 0)
  have hflags : (Bytes.ofNatBE 3 0).toNatBE = 0 := rfl
  refine ⟨initData, rest, ?_⟩
  simp [body, ofKeyIds, readBody?, Bytes.split?_ofNatBE, readUuid?_append, hkeys, hlength, hdata, hflags]

theorem length_ofKeyIds (system : ProtectionSystem) (ids : List Uuid) :
    (ofKeyIds system ids).toBytes.length = 16 * ids.length + 36 := by
  rw [length_toBytes]
  have hids := length_flatMap_bytes ids
  simp only [body, ofKeyIds, encodeKeyIds, if_true, List.length_append, List.length_cons, List.length_nil,
    Bytes.length_ofNatBE, Uuid.length_eq, hids]
  omega

theorem ofBox?_ofKeyIds (system : ProtectionSystem) (ids : List Uuid) :
    ∃ initData, ofBox? (ofKeyIds system ids).toBytes = some ⟨1, 0, system.uuid, kept ids, initData⟩ := by
  obtain ⟨initData, rest, hread⟩ := readBody?_ofKeyIds system ids
  have hlength := length_ofKeyIds system ids
  -- A multiple of sixteen and four: not one of the sizes that stand for something else, even when it is cut.
  have hsize : 1 < (ofKeyIds system ids).toBytes.length % 2 ^ 32 := by omega
  have hfits : ¬(ofKeyIds system ids).toBytes.length < (ofKeyIds system ids).toBytes.length % 2 ^ 32 :=
    Nat.not_lt.mpr (Nat.mod_le _ _)
  refine ⟨initData, ?_⟩
  rw [ofBox?, readBoxStart?_of_size hsize]
  simp only [Option.bind_eq_bind, Option.bind_some, if_neg hfits, hread, Option.map_some]

end Pssh

/-- A clear key helper refuses a box of which no key id comes back. -/
theorem Helper.refused_ofKeyIds {ids : List Uuid} (info : ProtectionInfo) (hnone : Pssh.kept ids = []) :
    Helper.Refused ((Helper.Kind.ofSystem .clearKey).read info (Pssh.ofKeyIds .clearKey ids).toBytes) := by
  obtain ⟨initData, hbox⟩ := Pssh.ofBox?_ofKeyIds .clearKey ids
  have hparse := Pssh.parse_of_ofBox? hbox true
  refine ⟨.unusable, fun held => ?_⟩
  simp only [Helper.Kind.read_clearKey, Helper.readClearKey, hparse, hnone]
  rfl

/-- A clear key helper takes the key ids that come back. -/
theorem Helper.writes_ofKeyIds {ids : List Uuid} (info : ProtectionInfo) (hsome : Pssh.kept ids ≠ []) :
    Helper.Writes ((Helper.Kind.ofSystem .clearKey).read info (Pssh.ofKeyIds .clearKey ids).toBytes) .clearKey
      { initData := (Pssh.ofKeyIds .clearKey ids).toBytes, keyIds := Pssh.kept ids } := by
  obtain ⟨initData, hbox⟩ := Pssh.ofBox?_ofKeyIds .clearKey ids
  have hkeyIds : Pssh.keyIds ⟨1, 0, ProtectionSystem.clearKey.uuid, Pssh.kept ids, initData⟩ = .ok (Pssh.kept ids) :=
    if_pos ⟨rfl, hsome⟩
  rw [Helper.Kind.read_clearKey]
  exact Helper.writes_readClearKey (Pssh.parse_of_ofBox? hbox true) hkeyIds hsome

end ContentProtection
