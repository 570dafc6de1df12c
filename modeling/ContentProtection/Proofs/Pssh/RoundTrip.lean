import ContentProtection.Proofs.Bytes
import ContentProtection.Pssh

/-!
# Written boxes read back

A box that is shorter than `2 ^ 32` bytes reads back as the header it was written from, with the flags that fit three bytes and with key ids only in version 1. It is recognised before anything else is tried, so strict and lenient reading agree. Every header that reading gives, from a box or from bare init data, is in that form already and comes back whole.
-/

namespace ContentProtection.Pssh

/-! ### Parts of a box -/

theorem readUuid?_append (uuid : Uuid) (rest : Bytes) : readUuid? (uuid.bytes ++ rest) = some (uuid, rest) := by
  simp [readUuid?, Bytes.split?_append uuid.length_eq, Uuid.ofBytes?, uuid.length_eq]

theorem readUuids?_append (uuids : List Uuid) (rest : Bytes) :
    readUuids? uuids.length (uuids.flatMap Uuid.bytes ++ rest) = some (uuids, rest) := by
  induction uuids with
  | nil => rfl
  | cons uuid uuids ih =>
    rw [List.flatMap_cons, List.append_assoc, List.length_cons, readUuids?, readUuid?_append]
    simp [ih]

theorem readKeyIds?_append {keyIds : List Uuid} (hcount : keyIds.length < 2 ^ 32) (rest : Bytes) :
    readKeyIds? (encodeKeyIds keyIds ++ rest) = some (keyIds, rest) := by
  have hread : (Bytes.ofNatBE 4 keyIds.length).toNatBE = keyIds.length := by
    rw [Bytes.toNatBE_ofNatBE]
    exact Nat.mod_eq_of_lt hcount
  rw [readKeyIds?, encodeKeyIds, List.append_assoc, Bytes.split?_ofNatBE]
  simp [hread, readUuids?_append]

/-- What a box can hold of a header: three bytes of flags, and key ids in version 1 only. -/
def asRead (pssh : Pssh) : Pssh :=
  { pssh with
    flags := UInt32.ofNat (pssh.flags.toNat % 2 ^ 24)
    listedKeyIds := if pssh.version = 1 then pssh.listedKeyIds else [] }

theorem length_flatMap_bytes (uuids : List Uuid) : (uuids.flatMap Uuid.bytes).length = 16 * uuids.length := by
  induction uuids with
  | nil => rfl
  | cons uuid uuids ih =>
    rw [List.flatMap_cons, List.length_append, uuid.length_eq, ih, List.length_cons]
    omega

/-- Each count and length field of a box is at most the length of the body, so none is cut when the box is short enough. -/
theorem counts_le_length_body (pssh : Pssh) :
    (pssh.version = 1 → pssh.listedKeyIds.length ≤ pssh.body.length) ∧ pssh.initData.length ≤ pssh.body.length := by
  constructor
  · intro hversion
    have hids := length_flatMap_bytes pssh.listedKeyIds
    simp only [body, if_pos hversion, encodeKeyIds, List.length_append, List.length_cons]
    omega
  · simp only [body, List.length_append, List.length_cons]
    omega

theorem readBody?_body_append {pssh : Pssh} (hids : pssh.version = 1 → pssh.listedKeyIds.length < 2 ^ 32)
    (hdata : pssh.initData.length < 2 ^ 32) (rest : Bytes) :
    readBody? (pssh.body ++ rest) = some (pssh.asRead, rest) := by
  have hflags : (Bytes.ofNatBE 3 pssh.flags.toNat).toNatBE = pssh.flags.toNat % 2 ^ 24 :=
    Bytes.toNatBE_ofNatBE 3 _
  have hlength : (Bytes.ofNatBE 4 pssh.initData.length).toNatBE = pssh.initData.length := by
    rw [Bytes.toNatBE_ofNatBE]
    exact Nat.mod_eq_of_lt hdata
  have hinit : Bytes.split? pssh.initData.length (pssh.initData ++ rest) = some (pssh.initData, rest) :=
    Bytes.split?_append rfl rest
  by_cases hversion : pssh.version = 1
  · have hkeys := readKeyIds?_append (hids hversion)
    simp [body, readBody?, Bytes.split?_ofNatBE, readUuid?_append, hversion, hkeys, hlength, hinit, hflags, asRead]
  · simp [body, readBody?, Bytes.split?_ofNatBE, readUuid?_append, hversion, hlength, hinit, hflags, asRead]

/-! ### The whole box -/

theorem length_toBytes (pssh : Pssh) : pssh.toBytes.length = pssh.body.length + 8 := by
  simp [toBytes, Bytes.length_ofNatBE, boxType]
  omega

/-- Sizes of 0 and 1 stand for something else. -/
theorem readBoxStart?_of_size {pssh : Pssh} (hsize : 1 < pssh.toBytes.length % 2 ^ 32) :
    readBoxStart? pssh.toBytes = some (pssh.toBytes.length % 2 ^ 32, pssh.body) := by
  rw [length_toBytes] at hsize
  have hread : (Bytes.ofNatBE 4 (pssh.body.length + 8)).toNatBE = (pssh.body.length + 8) % 2 ^ 32 :=
    Bytes.toNatBE_ofNatBE 4 _
  have hzero : (pssh.body.length + 8) % 2 ^ 32 ≠ 0 := by omega
  have hone : (pssh.body.length + 8) % 2 ^ 32 ≠ 1 := by omega
  have htype : Bytes.split? 4 (boxType ++ pssh.body) = some (boxType, pssh.body) :=
    Bytes.split?_append (by rfl) _
  rw [readBoxStart?, length_toBytes, toBytes, List.append_assoc, Bytes.split?_ofNatBE]
  simp only [Option.bind_eq_bind, Option.bind_some, htype, hread, ne_eq, not_true_eq_false, if_false, if_neg hone,
    if_neg hzero]

/-- The size that is written is neither of the two that stand for something else. -/
theorem readBoxStart?_toBytes {pssh : Pssh} (hsize : pssh.toBytes.length < 2 ^ 32) :
    readBoxStart? pssh.toBytes = some (pssh.toBytes.length, pssh.body) := by
  have hlength := length_toBytes pssh
  have hmod := Nat.mod_eq_of_lt hsize
  rw [readBoxStart?_of_size (by omega), hmod]

theorem ofBox?_toBytes {pssh : Pssh} (hsize : pssh.toBytes.length < 2 ^ 32) :
    ofBox? pssh.toBytes = some pssh.asRead := by
  have hbody : pssh.body.length < 2 ^ 32 := by
    rw [length_toBytes] at hsize
    omega
  obtain ⟨hids, hdata⟩ := counts_le_length_body pssh
  have hread := readBody?_body_append (fun hversion => Nat.lt_of_le_of_lt (hids hversion) hbody)
    (Nat.lt_of_le_of_lt hdata hbody) []
  rw [List.append_nil] at hread
  simp [ofBox?, readBoxStart?_toBytes hsize, hread]

/-- Data that starts with a box is read as the box in both modes, whatever else it may look like. -/
theorem parse_of_ofBox? {bytes : Bytes} {pssh : Pssh} (hbox : ofBox? bytes = some pssh) (strict : Bool) :
    parse strict bytes = .ok pssh := by
  cases bytes with
  | nil => cases hbox
  | cons byte bytes =>
    rw [parse, hbox]
    rfl

/-! ### What reading gives -/

theorem asRead_eq_self {pssh : Pssh} (hflags : pssh.flags.toNat < 2 ^ 24)
    (hids : pssh.version ≠ 1 → pssh.listedKeyIds = []) : pssh.asRead = pssh := by
  have hids' : (if pssh.version = 1 then pssh.listedKeyIds else []) = pssh.listedKeyIds := by
    by_cases hversion : pssh.version = 1
    · rw [if_pos hversion]
    · rw [if_neg hversion, hids hversion]
  rw [asRead, hids', Nat.mod_eq_of_lt hflags, UInt32.ofNat_toNat]

theorem asRead_of_readBody? {bytes rest : Bytes} {pssh : Pssh} (hread : readBody? bytes = some (pssh, rest)) :
    pssh.asRead = pssh := by
  cases bytes with
  | nil => simp [readBody?] at hread
  | cons version bytes =>
    simp only [readBody?, Option.bind_eq_bind, Option.bind_eq_some_iff, Prod.exists] at hread
    obtain ⟨flags, _, hflags, _, _, _, hread⟩ := hread
    have hwidth : (UInt32.ofNat flags.toNatBE).toNat < 2 ^ 24 := by
      have hlt := Bytes.toNatBE_lt flags
      rw [(Bytes.eq_append_of_split? hflags).2] at hlt
      rw [UInt32.toNat_ofNat']
      exact Nat.lt_of_le_of_lt (Nat.mod_le _ _) hlt
    -- Only version 1 reads key ids, so the two branches differ in what they say of the list.
    split at hread
    · rename_i hversion
      simp only [Option.bind_eq_some_iff, Prod.exists] at hread
      obtain ⟨_, _, _, _, _, _, _, _, _, hpair⟩ := hread
      cases Option.some.inj hpair
      exact asRead_eq_self hwidth fun hother => absurd hversion hother
    · simp only [Option.bind_eq_some_iff, Prod.exists] at hread
      obtain ⟨_, _, hnone, _, _, _, _, _, _, hpair⟩ := hread
      cases Option.some.inj hnone
      cases Option.some.inj hpair
      exact asRead_eq_self hwidth fun _ => rfl

theorem asRead_wrap (system : ProtectionSystem) (initData : Bytes) :
    (wrap system initData).asRead = wrap system initData :=
  asRead_eq_self (Nat.two_pow_pos 24) fun _ => rfl

theorem asRead_of_parse {strict : Bool} {bytes : Bytes} {pssh : Pssh} (hparse : parse strict bytes = .ok pssh) :
    pssh.asRead = pssh := by
  rw [parse] at hparse
  split at hparse
  · cases hparse
  · split at hparse
    · rename_i read _ hbox
      obtain rfl := Except.ok.inj hparse
      simp only [ofBox?, Option.bind_eq_bind, Option.bind_eq_some_iff, Prod.exists] at hbox
      obtain ⟨size, rest, _, hbody⟩ := hbox
      split at hbody
      · cases hbody
      · obtain ⟨⟨_, rest'⟩, hread, rfl⟩ := Option.map_eq_some_iff.mp hbody
        exact asRead_of_readBody? hread
    · obtain rfl := Except.ok.inj hparse
      exact asRead_wrap _ _
    · split at hparse
      · cases hparse
      · obtain rfl := Except.ok.inj hparse
        exact asRead_wrap _ _

/-- A written box reads back in both modes, and a header that was read comes back whole. -/
theorem parse_toBytes (pssh : Pssh) (strict : Bool) (hsize : pssh.toBytes.length < 2 ^ 32) :
    parse strict pssh.toBytes =
        .ok
          { pssh with
            flags := UInt32.ofNat (pssh.flags.toNat % 2 ^ 24)
            listedKeyIds := if pssh.version = 1 then pssh.listedKeyIds else [] } ∧
      ∀ (bytes : Bytes) (mode : Bool), parse mode bytes = .ok pssh → parse strict pssh.toBytes = .ok pssh := by
  have hread := parse_of_ofBox? (ofBox?_toBytes hsize) strict
  refine ⟨hread, ?_⟩
  intro bytes mode hparse
  rw [hread, asRead_of_parse hparse]

/-- A box of size 0, which stands for the rest of the data, is written with its true size and read as the same header. -/
theorem parse_toBytes_of_open_ended_box :
    let header : Pssh :=
      ⟨1, 0xff0001, ProtectionSystem.playReady.uuid, [Uuid.zero, ProtectionSystem.widevine.uuid], [7, 8]⟩
    let openEnded : Bytes := [0, 0, 0, 0] ++ boxType ++ header.body
    header.toBytes.length < 2 ^ 32 ∧ parse false openEnded = .ok header ∧ parse true header.toBytes = .ok header := by
  intro header openEnded
  have hsize : header.toBytes.length < 2 ^ 32 := by decide
  have hparse : parse false openEnded = .ok header := parse_of_ofBox? (by decide) false
  exact ⟨hsize, hparse, (parse_toBytes header true hsize).2 openEnded false hparse⟩

end ContentProtection.Pssh
