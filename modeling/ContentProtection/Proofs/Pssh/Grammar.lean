import ContentProtection.Proofs.Pssh.RoundTrip

/-!
# What is accepted as a header

The grammar of boxes, and that reading accepts exactly it: size and type in one of three forms, the body of a header whose numbers fit their fields, and anything after that. Around boxes stands the order in which data is recognised; what strict reading accepts, and what lenient reading makes of the rest.
-/

namespace ContentProtection.Pssh

/-! ### Bodies -/

/-- Whether each part of a header fits its field in a box, so that none is cut. -/
structure Fits (pssh : Pssh) : Prop where
  flags_lt : pssh.flags.toNat < 2 ^ 24
  listedKeyIds_eq_nil : pssh.version ≠ 1 → pssh.listedKeyIds = []
  count_lt : pssh.listedKeyIds.length < 2 ^ 32
  length_lt : pssh.initData.length < 2 ^ 32

theorem Fits.asRead_eq {pssh : Pssh} (hfits : pssh.Fits) : pssh.asRead = pssh :=
  asRead_eq_self hfits.flags_lt hfits.listedKeyIds_eq_nil

theorem eq_append_of_readUuid? {bytes rest : Bytes} {uuid : Uuid} (hread : readUuid? bytes = some (uuid, rest)) :
    bytes = uuid.bytes ++ rest := by
  simp only [readUuid?, Option.bind_eq_bind, Option.bind_eq_some_iff, Prod.exists] at hread
  obtain ⟨front, after, hsplit, found, huuid, hpair⟩ := hread
  obtain ⟨rfl, rfl⟩ := Prod.mk.inj (Option.some.inj hpair)
  obtain ⟨hbytes, hwidth⟩ := Bytes.eq_append_of_split? hsplit
  rw [Uuid.ofBytes?, dif_pos hwidth] at huuid
  rw [hbytes, ← Option.some.inj huuid]

theorem eq_append_of_readUuids? {count : Nat} {bytes rest : Bytes} {uuids : List Uuid}
    (hread : readUuids? count bytes = some (uuids, rest)) :
    bytes = uuids.flatMap Uuid.bytes ++ rest ∧ uuids.length = count := by
  induction count generalizing bytes uuids with
  | zero =>
    obtain ⟨rfl, rfl⟩ := Prod.mk.inj (Option.some.inj hread)
    exact ⟨rfl, rfl⟩
  | succ count ih =>
    simp only [readUuids?, Option.bind_eq_bind, Option.bind_eq_some_iff, Prod.exists] at hread
    obtain ⟨first, after, hfirst, others, behind, hothers, hpair⟩ := hread
    obtain ⟨rfl, rfl⟩ := Prod.mk.inj (Option.some.inj hpair)
    obtain ⟨hafter, hcount⟩ := ih hothers
    refine ⟨?_, by rw [List.length_cons, hcount]⟩
    rw [eq_append_of_readUuid? hfirst, hafter, List.flatMap_cons, List.append_assoc]

theorem eq_append_of_readKeyIds? {bytes rest : Bytes} {keyIds : List Uuid}
    (hread : readKeyIds? bytes = some (keyIds, rest)) :
    bytes = encodeKeyIds keyIds ++ rest ∧ keyIds.length < 2 ^ 32 := by
  simp only [readKeyIds?, Option.bind_eq_bind, Option.bind_eq_some_iff, Prod.exists] at hread
  obtain ⟨count, after, hsplit, hids⟩ := hread
  obtain ⟨hbytes, hwidth⟩ := Bytes.eq_append_of_split? hsplit
  obtain ⟨hafter, hcount⟩ := eq_append_of_readUuids? hids
  have hlt := Bytes.toNatBE_lt count
  rw [hwidth] at hlt
  refine ⟨?_, by rw [hcount]; exact hlt⟩
  rw [hbytes, hafter, encodeKeyIds, hcount, Bytes.ofNatBE_toNatBE hwidth, List.append_assoc]

/-- The list of key ids in a body: version 1 alone has one. -/
def readListed? (version : UInt8) (bytes : Bytes) : Option (List Uuid × Bytes) :=
  if version = 1 then readKeyIds? bytes else some ([], bytes)

theorem eq_append_of_readListed? {version : UInt8} {bytes rest : Bytes} {keyIds : List Uuid}
    (hread : readListed? version bytes = some (keyIds, rest)) :
    bytes = (if version = 1 then encodeKeyIds keyIds else []) ++ rest ∧ keyIds.length < 2 ^ 32 := by
  rw [readListed?] at hread
  split at hread
  · rename_i hversion
    rw [if_pos hversion]
    exact eq_append_of_readKeyIds? hread
  · rename_i hversion
    obtain ⟨rfl, rfl⟩ := Prod.mk.inj (Option.some.inj hread)
    rw [if_neg hversion]
    exact ⟨rfl, Nat.two_pow_pos 32⟩

theorem readBody?_cons (version : UInt8) (bytes : Bytes) :
    readBody? (version :: bytes) =
      (Bytes.split? 3 bytes).bind fun flags => (readUuid? flags.2).bind fun systemId =>
        (readListed? version systemId.2).bind fun keyIds => (keyIds.2.split? 4).bind fun length =>
          (length.2.split? length.1.toNatBE).bind fun initData =>
            some (⟨version, UInt32.ofNat flags.1.toNatBE, systemId.1, keyIds.1, initData.1⟩, initData.2) := by
  unfold readListed?
  by_cases hversion : version = 1
  · simp only [readBody?, if_pos hversion]
    rfl
  · simp only [readBody?, if_neg hversion]
    rfl

theorem eq_append_of_readBody? {bytes rest : Bytes} {pssh : Pssh} (hread : readBody? bytes = some (pssh, rest)) :
    bytes = pssh.body ++ rest ∧ pssh.Fits := by
  have hasRead := asRead_of_readBody? hread
  cases bytes with
  | nil => cases hread
  | cons version bytes =>
    simp only [readBody?_cons, Option.bind_eq_some_iff, Prod.exists] at hread
    obtain ⟨flags, _, hflags, systemId, _, hsystem, keyIds, _, hids, length, _, hlength, initData, _, hdata, hpair⟩ :=
      hread
    obtain ⟨rfl, rfl⟩ := Prod.mk.inj (Option.some.inj hpair)
    obtain ⟨rfl, hflagsWidth⟩ := Bytes.eq_append_of_split? hflags
    obtain ⟨rfl, hlengthWidth⟩ := Bytes.eq_append_of_split? hlength
    obtain ⟨rfl, hinitData⟩ := Bytes.eq_append_of_split? hdata
    obtain ⟨rfl, hcount⟩ := eq_append_of_readListed? hids
    obtain rfl := eq_append_of_readUuid? hsystem
    have hflagsLt := Bytes.toNatBE_lt flags
    have hlengthLt := Bytes.toNatBE_lt length
    rw [hflagsWidth] at hflagsLt
    rw [hlengthWidth, ← hinitData] at hlengthLt
    have hflagsNat : (UInt32.ofNat flags.toNatBE).toNat = flags.toNatBE :=
      UInt32.toNat_ofNat_of_lt' (Nat.lt_trans hflagsLt (by decide))
    refine ⟨?_, ?_, fun hversion => ?_, hcount, hlengthLt⟩
    · rw [body, hflagsNat, Bytes.ofNatBE_toNatBE hflagsWidth, hinitData, Bytes.ofNatBE_toNatBE hlengthWidth]
      simp only [List.cons_append, List.append_assoc]
    · rw [hflagsNat]
      exact hflagsLt
    · have hnone := congrArg Pssh.listedKeyIds hasRead
      simp only [asRead, if_neg hversion] at hnone
      exact hnone.symm

/-- Reading takes the body of a header that fits, whatever comes after it, and nothing else. -/
theorem readBody?_eq_some_iff {bytes rest : Bytes} {pssh : Pssh} :
    readBody? bytes = some (pssh, rest) ↔ bytes = pssh.body ++ rest ∧ pssh.Fits := by
  constructor
  · exact eq_append_of_readBody?
  · rintro ⟨rfl, hfits⟩
    rw [readBody?_body_append (fun _ => hfits.count_lt) hfits.length_lt, hfits.asRead_eq]

/-! ### Size and type -/

/-- How a box starts in data of a certain length: with a size of 32 bits, which may be 0, or with a size of 1 and one of 64 bits. The size never exceeds the data. -/
inductive BoxStart (length : Nat) : Bytes → Prop
  | short {size : Nat} (hsize : size < 2 ^ 32) (hother : size ≠ 1) (hroom : size ≤ length) :
    BoxStart length (Bytes.ofNatBE 4 size ++ boxType)
  | long {size : Nat} (hsize : size < 2 ^ 64) (hroom : size ≤ length) :
    BoxStart length (Bytes.ofNatBE 4 1 ++ boxType ++ Bytes.ofNatBE 8 size)

theorem BoxStart.readBoxStart? {start rest : Bytes} (hstart : BoxStart (start ++ rest).length start) :
    ∃ size, Pssh.readBoxStart? (start ++ rest) = some (size, rest) ∧ size ≤ (start ++ rest).length := by
  generalize hlength : (start ++ rest).length = length at hstart
  cases hstart with
  | @short size hsize hother hroom =>
    have hread : (Bytes.ofNatBE 4 size).toNatBE = size := by
      rw [Bytes.toNatBE_ofNatBE]
      exact Nat.mod_eq_of_lt hsize
    have htype : Bytes.split? 4 (boxType ++ rest) = some (boxType, rest) := Bytes.split?_append (by rfl) rest
    by_cases hzero : size = 0
    · subst hzero
      refine ⟨length, ?_, le_rfl⟩
      rw [Pssh.readBoxStart?, hlength, List.append_assoc, Bytes.split?_ofNatBE]
      simp [htype, hread]
    · refine ⟨size, ?_, hroom⟩
      rw [Pssh.readBoxStart?, List.append_assoc, Bytes.split?_ofNatBE]
      simp [htype, hread, hother, hzero]
  | @long size hsize hroom =>
    have hone : (Bytes.ofNatBE 4 1).toNatBE = 1 := Bytes.toNatBE_ofNatBE 4 1
    have hread : (Bytes.ofNatBE 8 size).toNatBE = size := by
      rw [Bytes.toNatBE_ofNatBE]
      exact Nat.mod_eq_of_lt hsize
    have htype : Bytes.split? 4 (boxType ++ (Bytes.ofNatBE 8 size ++ rest)) =
        some (boxType, Bytes.ofNatBE 8 size ++ rest) :=
      Bytes.split?_append (by rfl) _
    refine ⟨size, ?_, hroom⟩
    rw [Pssh.readBoxStart?, List.append_assoc, List.append_assoc, Bytes.split?_ofNatBE]
    simp [htype, hone, Bytes.split?_ofNatBE, hread]

theorem BoxStart.mono {length more : Nat} {start : Bytes} (hstart : BoxStart length start) (hle : length ≤ more) :
    BoxStart more start := by
  cases hstart with
  | short hsize hother hroom => exact .short hsize hother (Nat.le_trans hroom hle)
  | long hsize hroom => exact .long hsize (Nat.le_trans hroom hle)

/-- The size that is read is all that the start asks of the data. -/
theorem boxStart_of_readBoxStart? {bytes rest : Bytes} {size : Nat} (hread : readBoxStart? bytes = some (size, rest)) :
    ∃ start, BoxStart size start ∧ bytes = start ++ rest := by
  simp only [readBoxStart?, Option.bind_eq_bind, Option.bind_eq_some_iff, Prod.exists] at hread
  obtain ⟨field, _, hfield, type, after, htype, hread⟩ := hread
  obtain ⟨hbytes, hfieldWidth⟩ := Bytes.eq_append_of_split? hfield
  obtain ⟨rfl, -⟩ := Bytes.eq_append_of_split? htype
  have hfieldLt := Bytes.toNatBE_lt field
  rw [hfieldWidth] at hfieldLt
  have hfieldBytes := Bytes.ofNatBE_toNatBE hfieldWidth
  -- A size of 64 bits, one that is left open, or one of 32 bits, behind the right type.
  split_ifs at hread with hother hone hzero
  · rw [not_not.mp hother] at hbytes
    simp only [Option.map_eq_some_iff, Prod.exists, Prod.mk.injEq] at hread
    obtain ⟨wide, _, hwide, rfl, rfl⟩ := hread
    obtain ⟨rfl, hwideWidth⟩ := Bytes.eq_append_of_split? hwide
    have hwideLt := Bytes.toNatBE_lt wide
    rw [hwideWidth] at hwideLt
    refine ⟨_, .long hwideLt le_rfl, ?_⟩
    rw [hbytes, Bytes.ofNatBE_toNatBE hwideWidth, ← hone, hfieldBytes, List.append_assoc, List.append_assoc]
  · rw [not_not.mp hother] at hbytes
    obtain ⟨-, rfl⟩ := Prod.mk.inj (Option.some.inj hread)
    refine ⟨_, .short (Nat.two_pow_pos 32) Nat.zero_ne_one (Nat.zero_le _), ?_⟩
    rw [hbytes, ← hzero, hfieldBytes, List.append_assoc]
  · rw [not_not.mp hother] at hbytes
    obtain ⟨rfl, rfl⟩ := Prod.mk.inj (Option.some.inj hread)
    refine ⟨_, .short hfieldLt hone le_rfl, ?_⟩
    rw [hbytes, hfieldBytes, List.append_assoc]

/-! ### Boxes -/

/-- Data that starts with a box of the header: size and type, the body, and anything. -/
def StartsWithBox (pssh : Pssh) (bytes : Bytes) : Prop :=
  pssh.Fits ∧ ∃ start rest, BoxStart bytes.length start ∧ bytes = start ++ pssh.body ++ rest

/-- The parts of a box that is read, with the size that it declares. -/
theorem parts_of_ofBox? {bytes : Bytes} {pssh : Pssh} (hbox : ofBox? bytes = some pssh) :
    pssh.Fits ∧ ∃ size start rest, readBoxStart? bytes = some (size, pssh.body ++ rest) ∧ size ≤ bytes.length ∧
      BoxStart size start ∧ bytes = start ++ pssh.body ++ rest := by
  simp only [ofBox?, Option.bind_eq_bind, Option.bind_eq_some_iff, Prod.exists] at hbox
  obtain ⟨size, behind, hstart, hread⟩ := hbox
  split at hread
  · cases hread
  · rename_i hroom
    obtain ⟨⟨_, rest⟩, hbody, rfl⟩ := Option.map_eq_some_iff.mp hread
    obtain ⟨rfl, hfits⟩ := readBody?_eq_some_iff.mp hbody
    obtain ⟨start, hform, hbytes⟩ := boxStart_of_readBoxStart? hstart
    exact ⟨hfits, size, start, rest, hstart, Nat.not_lt.mp hroom, hform, by rw [hbytes, List.append_assoc]⟩

theorem ofBox?_eq_some_iff {bytes : Bytes} {pssh : Pssh} : ofBox? bytes = some pssh ↔ pssh.StartsWithBox bytes := by
  constructor
  · intro hbox
    obtain ⟨hfits, size, start, rest, -, hroom, hform, hbytes⟩ := parts_of_ofBox? hbox
    exact ⟨hfits, start, rest, hform.mono hroom, hbytes⟩
  · rintro ⟨hfits, start, rest, hform, hbytes⟩
    rw [List.append_assoc] at hbytes
    subst hbytes
    obtain ⟨size, hstart, hroom⟩ := hform.readBoxStart?
    simp only [ofBox?, Option.bind_eq_bind, Option.bind_eq_some_iff, Prod.exists]
    refine ⟨size, pssh.body ++ rest, hstart, ?_⟩
    rw [if_neg (Nat.not_lt.mpr hroom), readBody?_eq_some_iff.mpr ⟨rfl, hfits⟩]
    rfl

/-- The first byte of a box counts `2 ^ 24` of the bytes that its size promises, and these are there. -/
theorem StartsWithBox.head_le {pssh : Pssh} {first : UInt8} {rest : Bytes} (hbox : pssh.StartsWithBox (first :: rest)) :
    first.toNat * 2 ^ 24 ≤ (first :: rest).length := by
  obtain ⟨-, start, behind, hform, hbytes⟩ := hbox
  generalize (first :: rest).length = length at hform ⊢
  cases hform with
  | @short size hsize _ hroom =>
    have hfirst : first = UInt8.ofNat (size / 256 / 256 / 256) := (List.cons.inj hbytes).1
    have hbyte : first.toNat = size / 256 / 256 / 256 := by
      rw [hfirst]
      exact UInt8.toNat_ofNat_of_lt' (show size / 256 / 256 / 256 < 256 by omega)
    omega
  | long =>
    have hfirst : first = 0 := (List.cons.inj hbytes).1
    rw [hfirst]
    exact Nat.zero_le length

end ContentProtection.Pssh
