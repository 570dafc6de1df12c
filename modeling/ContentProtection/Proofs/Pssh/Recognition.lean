import ContentProtection.Proofs.Pssh.Grammar
import ContentProtection.Proofs.Search
import ContentProtection.Proofs.Widevine

/-!
# What data is recognised as

A box comes before anything else, bare Widevine data before a PlayReady object. Reading is described by these two questions alone, so that what reading makes of data of some form follows from what the data is and from what it is not.
-/

namespace ContentProtection.Pssh

theorem parse_nil (strict : Bool) : parse strict [] = .error .empty := rfl

theorem parse_of_no_box {bytes : Bytes} (hsome : bytes ≠ []) (hbox : ofBox? bytes = none) (strict : Bool) :
    parse strict bytes =
      match recognise? bytes with
      | some system => .ok (wrap system bytes)
      | none => if strict then .error .unrecognised else .ok (wrap .widevine bytes) := by
  have hempty : ¬bytes.isEmpty = true := mt List.isEmpty_iff.mp hsome
  rw [parse, if_neg hempty, hbox]
  cases recognise? bytes with
  | some system => rfl
  | none => rfl

/-! ### The forms of data without a box -/

/-- Bare Widevine data in canonical form: writing it again gives the same bytes. -/
def IsWidevineData (bytes : Bytes) : Prop := ∃ data, Widevine.ProtectionData.decode bytes = .ok data ∧ data.encode = bytes

/-- Data with the end tag of a PlayReady header anywhere in it. -/
def HasHeaderEnd (bytes : Bytes) : Prop := ∃ before after, bytes = before ++ headerEndTag ++ after

/-- A header of version 0 that has no flags, lists no key ids and carries the bytes for the system. -/
structure CarriesBare (pssh : Pssh) (system : ProtectionSystem) (bytes : Bytes) : Prop where
  version : pssh.version = 0
  flags : pssh.flags = 0
  systemId : pssh.systemId = system.uuid
  listedKeyIds : pssh.listedKeyIds = []
  initData : pssh.initData = bytes

theorem carriesBare_iff {pssh : Pssh} {system : ProtectionSystem} {bytes : Bytes} :
    pssh.CarriesBare system bytes ↔ pssh = wrap system bytes := by
  constructor
  · rintro ⟨hversion, hflags, hsystemId, hkeyIds, hinitData⟩
    cases pssh
    simp only at hversion hflags hsystemId hkeyIds hinitData
    rw [hversion, hflags, hsystemId, hkeyIds, hinitData, wrap]
  · rintro rfl
    exact ⟨rfl, rfl, rfl, rfl, rfl⟩

variable {bytes : Bytes}

theorem recognise?_of_widevine (hdata : IsWidevineData bytes) : recognise? bytes = some .widevine :=
  if_pos (Widevine.ProtectionData.isCanonical_iff.mpr hdata)

theorem recognise?_of_playReady (hdata : ¬IsWidevineData bytes) (hend : HasHeaderEnd bytes) :
    recognise? bytes = some .playReady := by
  rw [recognise?, if_neg (mt Widevine.ProtectionData.isCanonical_iff.mp hdata), if_pos (Search.occurs_iff.mpr hend)]

theorem recognise?_of_neither (hdata : ¬IsWidevineData bytes) (hend : ¬HasHeaderEnd bytes) :
    recognise? bytes = none := by
  rw [recognise?, if_neg (mt Widevine.ProtectionData.isCanonical_iff.mp hdata),
    if_neg (mt Search.occurs_iff.mp hend)]

/-! ### Strict and lenient reading -/

/-- What strict reading makes of data that is not empty: the header of a box and, only when there is no box, a header around the data for Widevine or else for PlayReady. -/
inductive ReadStrictly (bytes : Bytes) (pssh : Pssh) : Prop
  | box (hbox : pssh.StartsWithBox bytes)
  | widevine (hbox : ∀ other : Pssh, ¬other.StartsWithBox bytes) (hdata : IsWidevineData bytes)
      (hcarries : pssh.CarriesBare .widevine bytes)
  | playReady (hbox : ∀ other : Pssh, ¬other.StartsWithBox bytes) (hdata : ¬IsWidevineData bytes)
      (hend : HasHeaderEnd bytes) (hcarries : pssh.CarriesBare .playReady bytes)

theorem parse_true_iff (hsome : bytes ≠ []) {pssh : Pssh} : parse true bytes = .ok pssh ↔ ReadStrictly bytes pssh := by
  cases hbox : ofBox? bytes with
  | some boxed =>
    have hform := ofBox?_eq_some_iff.mp hbox
    rw [parse_of_ofBox? hbox, Except.ok.injEq]
    constructor
    · rintro rfl
      exact .box hform
    · rintro (hother | ⟨hnone, -⟩ | ⟨hnone, -⟩)
      · exact Option.some.inj (hbox.symm.trans (ofBox?_eq_some_iff.mpr hother))
      · exact absurd hform (hnone boxed)
      · exact absurd hform (hnone boxed)
  | none =>
    have hform (other : Pssh) : ¬other.StartsWithBox bytes := fun hother => by
      rw [ofBox?_eq_some_iff.mpr hother] at hbox
      cases hbox
    rw [parse_of_no_box hsome hbox]
    by_cases hdata : IsWidevineData bytes
    · rw [recognise?_of_widevine hdata]
      constructor
      · rintro ⟨⟩
        exact .widevine hform hdata (carriesBare_iff.mpr rfl)
      · rintro (hother | ⟨-, -, hcarries⟩ | ⟨-, hnone, -, -⟩)
        · exact absurd hother (hform pssh)
        · rw [carriesBare_iff.mp hcarries]
        · exact absurd hdata hnone
    by_cases hend : HasHeaderEnd bytes
    · rw [recognise?_of_playReady hdata hend]
      constructor
      · rintro ⟨⟩
        exact .playReady hform hdata hend (carriesBare_iff.mpr rfl)
      · rintro (hother | ⟨-, hwidevine, -⟩ | ⟨-, -, -, hcarries⟩)
        · exact absurd hother (hform pssh)
        · exact absurd hwidevine hdata
        · rw [carriesBare_iff.mp hcarries]
    · rw [recognise?_of_neither hdata hend]
      refine ⟨nofun, ?_⟩
      rintro (hother | ⟨-, hwidevine, -⟩ | ⟨-, -, hplayReady, -⟩)
      · exact absurd hother (hform pssh)
      · exact absurd hwidevine hdata
      · exact absurd hplayReady hend

theorem exists_readStrictly_iff :
    (∃ pssh, ReadStrictly bytes pssh) ↔
      (∃ pssh : Pssh, pssh.StartsWithBox bytes) ∨ IsWidevineData bytes ∨ HasHeaderEnd bytes := by
  constructor
  · rintro ⟨pssh, hbox | ⟨-, hdata, -⟩ | ⟨-, -, hend, -⟩⟩
    · exact .inl ⟨pssh, hbox⟩
    · exact .inr (.inl hdata)
    · exact .inr (.inr hend)
  · intro hform
    by_cases hbox : ∃ pssh : Pssh, pssh.StartsWithBox bytes
    · exact hbox.imp fun _ => .box
    have hnone := not_exists.mp hbox
    by_cases hdata : IsWidevineData bytes
    · exact ⟨_, .widevine hnone hdata (carriesBare_iff.mpr rfl)⟩
    · exact ⟨_, .playReady hnone hdata ((hform.resolve_left hbox).resolve_left hdata) (carriesBare_iff.mpr rfl)⟩

/-- Lenient reading is strict reading where that succeeds, and takes all other data for Widevine's. -/
theorem parse_false_iff (hsome : bytes ≠ []) {pssh : Pssh} :
    parse false bytes = .ok pssh ↔
      parse true bytes = .ok pssh ∨ (∀ other, parse true bytes ≠ .ok other) ∧ pssh.CarriesBare .widevine bytes := by
  rw [carriesBare_iff]
  cases hbox : ofBox? bytes with
  | some boxed => simp [parse_of_ofBox? hbox]
  | none =>
    rw [parse_of_no_box hsome hbox, parse_of_no_box hsome hbox]
    cases recognise? bytes with
    | some system => simp
    | none => simp [eq_comm]

/-- Reading a box gives the header in it. Strict reading accepts boxes and data of the two known forms, and nothing else; lenient reading goes on to take whatever is left for Widevine's init data. -/
theorem accepted_exactly_in_known_forms (bytes : Bytes) :
    (∀ pssh, ofBox? bytes = some pssh ↔ pssh.StartsWithBox bytes) ∧
    (∀ strict, parse strict [] = .error .empty) ∧
    ((∃ pssh, parse true bytes = .ok pssh) ↔
      bytes ≠ [] ∧
        ((∃ pssh : Pssh, pssh.StartsWithBox bytes) ∨
          (∃ data, Widevine.ProtectionData.decode bytes = .ok data ∧ data.encode = bytes) ∨
          ∃ before after, bytes = before ++ headerEndTag ++ after)) ∧
    (∀ pssh, parse true bytes = .ok pssh ↔ bytes ≠ [] ∧ ReadStrictly bytes pssh) ∧
    ∀ pssh, parse false bytes = .ok pssh ↔
      parse true bytes = .ok pssh ∨
        bytes ≠ [] ∧ (∀ other, parse true bytes ≠ .ok other) ∧ pssh.CarriesBare .widevine bytes := by
  have hempty {pssh : Pssh} (strict : Bool) : parse strict [] ≠ .ok pssh := nofun
  refine ⟨fun pssh => ofBox?_eq_some_iff, parse_nil, ?_⟩
  by_cases hsome : bytes = []
  · subst hsome
    simp [hempty]
  refine ⟨?_, fun pssh => ?_, fun pssh => ?_⟩
  · simp only [parse_true_iff hsome]
    exact exists_readStrictly_iff.trans (and_iff_right hsome).symm
  · exact (parse_true_iff hsome).trans (and_iff_right hsome).symm
  · rw [parse_false_iff hsome, and_iff_right hsome]

/-- A byte that is nothing known is refused or taken for Widevine's init data. A Widevine key id and the end tag of a header are recognised. -/
theorem bare_data_read_for_their_systems :
    (∀ pssh, parse true [0xff] ≠ .ok pssh) ∧
    (∃ pssh, parse false [0xff] = .ok pssh ∧ pssh.version = 0 ∧ pssh.flags = 0 ∧
      pssh.systemId.toText = "edef8ba9-79d6-4ace-a3c8-27dcd51d21ed" ∧ pssh.listedKeyIds = [] ∧
      pssh.initData = [0xff]) ∧
    (∃ pssh, parse true [0x12, 0] = .ok pssh ∧ pssh.version = 0 ∧
      pssh.systemId.toText = "edef8ba9-79d6-4ace-a3c8-27dcd51d21ed" ∧ pssh.initData = [0x12, 0]) ∧
    ∃ pssh, parse true headerEndTag = .ok pssh ∧ pssh.version = 0 ∧
      pssh.systemId.toText = "9a04f079-9840-4286-ab92-e65be0885f95" ∧ pssh.initData = headerEndTag := by
  have hnoBox {bytes : Bytes} (hbox : ofBox? bytes = none) (pssh : Pssh) : ¬pssh.StartsWithBox bytes := fun hform => by
    rw [((accepted_exactly_in_known_forms bytes).1 pssh).mpr hform] at hbox
    cases hbox
  have hcanonical (bytes : Bytes) (hother : Widevine.ProtectionData.isCanonical bytes = false) :
      ¬IsWidevineData bytes := fun hdata =>
    Bool.false_ne_true (hother.symm.trans (Widevine.ProtectionData.isCanonical_iff.mpr hdata))
  have hrefused (pssh : Pssh) : parse true [0xff] ≠ .ok pssh := by
    intro hread
    rcases (((accepted_exactly_in_known_forms [0xff]).2.2.2.1 pssh).mp hread).2 with
      hbox | ⟨-, hdata, -⟩ | ⟨-, -, hend, -⟩
    · exact hnoBox (by decide) pssh hbox
    · exact hcanonical [0xff] (by decide +kernel) hdata
    · exact absurd (Search.occurs_iff.mpr hend) (by decide)
  refine ⟨hrefused, ⟨wrap .widevine [0xff], ?_, by decide +kernel⟩, ⟨wrap .widevine [0x12, 0], ?_, by decide +kernel⟩,
    ⟨wrap .playReady headerEndTag, ?_, by decide +kernel⟩⟩
  · exact ((accepted_exactly_in_known_forms _).2.2.2.2 _).mpr
      (.inr ⟨List.cons_ne_nil _ _, hrefused, carriesBare_iff.mpr rfl⟩)
  · exact ((accepted_exactly_in_known_forms _).2.2.2.1 _).mpr
      ⟨List.cons_ne_nil _ _, .widevine (hnoBox (by decide))
        (Widevine.ProtectionData.isCanonical_iff.mp (by decide +kernel)) (carriesBare_iff.mpr rfl)⟩
  · exact ((accepted_exactly_in_known_forms _).2.2.2.1 _).mpr
      ⟨by decide, .playReady (hnoBox (by decide)) (hcanonical _ (by decide +kernel)) ⟨[], [], by simp⟩
        (carriesBare_iff.mpr rfl)⟩

end ContentProtection.Pssh
