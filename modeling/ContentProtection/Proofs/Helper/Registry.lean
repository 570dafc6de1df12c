import ContentProtection.Helper.Registry
import ContentProtection.Proofs.Search
import ContentProtection.Proofs.Uuid
import Mathlib.Data.Bool.AllAny

/-!
# Helpers by system

A registry serves the systems that were registered, each with the factory that was registered for it last. A manifest may name the system in every form of its UUID, with the URN scheme in front or not, and among blanks.
-/

namespace ContentProtection.Helper.Registry

/-! ### Registrations -/

/-- The registrations of the known systems. -/
def knownSystems : List (Uuid × Factory) :=
  ProtectionSystem.all.map fun system => (system.uuid, ofInfo (Kind.ofSystem system))

/-- Registries with the registrations that led to them, in the order in which they were made. -/
inductive ObtainedBy : List (Uuid × Factory) → Registry → Prop
  | empty : ObtainedBy [] empty
  | standard : ObtainedBy knownSystems standard
  | register {registrations : List (Uuid × Factory)} {registry : Registry} (uuid : Uuid) (factory : Factory)
    (hobtained : ObtainedBy registrations registry) :
    ObtainedBy (registrations ++ [(uuid, factory)]) (registry.register uuid factory)

variable {registrations : List (Uuid × Factory)} {registry : Registry}

theorem ObtainedBy.entries_eq (hobtained : ObtainedBy registrations registry) :
    registry.entries = registrations.reverse := by
  induction hobtained with
  | empty | standard => rfl
  | register uuid factory hobtained ih => rw [Registry.register, ih, List.reverse_append]; rfl

theorem ObtainedBy.contains_iff (hobtained : ObtainedBy registrations registry) (uuid : Uuid) :
    registry.contains uuid = true ↔ uuid ∈ registrations.map Prod.fst := by
  rw [contains, hobtained.entries_eq, List.any_reverse, List.any_eq_true, List.mem_map]
  simp only [decide_eq_true_eq]

/-- The last registration for a UUID counts. -/
theorem ObtainedBy.find?_eq (hobtained : ObtainedBy registrations registry) (uuid : Uuid) :
    registry.find? uuid = ((registrations.filter fun registration => registration.1 = uuid).getLast?).map Prod.snd := by
  rw [find?, hobtained.entries_eq, ← List.head?_filter, List.filter_reverse, List.head?_reverse]

theorem ObtainedBy.isSome_find?_iff (hobtained : ObtainedBy registrations registry) (uuid : Uuid) :
    (registry.find? uuid).isSome = true ↔ uuid ∈ registrations.map Prod.fst := by
  rw [find?, hobtained.entries_eq, Option.isSome_map, List.find?_isSome, List.mem_map]
  simp only [List.mem_reverse, decide_eq_true_eq]

/-! ### Names of systems -/

/-- Whether a text names a system: its UUID in one of the forms, with the URN scheme in front or not, among blanks. -/
def Names (text : String) (uuid : Uuid) : Prop :=
  ∃ before front spelled after : List Char, text.toList = before ++ (front ++ spelled) ++ after ∧
    (∀ c ∈ before, Blank.isBlank c = true) ∧ (front = [] ∨ front = Uuid.scheme) ∧ uuid.SpelledBy spelled ∧
    ∀ c ∈ after, Blank.isBlank c = true

theorem readSystemUuid?_eq_some_iff {text : String} {uuid : Uuid} :
    readSystemUuid? text = some uuid ↔ Names text uuid := by
  rw [readSystemUuid?, bareText, Uuid.ofText?_eq_some_iff]
  constructor
  · intro hspelled
    obtain ⟨before, after, htext, hbefore, hafter⟩ := Blank.eq_append_trim text.toList
    cases hdrop : Search.dropMarker? Uuid.scheme (Blank.trim text.toList) with
    | none =>
      rw [hdrop] at hspelled
      exact ⟨before, [], _, after, htext, hbefore, .inl rfl, hspelled, hafter⟩
    | some rest =>
      rw [hdrop] at hspelled
      refine ⟨before, Uuid.scheme, rest, after, ?_, hbefore, .inr rfl, hspelled, hafter⟩
      rwa [Search.eq_append_of_dropMarker? hdrop] at htext
  · rintro ⟨before, front, spelled, after, htext, hbefore, hfront, hspelled, hafter⟩
    have hfrontBlank : ∀ c ∈ front, Blank.isBlank c = false := by
      rcases hfront with rfl | rfl <;> exact List.all_iff_forall_prop.mp (by decide)
    rw [htext, Blank.trim_append hbefore (List.forall_mem_append.mpr ⟨hfrontBlank, hspelled.not_blank⟩) hafter]
    rcases hfront with rfl | rfl
    · rw [List.nil_append]
      cases hdrop : Search.dropMarker? Uuid.scheme spelled with
      | none => exact hspelled
      | some rest => exact (Search.eq_append_of_dropMarker? hdrop ▸ hspelled).of_scheme
    · rwa [Search.dropMarker?_append]

/-! ### Streams -/

variable {info : ProtectionInfo} {uuid : Uuid}

theorem knows_of_names (hnames : Names info.systemUuid uuid) : registry.knows info = registry.contains uuid := by
  rw [knows, readSystemUuid?_eq_some_iff.mpr hnames, Option.any_some]

theorem helperFor?_of_names (hnames : Names info.systemUuid uuid) :
    registry.helperFor? info = (registry.find? uuid).map fun factory => factory info := by
  rw [helperFor?, readSystemUuid?_eq_some_iff.mpr hnames]
  show (registry.find? uuid).bind _ = _
  cases registry.find? uuid <;> rfl

/-- However a stream spells the UUID of its system, the registry knows the system and has a helper exactly when the UUID was registered, and the helper comes from the factory that was registered last. Only streams that spell a UUID are served. -/
theorem served_by_last_registration (hobtained : ObtainedBy registrations registry) (info : ProtectionInfo) :
    (∀ uuid, Names info.systemUuid uuid →
      (registry.knows info = true ↔ (registry.helperFor? info).isSome = true) ∧
      ((registry.helperFor? info).isSome = true ↔ uuid ∈ registrations.map Prod.fst) ∧
      registry.helperFor? info =
        ((registrations.filter fun registration => registration.1 = uuid).getLast?).map
          fun registration => registration.2 info) ∧
    (Uuid.ofText? (bareText info.systemUuid) = none → registry.knows info = false ∧ registry.helperFor? info = none) ∧
    (registry.knows info = true → ∃ uuid ∈ registrations.map Prod.fst, Names info.systemUuid uuid) := by
  refine ⟨fun uuid hnames => ?_, fun hrefused => ?_, fun hknows => ?_⟩
  · have hknows : registry.knows info = true ↔ uuid ∈ registrations.map Prod.fst := by
      rw [knows_of_names hnames, hobtained.contains_iff]
    have hhelper : (registry.helperFor? info).isSome = true ↔ uuid ∈ registrations.map Prod.fst := by
      rw [helperFor?_of_names hnames, Option.isSome_map, hobtained.isSome_find?_iff]
    refine ⟨hknows.trans hhelper.symm, hhelper, ?_⟩
    rw [helperFor?_of_names hnames, hobtained.find?_eq, Option.map_map]
    rfl
  · have hunread : readSystemUuid? info.systemUuid = none := hrefused
    rw [knows, helperFor?, hunread]
    exact ⟨rfl, rfl⟩
  · obtain ⟨uuid, hread, hcontains⟩ := (Option.any_eq_true _ _).mp hknows
    exact ⟨uuid, (hobtained.contains_iff uuid).mp hcontains, readSystemUuid?_eq_some_iff.mp hread⟩

/-- The factory for Widevine is replaced twice, and the UUID stands in braces behind the scheme, in letters of either case. -/
theorem served_by_last_registration_of_braced_uuid :
    let widevine := ProtectionSystem.widevine.uuid
    let first := ofInfo (Kind.ofSystem .clearKey)
    let last := ofInfo (Kind.ofSystem .playReady)
    let registry := (standard.register widevine first).register widevine last
    let info : ProtectionInfo := { systemUuid := " urn:uuid:\x7bEDEF8BA9-79d6-4ACE-a3c8-27dcd51d21ed\x7d\t" }
    let other : ProtectionInfo := { systemUuid := "urn:uuid: EDEF8BA979d64ACEa3c827dcd51d21ed" }
    registry.knows info = true ∧ registry.helperFor? info = some (last info) ∧ registry.helperFor? other = none := by
  intro widevine first last registry info other
  have hobtained : ObtainedBy (knownSystems ++ [(widevine, first)] ++ [(widevine, last)]) registry :=
    .register _ _ (.register _ _ .standard)
  have hnames : Names info.systemUuid widevine :=
    ⟨" ".toList, Uuid.scheme, "\x7bEDEF8BA9-79d6-4ACE-a3c8-27dcd51d21ed\x7d".toList, "\t".toList, by decide,
      List.all_iff_forall_prop.mp (by decide), .inr rfl, ⟨.braced, by decide⟩, List.all_iff_forall_prop.mp (by decide)⟩
  obtain ⟨hknows, hregistered, hhelper⟩ := (served_by_last_registration hobtained info).1 widevine hnames
  have hsome := hregistered.mpr (by decide)
  exact ⟨hknows.mpr hsome, hhelper, ((served_by_last_registration hobtained other).2.1 (by decide)).2⟩

end ContentProtection.Helper.Registry
