import ContentProtection.Proofs.ClearKey.Choice

/-!
# Keys of other types

Entries for anything but symmetric use never give a key, so it does not matter how many of them stand where in a key set, as long as each has a text where the key would be. A single one without it spoils the set, since all entries are read before any is chosen.
-/

namespace ContentProtection.ClearKey

/-! ### Entries between others -/

/-- All entries of a key set: its own in their order, with further ones anywhere between them. -/
inductive Inserted : (own further all : List KeyEntry) → Prop
  | nil : Inserted [] [] []
  | own {entry : KeyEntry} {own further all : List KeyEntry} (hrest : Inserted own further all) :
    Inserted (entry :: own) further (entry :: all)
  | further {entry : KeyEntry} {own further all : List KeyEntry} (hrest : Inserted own further all) :
    Inserted own (entry :: further) (entry :: all)

variable {own further all : List KeyEntry}

theorem Inserted.mem_iff (hinserted : Inserted own further all) {entry : KeyEntry} :
    entry ∈ all ↔ entry ∈ own ∨ entry ∈ further := by
  induction hinserted with
  | nil => simp
  | own _ ih => rw [List.mem_cons, List.mem_cons, ih, or_assoc]
  | further _ ih => rw [List.mem_cons, List.mem_cons, ih, or_left_comm]

theorem Inserted.findSome? {α : Type} {f : KeyEntry → Option α} (hinserted : Inserted own further all)
    (hnone : ∀ entry ∈ further, f entry = none) : all.findSome? f = own.findSome? f := by
  induction hinserted with
  | nil => rfl
  | own _ ih => rw [List.findSome?_cons, List.findSome?_cons, ih hnone]
  | further _ ih =>
    obtain ⟨hfirst, hrest⟩ := List.forall_mem_cons.mp hnone
    rw [List.findSome?_cons, hfirst]
    exact ih hrest

/-! ### The choice -/

theorem KeyEntry.usable?_of_other_type {entry : KeyEntry} (htype : entry.type ≠ "oct".toList) (wanted : Option Uuid) :
    entry.usable? wanted = none := by
  refine Option.eq_none_iff_forall_ne_some.mpr fun key husable => htype ?_
  rw [usable?, webKey?, Option.bind_map] at husable
  obtain ⟨value, -, hkey⟩ := Option.bind_eq_some_iff.mp husable
  exact (WebKey.usable?_eq_some_iff.mp hkey).1

/-- Two licenses with the same key for a session have the same outcome. -/
theorem Session.process_congr {session : Session} {license license' : LicenseData}
    (hselect : (KeySet.parse? license.bytes).bind (·.select? session.keyId) =
      (KeySet.parse? license'.bytes).bind (·.select? session.keyId)) :
    session.process (some license) = session.process (some license') := by
  rw [process, process]
  dsimp only [Option.bind_some]
  rw [hselect]

/-- Further keys of other types make no difference to a session if each of them has a text in place of the key. If one has none, the session refuses the license, whatever it would take from the key set alone. -/
theorem license_with_keys_of_other_types {session : Session} {license extended : LicenseData}
    (hwritten : KeyEntry.AllWrittenIn own license.bytes) (hextended : KeyEntry.AllWrittenIn all extended.bytes)
    (hinserted : Inserted own further all) (hothers : ∀ entry ∈ further, entry.type ≠ "oct".toList) :
    ((∀ entry ∈ further, entry.value ≠ none) → session.process (some extended) = session.process (some license)) ∧
    ((∃ entry ∈ further, entry.value = none) →
      session.process (some extended) =
        (.error (.status 6), { session with state := .error, stateChanged := session.stateChanged.signal })) := by
  constructor
  · intro hvalues
    refine Session.process_congr ?_
    by_cases hmissing : ∃ entry ∈ own, entry.value = none
    · obtain ⟨entry, hmem, hnone⟩ := hmissing
      rw [hwritten.select?_of_missing _ ⟨entry, hmem, hnone⟩,
        hextended.select?_of_missing _ ⟨entry, hinserted.mem_iff.mpr (.inl hmem), hnone⟩]
    · have hown : ∀ entry ∈ own, entry.value ≠ none := fun entry hmem hnone => hmissing ⟨entry, hmem, hnone⟩
      have hall : ∀ entry ∈ all, entry.value ≠ none := fun entry hmem =>
        (hinserted.mem_iff.mp hmem).elim (hown entry) (hvalues entry)
      rw [hextended.select?_of_values _ hall, hwritten.select?_of_values _ hown]
      exact hinserted.findSome? fun entry hmem => KeyEntry.usable?_of_other_type (hothers entry hmem) _
  · rintro ⟨entry, hmem, hnone⟩
    exact Session.process_of_select?_eq_none
      (hextended.select?_of_missing _ ⟨entry, hinserted.mem_iff.mpr (.inr hmem), hnone⟩)

/-! ### A public key in a license -/

/-- The members of a key for signatures, which has no secret part. -/
def fieldsOfPublic : List (List Char × List Char) :=
  [("kty".toList, "RSA".toList), ("n".toList, "AQAB".toList), ("e".toList, "AQAB".toList)]

def publicEntry : KeyEntry := ⟨"RSA".toList, none, none⟩

theorem publicEntry_toldBy : publicEntry.ToldBy (.ofTexts fieldsOfPublic) :=
  ⟨_, _, Json.Value.hasMembers_ofTexts (by decide), Json.textWritten_encode (by decide), ⟨[], _, rfl, by decide⟩,
    .missing (by simp [Json.Members.Lack, fieldsOfPublic]), .missing (by simp [Json.Members.Lack, fieldsOfPublic])⟩

/-- A license with nothing but keys that have these members. -/
def licenseOf (keys : List (List (List Char × List Char))) : LicenseData := ⟨(keySetOf (keys.map .ofTexts)).render⟩

theorem allWrittenIn_licenseOf {entries : List KeyEntry} {keys : List (List (List Char × List Char))}
    (hplain : ∀ fields ∈ keys, fields.all (fun field => field.1.all Json.isPlain && field.2.all Json.isPlain) = true)
    (htold : List.Forall₂ (fun entry fields => entry.ToldBy (.ofTexts fields)) entries keys) :
    KeyEntry.AllWrittenIn entries (licenseOf keys).bytes := by
  refine KeyEntry.allWrittenIn_keySetOf (List.forall_mem_map.mpr fun fields hmem => ?_) ?_
  · exact Json.Value.quotable_ofTexts (hplain fields hmem)
  · rwa [List.forall₂_map_right_iff]

/-- The key of a stream stands alone, behind a key of another type, and before a public key. -/
theorem license_with_keys_of_other_types_around_key :
    sessionOfStream.process (some (licenseOf [fieldsOfOther, fieldsOfStream])) =
        sessionOfStream.process (some (licenseOf [fieldsOfStream])) ∧
      sessionOfStream.process (some (licenseOf [fieldsOfStream, fieldsOfPublic])) =
        (.error (.status 6), { sessionOfStream with state := .error, stateChanged := ⟨true⟩ }) := by
  have halone := allWrittenIn_licenseOf (by decide) (.cons streamKey_toldBy.entry .nil)
  have hbehind := allWrittenIn_licenseOf (by decide) (.cons otherKey_toldBy.entry (.cons streamKey_toldBy.entry .nil))
  have hbefore := allWrittenIn_licenseOf (by decide) (.cons streamKey_toldBy.entry (.cons publicEntry_toldBy .nil))
  constructor
  · refine (license_with_keys_of_other_types halone hbehind (.further (.own .nil)) ?_).1 ?_
    · exact List.forall_mem_singleton.mpr (by decide)
    · exact List.forall_mem_singleton.mpr (Option.some_ne_none _)
  · refine (license_with_keys_of_other_types halone hbefore (.own (.further .nil)) ?_).2 ?_
    · exact List.forall_mem_singleton.mpr (by decide)
    · exact ⟨publicEntry, List.mem_singleton_self _, rfl⟩

/-- A license is taken, and with a public key behind its key it is refused. -/
theorem public_key_spoils_license :
    let alone := licenseOf [fieldsOfStream]
    let extended := licenseOf [fieldsOfStream, fieldsOfPublic]
    KeyEntry.AllWrittenIn [streamKey.entry] alone.bytes ∧
      KeyEntry.AllWrittenIn [streamKey.entry, publicEntry] extended.bytes ∧
      Inserted [streamKey.entry] [publicEntry] [streamKey.entry, publicEntry] ∧ publicEntry.type ≠ "oct".toList ∧
      (sessionOfStream.process (some alone)).1 = .ok () ∧
      (sessionOfStream.process (some alone)).2.state = .ready ∧
      (sessionOfStream.process (some extended)).1 = .error (.status 6) ∧
      (sessionOfStream.process (some extended)).2.state = .error := by
  intro alone extended
  have halone : KeyEntry.AllWrittenIn [streamKey.entry] alone.bytes :=
    allWrittenIn_licenseOf (by decide) (.cons streamKey_toldBy.entry .nil)
  have hextended : KeyEntry.AllWrittenIn [streamKey.entry, publicEntry] extended.bytes :=
    allWrittenIn_licenseOf (by decide) (.cons streamKey_toldBy.entry (.cons publicEntry_toldBy .nil))
  have htaken : (KeySet.parse? alone.bytes).bind (·.select? sessionOfStream.keyId) = some keyOfStream := by
    rw [halone.select?_of_values _ (List.forall_mem_singleton.mpr (Option.some_ne_none _))]
    decide
  have hspoiled : (KeySet.parse? extended.bytes).bind (·.select? sessionOfStream.keyId) = none :=
    hextended.select?_of_missing _ ⟨publicEntry, by simp, rfl⟩
  rw [Session.process_of_select? htaken, Session.process_of_select?_eq_none hspoiled]
  exact ⟨halone, hextended, .own (.further .nil), by decide, rfl, rfl, rfl, rfl⟩

end ContentProtection.ClearKey
