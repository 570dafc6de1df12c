import ContentProtection.Proofs.ClearKey.Acquisition

/-!
# The key that is chosen

What a session makes of the entries of a key set. An entry without a key spoils the whole set. Otherwise the first entry that is usable for the key id of the session decides. An entry whose id cannot be decoded is usable like one without an id, so a license that names only other keys is refused unless it has such an entry.
-/

namespace ContentProtection.ClearKey

open Json (TextWritten)

/-! ### Entries of plain texts -/

/-- A key set that has nothing but these items. -/
def keySetOf (items : List Json.Value) : Json.Value := .object [(Utf8.encode "keys".toList, .array items)]

namespace KeyEntry

theorem allWrittenIn_keySetOf {entries : List KeyEntry} {items : List Json.Value}
    (hquotable : ∀ item ∈ items, item.Quotable) (htold : List.Forall₂ ToldBy entries items) :
    AllWrittenIn entries (keySetOf items).render := by
  have hkeys : TextWritten "keys".toList (Utf8.encode "keys".toList) := Json.textWritten_encode (by decide)
  have hitems : Json.QuotableItems items := by
    clear htold
    induction items with
    | nil => trivial
    | cons item items ih =>
      obtain ⟨hfirst, hrest⟩ := List.forall_mem_cons.mp hquotable
      exact ⟨hfirst, ih hrest⟩
  exact ⟨_, [("keys".toList, _)], _, Json.written_render ⟨hkeys.quotable, hitems, trivial⟩,
    ⟨_, rfl, .cons ⟨hkeys, rfl⟩ .nil⟩, ⟨[], [], rfl, by simp⟩, htold⟩

/-- Whether all texts of an entry can stand between quotes as they are. -/
def IsPlain (entry : KeyEntry) : Prop :=
  (entry.type ++ entry.value.getD [] ++ entry.keyId.getD []).all Json.isPlain = true

instance (entry : KeyEntry) : Decidable entry.IsPlain := inferInstanceAs (Decidable (_ = true))

def fields (entry : KeyEntry) : List (List Char × List Char) :=
  ("kty".toList, entry.type) ::
    (entry.value.toList.map (("k".toList, ·)) ++ entry.keyId.toList.map (("kid".toList, ·)))

/-- A key set that has nothing but these entries. -/
def keySet (entries : List KeyEntry) : Json.Value :=
  .object [(Utf8.encode "keys".toList, .array (entries.map fun entry => .ofTexts entry.fields))]

theorem quotable_fields {entry : KeyEntry} (hplain : entry.IsPlain) : (Json.Value.ofTexts entry.fields).Quotable := by
  obtain ⟨type, value, keyId⟩ := entry
  refine Json.Value.quotable_ofTexts ?_
  cases value <;> cases keyId <;> simp_all [IsPlain, fields] <;> decide

theorem toldBy_fields {entry : KeyEntry} (hplain : entry.IsPlain) : entry.ToldBy (.ofTexts entry.fields) := by
  obtain ⟨type, value, keyId⟩ := entry
  simp only [IsPlain, List.all_append, Bool.and_eq_true] at hplain
  obtain ⟨⟨htype, hvalue⟩, hkeyId⟩ := hplain
  refine ⟨_, _, Json.Value.hasMembers_ofTexts ?_, Json.textWritten_encode htype, ⟨[], _, rfl, ?_⟩, ?_, ?_⟩
  · cases value <;> cases keyId <;> rfl
  · cases value <;> cases keyId <;> simp
  · cases value with
    | none =>
      refine .missing ?_
      cases keyId <;> simp [Json.Members.Lack, fields]
    | some value =>
      refine .text (Json.textWritten_encode hvalue) ⟨[_], _, rfl, ?_⟩
      cases keyId <;> simp
  · cases keyId with
    | none =>
      refine .missing ?_
      cases value <;> simp [Json.Members.Lack, fields]
    | some keyId =>
      cases value with
      | none => exact .text (Json.textWritten_encode hkeyId) ⟨[_], _, rfl, by simp⟩
      | some value => exact .text (Json.textWritten_encode hkeyId) ⟨[_, _], _, rfl, by simp⟩

theorem allWrittenIn_keySet {entries : List KeyEntry} (hplain : ∀ entry ∈ entries, entry.IsPlain) :
    AllWrittenIn entries (keySet entries).render := by
  refine allWrittenIn_keySetOf (List.forall_mem_map.mpr fun entry hmem => quotable_fields (hplain entry hmem)) ?_
  rw [List.forall₂_map_right_iff, List.forall₂_same]
  exact fun entry hmem => toldBy_fields (hplain entry hmem)

end KeyEntry

/-! ### The first usable entry -/

namespace KeyEntry

def usable? (wanted : Option Uuid) (entry : KeyEntry) : Option ContentKey :=
  entry.webKey?.bind (WebKey.usable? wanted)

variable {entries : List KeyEntry} {license : Bytes}

/-- A key is chosen only if every entry has one. -/
theorem AllWrittenIn.select?_of_missing (hwritten : AllWrittenIn entries license) (wanted : Option Uuid)
    (hmissing : ∃ entry ∈ entries, entry.value = none) :
    (KeySet.parse? license).bind (·.select? wanted) = none := by
  rw [hwritten.parse?, mapM_webKey?_of_missing hmissing]
  rfl

theorem AllWrittenIn.select?_of_values (hwritten : AllWrittenIn entries license) (wanted : Option Uuid)
    (hvalues : ∀ entry ∈ entries, entry.value ≠ none) :
    (KeySet.parse? license).bind (·.select? wanted) = entries.findSome? (usable? wanted) := by
  rw [hwritten.parse?, mapM_webKey?_of_values hvalues, Option.map_some, Option.bind_some,
    KeySet.select?_eq_findSome?, ← List.head?_filterMap, List.filterMap_filterMap, List.head?_filterMap]
  rfl

/-! ### Licenses for other keys -/

/-- Whether the entry has a key for symmetric use and no id that can be decoded. -/
def HasUnidentified (entry : KeyEntry) (contentKey : ContentKey) : Prop :=
  entry.type = "oct".toList ∧ entry.keyId.bind decodeText? = none ∧ entry.value.bind decodeText? = some contentKey.bytes

/-- What is usable of an entry for other key ids is a key without an id. -/
theorem usable?_eq_some_iff {keyId : Uuid} {entry : KeyEntry} {contentKey : ContentKey}
    (hother : entry.type = "oct".toList → entry.keyId.bind decodeText? ≠ some keyId.bytes) :
    entry.usable? (some keyId) = some contentKey ↔ entry.HasUnidentified contentKey := by
  rw [usable?, webKey?, Option.bind_map, HasUnidentified]
  constructor
  · intro husable
    obtain ⟨value, hvalue, hkey⟩ := Option.bind_eq_some_iff.mp husable
    obtain ⟨htype, hserves, hdecoded⟩ := WebKey.usable?_eq_some_iff.mp hkey
    refine ⟨htype, (WebKey.serves_some_iff.mp hserves).resolve_right (hother htype), ?_⟩
    rwa [hvalue, Option.bind_some]
  · rintro ⟨htype, hid, hvalue⟩
    obtain ⟨value, hvalue, hdecoded⟩ := Option.bind_eq_some_iff.mp hvalue
    rw [hvalue, Option.bind_some]
    exact WebKey.usable?_eq_some_iff.mpr ⟨htype, WebKey.serves_some_iff.mpr (.inl hid), hdecoded⟩

end KeyEntry

/-- A license for other keys leaves the session in the error state with the key that it has. But a session takes the first key whose entry has no id that can be decoded. -/
theorem license_for_other_keys {session : Session} {license : LicenseData} {keyId : Uuid} {entries : List KeyEntry}
    (hkeyId : session.keyId = some keyId) (hwritten : KeyEntry.AllWrittenIn entries license.bytes)
    (hothers : ∀ entry ∈ entries, entry.type = "oct".toList → entry.keyId.bind decodeText? ≠ some keyId.bytes) :
    ((∃ entry ∈ entries, entry.value = none) ∨ (∀ entry ∈ entries, ∀ key, ¬entry.HasUnidentified key) →
      session.process (some license) =
        (.error (.status 6), { session with state := .error, stateChanged := session.stateChanged.signal })) ∧
    ∀ before entry after contentKey, entries = before ++ entry :: after → (∀ other ∈ entries, other.value ≠ none) →
      (∀ other ∈ before, ∀ key, ¬other.HasUnidentified key) → entry.HasUnidentified contentKey →
        session.process (some license) =
          (.ok (),
            { session with key := some contentKey, state := .ready, stateChanged := session.stateChanged.signal }) := by
  have hunusable : ∀ entry ∈ entries, (∀ key, ¬entry.HasUnidentified key) → entry.usable? session.keyId = none := by
    intro entry hmem hnone
    refine Option.eq_none_iff_forall_ne_some.mpr fun key husable => hnone key ?_
    rw [hkeyId] at husable
    exact (KeyEntry.usable?_eq_some_iff (hothers entry hmem)).mp husable
  constructor
  · intro hrefused
    refine Session.process_of_select?_eq_none ?_
    by_cases hmissing : ∃ entry ∈ entries, entry.value = none
    · exact hwritten.select?_of_missing _ hmissing
    · have hvalues : ∀ entry ∈ entries, entry.value ≠ none := fun entry hmem hnone => hmissing ⟨entry, hmem, hnone⟩
      rw [hwritten.select?_of_values _ hvalues, List.findSome?_eq_none_iff]
      exact fun entry hmem => hunusable entry hmem (hrefused.resolve_left hmissing entry hmem)
  · intro before entry after contentKey hentries hvalues hbefore hentry
    have hmem : entry ∈ entries := hentries ▸ List.mem_append_right _ List.mem_cons_self
    refine Session.process_of_select? ?_
    rw [hwritten.select?_of_values _ hvalues, List.findSome?_eq_some_iff]
    refine ⟨before, entry, after, hentries, ?_, fun other hother => ?_⟩
    · rw [hkeyId]
      exact (KeyEntry.usable?_eq_some_iff (hothers entry hmem)).mpr hentry
    · exact hunusable other (hentries ▸ List.mem_append_left _ hother) (hbefore other hother)

/-! ### Licenses with and without a readable id -/

def sessionOfStream : Session :=
  { Session.ofHelper helperOfStream {} with
    keyId := some keyIdOfStream, key := some ⟨List.replicate 16 7, rfl⟩, state := .ready }

def entryOfOther : KeyEntry := ⟨"oct".toList, some (Base64.text Uuid.zero.bytes), some (Base64.text Uuid.zero.bytes)⟩

def entryWithoutId : KeyEntry := ⟨"oct".toList, some (Base64.text keyOfStream.bytes), none⟩

/-- An entry with its id written as a name and not in base64. -/
def namedEntry : KeyEntry :=
  { entryWithoutId with keyId := some "urn:uuid:00000000-0000-0000-0000-000000000000".toList }

theorem license_for_other_keys_with_and_without_id :
    let refused : LicenseData := ⟨(KeyEntry.keySet [entryOfOther]).render⟩
    let taken : LicenseData := ⟨(KeyEntry.keySet [entryOfOther, entryWithoutId]).render⟩
    sessionOfStream.process (some refused) =
        (.error (.status 6), { sessionOfStream with state := .error, stateChanged := ⟨true⟩ }) ∧
      sessionOfStream.process (some taken) =
        (.ok (), { sessionOfStream with key := some keyOfStream, stateChanged := ⟨true⟩ }) := by
  intro refused taken
  have hkeyId : sessionOfStream.keyId = some keyIdOfStream := rfl
  have hrefused : KeyEntry.AllWrittenIn [entryOfOther] refused.bytes := KeyEntry.allWrittenIn_keySet (by decide)
  have htaken : KeyEntry.AllWrittenIn [entryOfOther, entryWithoutId] taken.bytes :=
    KeyEntry.allWrittenIn_keySet (by decide)
  have hidentified : ∀ other ∈ [entryOfOther], ∀ key, ¬other.HasUnidentified key :=
    List.forall_mem_singleton.mpr fun key hkey => absurd hkey.2.1 (by decide)
  constructor
  · exact (license_for_other_keys hkeyId hrefused (by decide)).1 (.inr hidentified)
  · exact (license_for_other_keys hkeyId htaken (by decide)).2 [entryOfOther] entryWithoutId [] keyOfStream rfl
      (by decide) hidentified ⟨rfl, rfl, by decide⟩

/-- Each key has an id, none of them is the id of the session, and one of them takes the place of the key of the session. -/
theorem license_for_other_keys_accepted :
    let entries := [entryOfOther, namedEntry]
    let outcome := sessionOfStream.process (some ⟨(KeyEntry.keySet entries).render⟩)
    sessionOfStream.keyId = some keyIdOfStream ∧ KeyEntry.AllWrittenIn entries (KeyEntry.keySet entries).render ∧
      (∀ entry ∈ entries, entry.type = "oct".toList → ∃ text, entry.keyId = some text) ∧
      (∀ entry ∈ entries, entry.keyId.bind decodeText? ≠ some keyIdOfStream.bytes) ∧
      outcome.1 = .ok () ∧ outcome.2.state = .ready ∧ outcome.2.key = some keyOfStream ∧
      sessionOfStream.key ≠ some keyOfStream := by
  intro entries outcome
  have hwritten : KeyEntry.AllWrittenIn entries (KeyEntry.keySet entries).render :=
    KeyEntry.allWrittenIn_keySet (by decide)
  have houtcome : outcome = (.ok (), { sessionOfStream with key := some keyOfStream, stateChanged := ⟨true⟩ }) := by
    refine Session.process_of_select? ?_
    rw [hwritten.select?_of_values _ (by decide)]
    decide
  rw [houtcome]
  refine ⟨rfl, hwritten, ?_, by decide, rfl, rfl, rfl, by decide⟩
  simp [entries, entryOfOther, namedEntry]

end ContentProtection.ClearKey
