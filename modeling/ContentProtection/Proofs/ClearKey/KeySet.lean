import ContentProtection.ClearKey.KeySet
import ContentProtection.Proofs.Json.Reading
import ContentProtection.Proofs.Json.Record
import ContentProtection.Proofs.Text.Base64
import ContentProtection.Proofs.Text.Blank
import Mathlib.Data.List.TakeWhile

/-!
# Key sets are understood

A JSON Web Key set, however it is written and whatever else it tells of its keys, is read as these keys in their order, but nothing is read of a set in which an entry has no key. When each key for symmetric use has an id in base64, the choice for a key id passes over all keys of other types and for other key ids, and takes the first one that is left.
-/

namespace ContentProtection.ClearKey

open Json (Members TextWritten)

/-! ### Written key sets -/

/-- What the members of a key say about its id, which may be missing. -/
inductive KeyIdTold (members : Members) : Option (List Char) → Prop
  | missing (hlack : members.Lack "kid".toList) : KeyIdTold members none
  | null (hhold : members.Hold "kid".toList .null) : KeyIdTold members none
  | text {keyId : List Char} {written : Bytes} (hwritten : TextWritten keyId written)
    (hhold : members.Hold "kid".toList (.string written)) : KeyIdTold members (some keyId)

/-- An object that describes a key. -/
def WebKey.ToldBy (key : WebKey) (json : Json.Value) : Prop :=
  ∃ members type value, json.HasMembers members ∧
    TextWritten key.type type ∧ members.Hold "kty".toList (.string type) ∧
    TextWritten key.value value ∧ members.Hold "k".toList (.string value) ∧ KeyIdTold members key.keyId

/-- A text that is a key set written in JSON. -/
def KeySet.WrittenIn (set : KeySet) (license : Bytes) : Prop :=
  ∃ (json : Json.Value) (members : Members) (items : List Json.Value), json.Written license ∧ json.HasMembers members ∧
    members.Hold "keys".toList (.array items) ∧ List.Forall₂ WebKey.ToldBy set.keys items

theorem KeyIdTold.optionalText? {members : Members} {keyId : Option (List Char)} (htold : KeyIdTold members keyId) :
    (Json.field? members "kid".toList).bind Json.optionalText? = some keyId := by
  cases htold with
  | missing hlack =>
    rw [hlack.field?]
    rfl
  | null hhold =>
    rw [hhold.field?]
    rfl
  | @text keyId written hwritten hhold =>
    rw [hhold.field?]
    show (Json.decode? written).map some = some (some keyId)
    rw [hwritten.decode?]
    rfl

/-! ### Entries -/

/-- An entry of a key set, which may come without a key. -/
structure KeyEntry where
  type : List Char
  value : Option (List Char)
  keyId : Option (List Char)

/-- What the members of an entry say about its key. -/
inductive KeyTold (members : Members) : Option (List Char) → Prop
  | missing (hlack : members.Lack "k".toList) : KeyTold members none
  | noText {value : Json.Value} (hvalue : value.text? = none) (hhold : members.Hold "k".toList value) :
    KeyTold members none
  | text {key : List Char} {written : Bytes} (hwritten : TextWritten key written)
    (hhold : members.Hold "k".toList (.string written)) : KeyTold members (some key)

namespace KeyEntry

/-- An object that describes an entry. -/
def ToldBy (entry : KeyEntry) (json : Json.Value) : Prop :=
  ∃ members type, json.HasMembers members ∧ TextWritten entry.type type ∧
    members.Hold "kty".toList (.string type) ∧ KeyTold members entry.value ∧ KeyIdTold members entry.keyId

/-- A text that is a key set with these entries, written in JSON. -/
def AllWrittenIn (entries : List KeyEntry) (license : Bytes) : Prop :=
  ∃ (json : Json.Value) (members : Members) (items : List Json.Value), json.Written license ∧ json.HasMembers members ∧
    members.Hold "keys".toList (.array items) ∧ List.Forall₂ ToldBy entries items

def webKey? (entry : KeyEntry) : Option WebKey :=
  entry.value.map fun value => ⟨entry.type, value, entry.keyId⟩

end KeyEntry

theorem KeyTold.text? {members : Members} {value : Option (List Char)} (htold : KeyTold members value) :
    ∃ field, Json.field? members "k".toList = some field ∧ field.bind Json.Value.text? = value := by
  cases htold with
  | missing hlack => exact ⟨none, hlack.field?, rfl⟩
  | noText hvalue hhold => exact ⟨some _, hhold.field?, hvalue⟩
  | text hwritten hhold => exact ⟨some _, hhold.field?, hwritten.decode?⟩

theorem KeyEntry.ToldBy.ofJson? {entry : KeyEntry} {json : Json.Value} (htold : entry.ToldBy json) :
    WebKey.ofJson? json = entry.webKey? := by
  obtain ⟨members, type, hjson, htype, hholdType, hvalue, hkeyId⟩ := htold
  obtain ⟨keyField, hkeyField, htext⟩ := hvalue.text?
  obtain ⟨idField, hidField, hid⟩ := Option.bind_eq_some_iff.mp hkeyId.optionalText?
  have hfields : json.fields? ["kty".toList, "k".toList, "kid".toList] =
      some [some (.string type), keyField, idField] := by
    rw [hjson.fields?, List.mapM_cons, List.mapM_cons, List.mapM_cons, hholdType.field?, hkeyField, hidField]
    rfl
  rw [WebKey.ofJson?, hfields, webKey?, ← htext]
  cases keyField with
  | none => rfl
  | some value =>
    show (Json.decode? type).bind (fun type => value.text?.bind fun value =>
      (Json.optionalText? idField).bind fun keyId => some (WebKey.mk type value keyId)) =
        value.text?.map fun value => WebKey.mk entry.type value entry.keyId
    rw [htype.decode?, hid]
    cases value.text? <;> rfl

theorem KeyEntry.AllWrittenIn.parse? {entries : List KeyEntry} {license : Bytes}
    (hwritten : AllWrittenIn entries license) :
    KeySet.parse? license = (entries.mapM webKey?).map KeySet.mk := by
  obtain ⟨json, members, items, hjson, hmembers, hkeys, htold⟩ := hwritten
  have hitems : items.mapM WebKey.ofJson? = entries.mapM webKey? := by
    clear hkeys
    induction htold with
    | nil => rfl
    | cons hfirst _ ih => rw [List.mapM_cons, List.mapM_cons, hfirst.ofJson?, ih]
  have hfields : json.fields? ["keys".toList] = some [some (.array items)] := by
    rw [hmembers.fields?, List.mapM_cons, hkeys.field?]
    rfl
  rw [KeySet.parse?, Json.parse?_written hjson, Option.bind_some, KeySet.ofJson?, hfields, ← hitems]
  rfl

namespace KeyEntry

variable {entries : List KeyEntry}

theorem mapM_webKey?_of_missing (hmissing : ∃ entry ∈ entries, entry.value = none) : entries.mapM webKey? = none := by
  induction entries with
  | nil => simp at hmissing
  | cons first rest ih =>
    rw [List.mapM_cons]
    rcases (List.exists_mem_cons_iff _ _ _).mp hmissing with hfirst | hrest
    · rw [webKey?, hfirst]
      rfl
    · rw [ih hrest]
      cases first.webKey? <;> rfl

theorem mapM_webKey?_of_values (hvalues : ∀ entry ∈ entries, entry.value ≠ none) :
    entries.mapM webKey? = some (entries.filterMap webKey?) := by
  induction entries with
  | nil => rfl
  | cons first rest ih =>
    obtain ⟨hfirst, hrest⟩ := List.forall_mem_cons.mp hvalues
    obtain ⟨value, hvalue⟩ := Option.ne_none_iff_exists'.mp hfirst
    obtain ⟨key, hkey⟩ : ∃ key, first.webKey? = some key := ⟨_, congrArg (Option.map _) hvalue⟩
    rw [List.mapM_cons, hkey, ih hrest, List.filterMap_cons_some hkey]
    rfl

end KeyEntry

/-! ### Sets of keys -/

/-- The entry for a key. -/
def WebKey.entry (key : WebKey) : KeyEntry := ⟨key.type, some key.value, key.keyId⟩

theorem WebKey.ToldBy.entry {key : WebKey} {json : Json.Value} (htold : key.ToldBy json) : key.entry.ToldBy json := by
  obtain ⟨members, type, value, hjson, htype, hholdType, hvalue, hholdValue, hkeyId⟩ := htold
  exact ⟨members, type, hjson, htype, hholdType, .text hvalue hholdValue, hkeyId⟩

theorem KeySet.WrittenIn.allWrittenIn {set : KeySet} {license : Bytes} (hwritten : set.WrittenIn license) :
    KeyEntry.AllWrittenIn (set.keys.map WebKey.entry) license := by
  obtain ⟨json, members, items, hjson, hmembers, hkeys, htold⟩ := hwritten
  refine ⟨json, members, items, hjson, hmembers, hkeys, ?_⟩
  rw [List.forall₂_map_left_iff]
  exact htold.imp fun _ _ => WebKey.ToldBy.entry

theorem KeySet.WrittenIn.parse? {set : KeySet} {license : Bytes} (hwritten : set.WrittenIn license) :
    KeySet.parse? license = some set := by
  have hvalues : ∀ entry ∈ set.keys.map WebKey.entry, entry.value ≠ none :=
    List.forall_mem_map.mpr fun key _ => Option.some_ne_none key.value
  have hkeys : (set.keys.map WebKey.entry).filterMap KeyEntry.webKey? = set.keys := by
    rw [List.filterMap_map]
    exact List.filterMap_some
  rw [hwritten.allWrittenIn.parse?, KeyEntry.mapM_webKey?_of_values hvalues, hkeys]
  rfl

/-! ### Base64 in texts -/

/-- A text that is base64 in the URL-safe alphabet, with padding or without. -/
def Spells (text : List Char) (bytes : Bytes) : Prop :=
  ∃ pads, text = Base64.text bytes ++ List.replicate pads '='

theorem dropPadding_append {text : List Char} (htext : ∀ c ∈ text, c ≠ '=') (pads : Nat) :
    dropPadding (text ++ List.replicate pads '=') = text := by
  have hpads : ∀ c ∈ (List.replicate pads '=').reverse, decide (c = '=') = true := by
    intro c hmem
    exact decide_eq_true (List.eq_of_mem_replicate (List.mem_reverse.mp hmem))
  have hreverse : text.reverse.dropWhile (· = '=') = text.reverse :=
    List.dropWhile_eq_self_iff.mpr fun hlength => by
      rw [decide_eq_true_eq]
      exact htext _ (List.mem_reverse.mp (List.getElem_mem hlength))
  rw [dropPadding, List.reverse_append, List.dropWhile_append_of_pos hpads, hreverse, List.reverse_reverse]

theorem Spells.decodeText? {text : List Char} {bytes : Bytes} (hspells : Spells text bytes) :
    ClearKey.decodeText? text = some bytes := by
  obtain ⟨pads, rfl⟩ := hspells
  have hplain := Base64.text_plain bytes
  have htrim : Blank.trim (Base64.text bytes ++ List.replicate pads '=') =
      Base64.text bytes ++ List.replicate pads '=' := by
    refine Blank.trim_eq_self fun c hmem => ?_
    rcases List.mem_append.mp hmem with hsymbol | hpad
    · exact (hplain c hsymbol).1
    · rw [List.eq_of_mem_replicate hpad]
      rfl
  rw [ClearKey.decodeText?]
  simp only [htrim, dropPadding_append fun c hmem => (hplain c hmem).2, Base64.encode_text,
    Base64.decode_encode Base64.isLawful_urlSafe]

/-! ### The choice -/

theorem ContentKey.ofBytes?_eq_some_iff {bytes : Bytes} {contentKey : ContentKey} :
    ofBytes? bytes = some contentKey ↔ bytes = contentKey.bytes := by
  rw [ofBytes?]
  constructor
  · intro hsome
    split at hsome
    · exact congrArg ContentKey.bytes (Option.some.inj hsome)
    · cases hsome
  · rintro rfl
    exact dif_pos contentKey.length_eq

theorem WebKey.contentKey?_eq_some_iff {key : WebKey} {contentKey : ContentKey} :
    key.contentKey? = some contentKey ↔ ClearKey.decodeText? key.value = some contentKey.bytes := by
  simp only [contentKey?, Option.bind_eq_some_iff, ContentKey.ofBytes?_eq_some_iff, exists_eq_right]

theorem WebKey.serves_some_iff {key : WebKey} {keyId : Uuid} :
    key.serves (some keyId) = true ↔
      key.keyId.bind ClearKey.decodeText? = none ∨ key.keyId.bind ClearKey.decodeText? = some keyId.bytes := by
  unfold serves
  cases key.keyId.bind ClearKey.decodeText? with
  | none => simp
  | some bytes => simp

/-- What a key gives for a key id, if it is usable. -/
def WebKey.usable? (wanted : Option Uuid) (key : WebKey) : Option ContentKey :=
  if key.isOctets && key.serves wanted then key.contentKey? else none

theorem WebKey.usable?_eq_some_iff {key : WebKey} {wanted : Option Uuid} {contentKey : ContentKey} :
    key.usable? wanted = some contentKey ↔
      key.type = "oct".toList ∧ key.serves wanted = true ∧
        ClearKey.decodeText? key.value = some contentKey.bytes := by
  rw [usable?, Option.ite_none_right_eq_some, Bool.and_eq_true, isOctets, decide_eq_true_iff, contentKey?_eq_some_iff,
    and_assoc]

theorem KeySet.select?_eq_findSome? (set : KeySet) (wanted : Option Uuid) :
    set.select? wanted = set.keys.findSome? (WebKey.usable? wanted) := by
  rw [select?, ← List.head?_filterMap, List.filterMap_filter, List.head?_filterMap]
  rfl

/-! ### Keys with ids -/

/-- A key for symmetric use whose own id is the key id. -/
def WebKey.IsFor (key : WebKey) (keyId : Uuid) : Prop :=
  key.type = "oct".toList ∧ ∃ text, key.keyId = some text ∧ Spells text keyId.bytes

/-- Whether every key for symmetric use has an id in base64. -/
def KeySet.Identified (set : KeySet) : Prop :=
  ∀ key ∈ set.keys, key.type = "oct".toList → ∃ text bytes, key.keyId = some text ∧ Spells text bytes

/-- Whether the first key for a key id is this one. -/
def KeySet.Offers (set : KeySet) (keyId : Uuid) (contentKey : ContentKey) : Prop :=
  ∃ before chosen after, set.keys = before ++ chosen :: after ∧ (∀ key ∈ before, ¬key.IsFor keyId) ∧
    chosen.IsFor keyId ∧ Spells chosen.value contentKey.bytes

/-- With an id in base64, a key is usable for the key id that is its own and for no other. -/
theorem WebKey.isFor_of_usable {key : WebKey} {keyId : Uuid} {contentKey : ContentKey}
    (hid : key.type = "oct".toList → ∃ text bytes, key.keyId = some text ∧ Spells text bytes)
    (husable : key.usable? keyId = some contentKey) : key.IsFor keyId := by
  obtain ⟨htype, hserves, -⟩ := usable?_eq_some_iff.mp husable
  obtain ⟨text, bytes, hkeyId, hspells⟩ := hid htype
  have hdecoded := serves_some_iff.mp hserves
  rw [hkeyId, Option.bind_some, hspells.decodeText?] at hdecoded
  have hbytes : bytes = keyId.bytes := Option.some.inj (hdecoded.resolve_left (Option.some_ne_none bytes))
  exact ⟨htype, text, hkeyId, hbytes ▸ hspells⟩

theorem WebKey.IsFor.usable? {key : WebKey} {keyId : Uuid} {contentKey : ContentKey} (hfor : key.IsFor keyId)
    (hvalue : Spells key.value contentKey.bytes) : key.usable? keyId = some contentKey := by
  obtain ⟨htype, text, hkeyId, hspells⟩ := hfor
  refine usable?_eq_some_iff.mpr ⟨htype, serves_some_iff.mpr (.inr ?_), hvalue.decodeText?⟩
  rw [hkeyId, Option.bind_some, hspells.decodeText?]

theorem KeySet.Offers.select? {set : KeySet} {keyId : Uuid} {contentKey : ContentKey}
    (hoffers : set.Offers keyId contentKey) (hidentified : set.Identified) :
    set.select? keyId = some contentKey := by
  obtain ⟨before, chosen, after, hkeys, hbefore, hchosen, hvalue⟩ := hoffers
  rw [select?_eq_findSome?, List.findSome?_eq_some_iff]
  refine ⟨before, chosen, after, hkeys, hchosen.usable? hvalue, fun key hmem => ?_⟩
  refine Option.eq_none_iff_forall_ne_some.mpr fun other husable => hbefore key hmem ?_
  exact WebKey.isFor_of_usable (hidentified key (hkeys ▸ List.mem_append_left _ hmem)) husable

end ContentProtection.ClearKey
