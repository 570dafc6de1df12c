import ContentProtection.Proofs.ClearKey.Choice
import Mathlib.Data.Bool.AllAny

/-!
# Spellings of bytes

The texts of a key set may come in either alphabet of base64. The URL-safe alphabet is understood with padding and without, and so is every text that has none of the two symbols in which the alphabets differ. With one of these symbols, a text in the standard alphabet is understood only where no padding is missing.
-/

namespace ContentProtection.ClearKey

open Base64 (Format standard urlSafe missing sextets)

variable {bytes : Bytes} {padded : Bool}

/-! ### Blanks around a text -/

theorem decodeText?_among_blanks {before text after : List Char} (hbefore : ∀ c ∈ before, Blank.isBlank c = true)
    (htext : ∀ c ∈ text, Blank.isBlank c = false) (hafter : ∀ c ∈ after, Blank.isBlank c = true) :
    decodeText? (before ++ text ++ after) = decodeText? text := by
  rw [decodeText?, decodeText?, Blank.trim_append hbefore htext hafter, Blank.trim_eq_self htext]

theorem not_blank_text {format : Format} (hformat : ∀ value < 64, Blank.isBlank (format.character value) = false) :
    ∀ c ∈ (format.withPadding padded).text bytes, Blank.isBlank c = false := by
  rw [Base64.text_withPadding, List.forall_mem_append]
  constructor
  · exact List.forall_mem_map.mpr fun value hmem => hformat value (Base64.sextets_lt bytes value hmem)
  · intro c hmem
    rw [List.eq_of_mem_replicate hmem]
    rfl

/-! ### What the alphabets share -/

theorem spells_urlSafe : Spells ((urlSafe.withPadding padded).text bytes) bytes := by
  have hbare : Base64.text bytes = (sextets bytes).map urlSafe.character := Base64.text_withoutPadding urlSafe bytes
  exact ⟨if padded then missing bytes else 0, by rw [Base64.text_withPadding, hbare]⟩

/-- Below 62 the alphabets agree. -/
theorem spells_standard (hshared : ∀ value ∈ sextets bytes, value < 62) :
    Spells ((standard.withPadding padded).text bytes) bytes := by
  have hcharacter : ∀ value < 62, standard.character value = urlSafe.character value := by decide
  rw [Base64.text_withPadding, List.map_congr_left fun value hmem => hcharacter value (hshared value hmem),
    ← Base64.text_withPadding]
  exact spells_urlSafe

/-! ### Symbols of the standard alphabet -/

/-- Whether one of the two symbols of the standard alphabet that the URL-safe alphabet lacks stands for the bytes. -/
def HasOwnSymbol (bytes : Bytes) : Prop := ∃ value ∈ sextets bytes, 62 ≤ value

theorem mem_text_iff :
    '+' ∈ (standard.withPadding padded).text bytes ∨ '/' ∈ (standard.withPadding padded).text bytes ↔
      HasOwnSymbol bytes := by
  have hcharacter : ∀ value < 64, standard.character value = '+' ∨ standard.character value = '/' ↔ 62 ≤ value := by
    decide
  have hnoPad {c : Char} (hc : c ≠ '=') : c ∈ (standard.withPadding padded).text bytes ↔
      ∃ value ∈ sextets bytes, standard.character value = c := by
    rw [Base64.text_withPadding, List.mem_append, List.mem_map]
    exact or_iff_left fun hmem => hc (List.eq_of_mem_replicate hmem)
  rw [hnoPad (by decide), hnoPad (by decide), ← exists_or, HasOwnSymbol]
  refine exists_congr fun value => ?_
  rw [← and_or_left]
  exact and_congr_right fun hmem => hcharacter value (Base64.sextets_lt bytes value hmem)

theorem decode_urlSafe_ne_ok (hown : HasOwnSymbol bytes) (other : Bytes) :
    Base64.decode urlSafe (Base64.encode (standard.withPadding false) bytes) ≠ .ok other := by
  intro hdecode
  obtain ⟨value, hmem, hlarge⟩ := hown
  have hunknown : ∀ value < 64, 62 ≤ value →
      ¬(standard.symbol value = Base64.pad ∨ (urlSafe.value? (standard.symbol value)).isSome = true) := by decide
  refine hunknown value (Base64.sextets_lt bytes value hmem) hlarge ((Base64.admits_of_decode hdecode).known _ ?_)
  rw [Base64.encode_eq_map]
  exact List.mem_append_left _ (List.mem_map_of_mem hmem)

/-- Without the padding that is due, the standard alphabet is refused. -/
theorem decode_standard : (Base64.decode standard (Base64.encode (standard.withPadding padded) bytes)).toOption =
    if padded = false ∧ missing bytes ≠ 0 then none else some bytes := by
  have hlength := Base64.length_encode (standard.withPadding padded) bytes
  split
  · rename_i hlack
    obtain ⟨rfl, hmissing⟩ := hlack
    cases hdecode : Base64.decode standard (Base64.encode (standard.withPadding false) bytes) with
    | error fault => rfl
    | ok other =>
      have hwhole := (Base64.admits_of_decode hdecode).whole rfl
      have hsextets := Base64.length_sextets bytes
      have hfew := Base64.missing_le bytes
      have hbare : (standard.withPadding false).padCount bytes = 0 := rfl
      omega
  · rename_i hdue
    have hsame : Base64.encode (standard.withPadding padded) bytes = Base64.encode standard bytes := by
      cases padded with
      | true => rfl
      | false =>
        have hmissing : missing bytes = 0 := by simpa using hdue
        have hnone : standard.padCount bytes = 0 := hmissing
        rw [Base64.encode_eq_map, Base64.encode_eq_map standard, hnone]
        rfl
    rw [hsame, Base64.decode_encode Base64.isLawful_standard]
    rfl

theorem dropPadding_text {format : Format} (hformat : ∀ value < 64, format.character value ≠ '=') :
    dropPadding ((format.withPadding padded).text bytes) = (format.withPadding false).text bytes := by
  rw [Base64.text_withPadding, Base64.text_withoutPadding]
  exact dropPadding_append
    (List.forall_mem_map.mpr fun value hmem => hformat value (Base64.sextets_lt bytes value hmem)) _

theorem decodeText?_of_ownSymbol (hown : HasOwnSymbol bytes) :
    decodeText? ((standard.withPadding padded).text bytes) =
      if padded = false ∧ missing bytes ≠ 0 then none else some bytes := by
  have hencode (padded : Bool) : Utf8.encode ((standard.withPadding padded).text bytes) =
      Base64.encode (standard.withPadding padded) bytes :=
    Base64.encode_formatText (Base64.forall_mem_encode
      (show ∀ value < 64, standard.symbol value < 128 by decide) (fun _ => by decide) bytes)
  rw [decodeText?, Blank.trim_eq_self (not_blank_text (by decide)), dropPadding_text (by decide), hencode, hencode]
  cases hdecode : Base64.decode urlSafe (Base64.encode (standard.withPadding false) bytes) with
  | ok other => exact absurd hdecode (decode_urlSafe_ne_ok hown other)
  | error fault => exact decode_standard

/-! ### Every spelling -/

/-- Among any blanks, bytes come back from both alphabets, with padding and without. Only the standard alphabet without the padding that is due is refused, and only for a text with a symbol that the URL-safe alphabet lacks. -/
theorem decodeText?_of_spelling (bytes : Bytes) (padded : Bool) {before after : List Char}
    (hbefore : ∀ c ∈ before, Blank.isBlank c = true) (hafter : ∀ c ∈ after, Blank.isBlank c = true) :
    decodeText? (before ++ (urlSafe.withPadding padded).text bytes ++ after) = some bytes ∧
    decodeText? (before ++ (standard.withPadding padded).text bytes ++ after) =
      if padded = false ∧ bytes.length % 3 ≠ 0 ∧
          ('+' ∈ (standard.withPadding padded).text bytes ∨ '/' ∈ (standard.withPadding padded).text bytes)
        then none
        else some bytes := by
  rw [decodeText?_among_blanks hbefore (not_blank_text (by decide)) hafter,
    decodeText?_among_blanks hbefore (not_blank_text (by decide)) hafter]
  refine ⟨spells_urlSafe.decodeText?, ?_⟩
  by_cases hown : HasOwnSymbol bytes
  · rw [decodeText?_of_ownSymbol hown]
    simp only [mem_text_iff, hown, and_true, ne_eq, Base64.missing_eq_zero_iff]
  · have hshared : ∀ value ∈ sextets bytes, value < 62 := fun value hmem =>
      Nat.lt_of_not_le fun hlarge => hown ⟨value, hmem, hlarge⟩
    rw [if_neg fun hlost => hown (mem_text_iff.mp hlost.2.2)]
    exact (spells_standard hshared).decodeText?

/-- Two bytes whose symbols differ in the alphabets. -/
theorem decodeText?_of_spelling_of_two_bytes :
    let bytes : Bytes := [0xfb, 0xff]
    decodeText? " -_8=\n".toList = some bytes ∧ decodeText? " -_8\n".toList = some bytes ∧
      decodeText? " +/8=\n".toList = some bytes ∧ decodeText? " +/8\n".toList = none := by
  intro bytes
  have hblank : ∀ c ∈ " ".toList, Blank.isBlank c = true := List.all_iff_forall_prop.mp (by decide)
  have hbreak : ∀ c ∈ "\n".toList, Blank.isBlank c = true := List.all_iff_forall_prop.mp (by decide)
  have hwith := decodeText?_of_spelling bytes true hblank hbreak
  have hwithout := decodeText?_of_spelling bytes false hblank hbreak
  exact ⟨hwith.1, hwithout.1, hwith.2, hwithout.2⟩

/-- A license that has the right key in the standard alphabet without padding is refused. -/
theorem unpadded_standard_key_refused :
    let key : ContentKey := ⟨List.replicate 16 0xff, rfl⟩
    let text := (standard.withPadding false).text key.bytes
    let entry : KeyEntry := ⟨"oct".toList, some text, some (Base64.text keyIdOfStream.bytes)⟩
    let license : LicenseData := ⟨(KeyEntry.keySet [entry]).render⟩
    decodeText? text = none ∧ decodeText? ((standard.withPadding true).text key.bytes) = some key.bytes ∧
      KeyEntry.AllWrittenIn [entry] license.bytes ∧ sessionOfStream.keyId = some keyIdOfStream ∧
      sessionOfStream.process (some license) =
        (.error (.status 6), { sessionOfStream with state := .error, stateChanged := ⟨true⟩ }) := by
  intro key text entry license
  have hwritten : KeyEntry.AllWrittenIn [entry] license.bytes := KeyEntry.allWrittenIn_keySet (by decide)
  refine ⟨by decide, by decide, hwritten, rfl, Session.process_of_select?_eq_none ?_⟩
  rw [hwritten.select?_of_values _ (by decide)]
  decide

end ContentProtection.ClearKey
