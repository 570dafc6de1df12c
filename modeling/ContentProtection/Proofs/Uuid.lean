import ContentProtection.Proofs.Text.Blank
import ContentProtection.Proofs.Text.Hex
import ContentProtection.Uuid
import Mathlib.Data.Bool.AllAny
import Mathlib.Tactic.Tauto

/-!
# UUIDs are read in every form

The text of a UUID has four forms: bare digits, groups of digits with hyphens between them, the same in braces, and the same behind the URN scheme. Reading gives a UUID exactly for its forms, with each letter in either case.
-/

namespace ContentProtection.Uuid

inductive Form
  | digits
  | hyphenated
  | braced
  | urn

/-- The text of a UUID in a form, in lower case. -/
def Form.text : Form → Uuid → List Char
  | digits, uuid => Hex.encode uuid.bytes
  | hyphenated, uuid => uuid.text
  | braced, uuid => '\x7b' :: (uuid.text ++ ['\x7d'])
  | urn, uuid => scheme ++ uuid.text

/-- Whether a text is a UUID in one of the forms, with each letter in either case. -/
def SpelledBy (uuid : Uuid) (text : List Char) : Prop := ∃ form : Form, text.map Char.toLower = form.text uuid

theorem eq_of_bytes_eq {uuid other : Uuid} (hbytes : uuid.bytes = other.bytes) : uuid = other := by
  cases uuid
  cases other
  cases hbytes
  rfl

/-! ### Digits -/

theorem ofDigits?_eq_some_iff {digits : List Char} {uuid : Uuid} :
    ofDigits? digits = some uuid ↔ digits.map Char.toLower = Hex.encode uuid.bytes := by
  have hbytes {bytes : Bytes} : ofBytes? bytes = some uuid ↔ bytes = uuid.bytes := by
    rw [ofBytes?, Option.dite_none_right_eq_some]
    constructor
    · rintro ⟨hlength, huuid⟩
      exact congrArg Uuid.bytes (Option.some.inj huuid)
    · rintro rfl
      exact ⟨uuid.length_eq, rfl⟩
  have hdecoded : (Hex.decode? digits).bind ofBytes? = some uuid ↔ digits.map Char.toLower = Hex.encode uuid.bytes := by
    simp only [Option.bind_eq_some_iff, hbytes, exists_eq_right, Hex.decode?_eq_some_iff]
  rw [ofDigits?, Option.ite_none_right_eq_some, hdecoded, and_iff_right_iff_imp]
  intro hlower
  have hlength := congrArg List.length hlower
  rwa [List.length_map, Hex.length_encode, uuid.length_eq] at hlength

/-! ### Hyphens -/

/-- Five groups of digits, with hyphens between them and without. -/
inductive Grouped : List Char → List Char → Prop
  | groups {a b c d e : List Char} (ha : a.length = 8) (hb : b.length = 4) (hc : c.length = 4) (hd : d.length = 4)
    (he : e.length = 12) : Grouped (a ++ '-' :: b ++ '-' :: c ++ '-' :: d ++ '-' :: e) (a ++ b ++ c ++ d ++ e)

namespace Grouped

variable {text digits : List Char}

/-- The digits tell what the text is. -/
theorem text_eq (hgrouped : Grouped text digits) :
    text = digits.take 8 ++ '-' :: (digits.drop 8).take 4 ++ '-' :: (digits.drop 12).take 4
      ++ '-' :: (digits.drop 16).take 4 ++ '-' :: digits.drop 20 := by
  obtain ⟨ha, hb, hc, hd, he⟩ := hgrouped
  simp [List.drop_append, List.drop_of_length_le, ha, hb, hc, hd]

theorem map {f : Char → Char} (hf : f '-' = '-') (hgrouped : Grouped text digits) :
    Grouped (text.map f) (digits.map f) := by
  obtain ⟨ha, hb, hc, hd, he⟩ := hgrouped
  simp only [List.map_append, List.map_cons, hf]
  exact .groups (by rwa [List.length_map]) (by rwa [List.length_map]) (by rwa [List.length_map])
    (by rwa [List.length_map]) (by rwa [List.length_map])

theorem exists_of_map_toLower {lower : List Char} (hgrouped : Grouped (text.map Char.toLower) lower) :
    ∃ digits, Grouped text digits ∧ digits.map Char.toLower = lower := by
  generalize hmapped : text.map Char.toLower = mapped at hgrouped
  obtain ⟨ha, hb, hc, hd, he⟩ := hgrouped
  have hhyphen : ∀ c : Char, c.toLower = '-' → c = '-' := fun c => Ascii.eq_of_toLower_eq rfl
  simp only [List.append_assoc, List.cons_append, List.map_eq_append_iff, List.map_eq_cons_iff] at hmapped
  obtain ⟨a, -, rfl, rfl, h₁, -, rfl, hh₁, b, -, rfl, rfl, h₂, -, rfl, hh₂, c, -, rfl, rfl, h₃, -, rfl, hh₃, d, -, rfl,
    rfl, h₄, e, rfl, hh₄, rfl⟩ := hmapped
  obtain rfl := hhyphen h₁ hh₁
  obtain rfl := hhyphen h₂ hh₂
  obtain rfl := hhyphen h₃ hh₃
  obtain rfl := hhyphen h₄ hh₄
  rw [List.length_map] at ha hb hc hd he
  refine ⟨a ++ b ++ c ++ d ++ e, ?_, ?_⟩
  · simpa using Grouped.groups ha hb hc hd he
  · simp

theorem mem_text {c : Char} (hgrouped : Grouped text digits) (hmem : c ∈ text) : c = '-' ∨ c ∈ digits := by
  obtain ⟨ha, hb, hc, hd, he⟩ := hgrouped
  simp only [List.mem_append, List.mem_cons] at hmem ⊢
  tauto

theorem ofHyphenated? (hgrouped : Grouped text digits) : ofHyphenated? text = ofDigits? digits := by
  obtain ⟨ha, hb, hc, hd, he⟩ := hgrouped
  rw [Uuid.ofHyphenated?, if_pos]
  · congr 1
    simp [List.drop_append, List.drop_of_length_le, ha, hb, hc, hd]
  · simp [ha, hb, hc, hd, he]

end Grouped

theorem take_append_drop_group {α : Type} (list : List α) (start count : Nat) :
    (list.drop start).take count ++ list.drop (start + count) = list.drop start := by
  rw [← List.drop_drop, List.take_append_drop]

theorem grouped_of_hyphens {text : List Char} (hlength : text.length = 36) (h₁ : text[8]? = some '-')
    (h₂ : text[13]? = some '-') (h₃ : text[18]? = some '-') (h₄ : text[23]? = some '-') :
    ∃ digits, Grouped text digits := by
  have hhyphen {start : Nat} (hstart : text[start]? = some '-') : '-' :: text.drop (start + 1) = text.drop start := by
    obtain ⟨hroom, hget⟩ := List.getElem?_eq_some_iff.mp hstart
    rw [List.drop_eq_getElem_cons hroom, hget]
  have htext : text.take 8 ++ '-' :: (text.drop 9).take 4 ++ '-' :: (text.drop 14).take 4
      ++ '-' :: (text.drop 19).take 4 ++ '-' :: text.drop 24 = text := by
    simp only [List.append_assoc, List.cons_append]
    rw [hhyphen h₄, take_append_drop_group text 19, hhyphen h₃, take_append_drop_group text 14, hhyphen h₂,
      take_append_drop_group text 9, hhyphen h₁, List.take_append_drop]
  have hgrouped := Grouped.groups (a := text.take 8) (b := (text.drop 9).take 4) (c := (text.drop 14).take 4)
    (d := (text.drop 19).take 4) (e := text.drop 24) (by simp [hlength]) (by simp [hlength]) (by simp [hlength])
    (by simp [hlength]) (by simp [hlength])
  rw [htext] at hgrouped
  exact ⟨_, hgrouped⟩

theorem grouped_text (uuid : Uuid) : Grouped uuid.text (Hex.encode uuid.bytes) := by
  obtain ⟨bytes, hlength⟩ := uuid
  have hdigits : Hex.encode (bytes.take 4) ++ Hex.encode ((bytes.drop 4).take 2) ++ Hex.encode ((bytes.drop 6).take 2)
      ++ Hex.encode ((bytes.drop 8).take 2) ++ Hex.encode (bytes.drop 10) = Hex.encode bytes := by
    simp only [← Hex.encode_append, List.append_assoc]
    rw [take_append_drop_group bytes 8, take_append_drop_group bytes 6, take_append_drop_group bytes 4,
      List.take_append_drop]
  show Grouped _ (Hex.encode bytes)
  rw [← hdigits]
  refine .groups ?_ ?_ ?_ ?_ ?_ <;> simp [Hex.length_encode, hlength]

theorem ofHyphenated?_eq_some_iff {text : List Char} {uuid : Uuid} :
    ofHyphenated? text = some uuid ↔ text.map Char.toLower = uuid.text := by
  constructor
  · intro hsome
    obtain ⟨digits, hgrouped⟩ : ∃ digits, Grouped text digits := by
      rw [ofHyphenated?, Option.ite_none_right_eq_some] at hsome
      obtain ⟨⟨hlength, h₁, h₂, h₃, h₄⟩, -⟩ := hsome
      exact grouped_of_hyphens hlength h₁ h₂ h₃ h₄
    rw [hgrouped.ofHyphenated?, ofDigits?_eq_some_iff] at hsome
    have hlower := hgrouped.map (show '-'.toLower = '-' from rfl)
    rw [hsome] at hlower
    rw [hlower.text_eq, (grouped_text uuid).text_eq]
  · intro hlower
    obtain ⟨digits, hgrouped, hdigits⟩ := Grouped.exists_of_map_toLower (hlower ▸ grouped_text uuid)
    rw [hgrouped.ofHyphenated?, ofDigits?_eq_some_iff, hdigits]

/-! ### All forms -/

theorem length_text (uuid : Uuid) : uuid.text.length = 36 := by
  have hdigits := Hex.length_encode uuid.bytes
  rw [uuid.length_eq] at hdigits
  rw [(grouped_text uuid).text_eq]
  simp [hdigits]

def Form.length : Form → Nat
  | digits => 32
  | hyphenated => 36
  | braced => 38
  | urn => 45

theorem Form.length_text (form : Form) (uuid : Uuid) : (form.text uuid).length = form.length := by
  cases form with
  | digits => rw [text, Hex.length_encode, uuid.length_eq]; rfl
  | hyphenated => exact uuid.length_text
  | braced => rw [text, List.length_cons, List.length_append, uuid.length_text]; rfl
  | urn => rw [text, List.length_append, uuid.length_text]; rfl

variable {text : List Char} {uuid : Uuid}

theorem ofText?_of_map_toLower {form : Form} (hlower : text.map Char.toLower = form.text uuid) :
    ofText? text = some uuid := by
  have hlength : text.length = form.length := by
    rw [← form.length_text uuid, ← hlower, List.length_map]
  rw [ofText?, hlength]
  cases form with
  | digits => exact ofDigits?_eq_some_iff.mpr hlower
  | hyphenated => exact ofHyphenated?_eq_some_iff.mpr hlower
  | braced =>
    obtain ⟨opening, rest, rfl, hopening, hrest⟩ := List.map_eq_cons_iff.mp hlower
    obtain ⟨inner, last, rfl, hinner, hlast⟩ := List.map_eq_append_iff.mp hrest
    obtain ⟨closing, nothing, rfl, hclosing, hnothing⟩ := List.map_eq_cons_iff.mp hlast
    obtain rfl := List.map_eq_nil_iff.mp hnothing
    obtain rfl := Ascii.eq_of_toLower_eq rfl hopening
    obtain rfl := Ascii.eq_of_toLower_eq rfl hclosing
    have hinside : inner.length = 36 := by
      rw [← List.length_map Char.toLower, hinner, uuid.length_text]
    show (if _ ∧ _ then ofHyphenated? ((inner ++ ['\x7d']).take 36) else none) = some uuid
    rw [if_pos ⟨rfl, by rw [← List.cons_append, List.getLast?_concat]⟩, List.take_left' hinside]
    exact ofHyphenated?_eq_some_iff.mpr hinner
  | urn =>
    obtain ⟨front, rest, rfl, hfront, hrest⟩ := List.map_eq_append_iff.mp hlower
    have hscheme : front.length = 9 := by
      rw [← List.length_map Char.toLower, hfront]
      rfl
    show (if ((front ++ rest).take 9).map Char.toLower = scheme then ofHyphenated? ((front ++ rest).drop 9) else none) =
      some uuid
    rw [List.take_left' hscheme, if_pos hfront, List.drop_left' hscheme]
    exact ofHyphenated?_eq_some_iff.mpr hrest

/-- Reading accepts the forms of UUIDs and nothing else. -/
theorem ofText?_eq_some_iff : ofText? text = some uuid ↔ SpelledBy uuid text := by
  refine ⟨fun hsome => ?_, fun ⟨form, hlower⟩ => ofText?_of_map_toLower hlower⟩
  rw [ofText?] at hsome
  split at hsome
  · exact ⟨.digits, ofDigits?_eq_some_iff.mp hsome⟩
  split at hsome
  · exact ⟨.hyphenated, ofHyphenated?_eq_some_iff.mp hsome⟩
  split at hsome
  · rename_i hlength
    rw [Option.ite_none_right_eq_some, ofHyphenated?_eq_some_iff] at hsome
    obtain ⟨⟨hhead, hlast⟩, hinner⟩ := hsome
    obtain ⟨front, rfl⟩ := List.getLast?_eq_some_iff.mp hlast
    cases front with
    | nil => cases hlength
    | cons opening inner =>
      obtain rfl : opening = '\x7b' := Option.some.inj hhead
      have hinside : inner.length = 36 := by simpa using hlength
      rw [List.cons_append, List.drop_one, List.tail_cons, List.take_left' hinside] at hinner
      refine ⟨.braced, ?_⟩
      rw [List.cons_append, List.map_cons, List.map_append, hinner]
      rfl
  · rw [Option.ite_none_right_eq_some, Option.ite_none_right_eq_some, ofHyphenated?_eq_some_iff] at hsome
    obtain ⟨-, hscheme, hrest⟩ := hsome
    refine ⟨.urn, ?_⟩
    rw [← List.take_append_drop 9 text, List.map_append, hscheme, hrest]
    rfl

/-! ### What stands in front -/

/-- What is true of every digit and of the signs between and around the groups is true of the forms without the scheme. -/
theorem Form.forall_mem_text {property : Char → Prop} (hdigit : ∀ value < 16, property (Hex.digit value))
    (hsign : ∀ sign ∈ ['-', '\x7b', '\x7d'], property sign) {form : Form} (hform : form ≠ .urn) :
    ∀ c ∈ form.text uuid, property c := by
  have hdigits := Hex.forall_mem_encode hdigit uuid.bytes
  simp only [List.forall_mem_cons] at hsign
  obtain ⟨hhyphen, hopening, hclosing, -⟩ := hsign
  have hgroups : ∀ c ∈ uuid.text, property c := fun c hmem =>
    (uuid.grouped_text.mem_text hmem).elim (fun heq => heq ▸ hhyphen) (hdigits c)
  cases form with
  | digits => exact hdigits
  | hyphenated => exact hgroups
  | braced =>
    rw [text, List.forall_mem_cons, List.forall_mem_append, List.forall_mem_singleton]
    exact ⟨hopening, hgroups, hclosing⟩
  | urn => exact absurd rfl hform

theorem SpelledBy.forall_mem {property : Char → Prop} (hspelled : SpelledBy uuid text)
    (hcase : ∀ c : Char, property c.toLower → property c) (hdigit : ∀ value < 16, property (Hex.digit value))
    (hsign : ∀ sign ∈ ['-', '\x7b', '\x7d'], property sign) (hscheme : ∀ sign ∈ scheme, property sign) :
    ∀ c ∈ text, property c := by
  obtain ⟨form, hlower⟩ := hspelled
  have hothers {form : Form} (hform : form ≠ .urn) : ∀ c ∈ form.text uuid, property c :=
    Form.forall_mem_text hdigit hsign hform
  have hform : ∀ c ∈ form.text uuid, property c := by
    cases form with
    | urn => exact List.forall_mem_append.mpr ⟨hscheme, hothers (show Form.hyphenated ≠ .urn from nofun)⟩
    | digits | hyphenated | braced => exact hothers nofun
  exact fun c hmem => hcase c (hform _ (hlower ▸ List.mem_map_of_mem hmem))

theorem SpelledBy.not_blank (hspelled : SpelledBy uuid text) : ∀ c ∈ text, Blank.isBlank c = false :=
  hspelled.forall_mem (fun c hc => Blank.isBlank_toLower c ▸ hc) (by decide) (List.all_iff_forall_prop.mp (by decide))
    (List.all_iff_forall_prop.mp (by decide))

theorem SpelledBy.ascii (hspelled : SpelledBy uuid text) : ∀ c ∈ text, c.toNat < 128 :=
  hspelled.forall_mem (fun _ => Ascii.ascii_of_toLower) (by decide) (List.all_iff_forall_prop.mp (by decide))
    (List.all_iff_forall_prop.mp (by decide))

/-- The form with the scheme loses the scheme and no other form starts with it. -/
theorem SpelledBy.of_scheme (hspelled : SpelledBy uuid (scheme ++ text)) : SpelledBy uuid text := by
  obtain ⟨form, hlower⟩ := hspelled
  have hmem : 'u' ∈ form.text uuid := hlower ▸ List.mem_cons_self
  have hothers (hform : form ≠ .urn) : ∀ c ∈ form.text uuid, c ≠ 'u' :=
    Form.forall_mem_text (by decide) (List.all_iff_forall_prop.mp (by decide)) hform
  by_cases hform : form = .urn
  · rw [hform, List.map_append] at hlower
    exact ⟨.hyphenated, List.append_cancel_left hlower⟩
  · exact absurd rfl (hothers hform 'u' hmem)

end ContentProtection.Uuid
