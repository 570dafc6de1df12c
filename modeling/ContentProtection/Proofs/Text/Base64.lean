import ContentProtection.Proofs.Search
import ContentProtection.Proofs.Text.Ascii
import ContentProtection.Text.Base64
import ContentProtection.Text.Blank
import ContentProtection.Text.Utf8
import Mathlib.Data.List.Basic

/-!
# Base64 reads back

What is written in a format is read as the bytes that it was written from: the values of the symbols come back, whole groups of four symbols give their three bytes, and a shorter last group has the padding that the format asks for and leaves the bits zero that reach no byte.
-/

namespace ContentProtection.Base64

/-- What reading relies on: the symbols tell the values apart, and none of them is the pad symbol. -/
structure Format.IsLawful (format : Format) : Prop where
  value?_symbol : ∀ value < 64, format.value? (format.symbol value) = some value
  symbol_ne_pad : ∀ value < 64, format.symbol value ≠ pad

theorem isLawful_urlSafe : urlSafe.IsLawful := ⟨by decide, by decide⟩

theorem isLawful_standard : standard.IsLawful := ⟨by decide, by decide⟩

variable {format : Format}

theorem Format.IsLawful.valueAt_symbol (hformat : format.IsLawful) (offset : Nat) {value : Nat} (hvalue : value < 64) :
    format.valueAt offset (format.symbol value) = .ok value := by
  rw [Format.valueAt, hformat.value?_symbol value hvalue]

/-! ### The last group, symbol by symbol -/

theorem readGroup_symbols (hformat : format.IsLawful) (offset index : Nat) (group : Group) {values : List Nat}
    (hvalues : ∀ value ∈ values, value < 64) (hpads : group.pads = 0) (rest : Bytes) :
    ∃ last, format.readGroup offset index group (values.map format.symbol ++ rest) =
      format.readGroup offset (index + values.length)
        { values := group.values ++ values, lastSymbol := last, pads := 0 } rest := by
  induction values generalizing index group with
  | nil =>
    refine ⟨group.lastSymbol, ?_⟩
    rw [List.map_nil, List.nil_append, List.append_nil, ← hpads]
    rfl
  | cons value values ih =>
    have hvalue : value < 64 := hvalues value List.mem_cons_self
    obtain ⟨last, hrest⟩ := ih (index + 1)
      { group with values := group.values ++ [value], lastSymbol := format.symbol value }
      (fun other hother => hvalues other (.tail _ hother)) hpads
    refine ⟨last, ?_⟩
    rw [List.map_cons, List.cons_append, Format.readGroup, if_neg (hformat.symbol_ne_pad value hvalue),
      if_neg (by omega), hformat.valueAt_symbol _ hvalue]
    rw [List.append_assoc] at hrest
    exact hrest.trans (by rw [List.length_cons, Nat.add_right_comm, Nat.add_assoc]; rfl)

/-- Behind two symbols all that follows may be padding. -/
theorem readGroup_pads (offset : Nat) {index : Nat} (hindex : 2 ≤ index) (group : Group) (count : Nat) :
    format.readGroup offset index group (List.replicate count pad) =
      .ok { group with pads := group.pads + count } := by
  induction count generalizing index group with
  | zero => rfl
  | succ count ih =>
    rw [List.replicate_succ, Format.readGroup, if_pos rfl, if_neg (Nat.not_lt.mpr hindex), ih (by omega)]
    dsimp only
    rw [Nat.add_assoc, Nat.add_comm 1]

/-! ### Bytes from symbols -/

theorem first_byte (a : UInt8) {low : Nat} (hlow : low < 16) :
    UInt8.ofNat (a.toNat / 4 * 4 + (a.toNat % 4 * 16 + low) / 16) = a := by
  rw [show a.toNat / 4 * 4 + (a.toNat % 4 * 16 + low) / 16 = a.toNat by omega, UInt8.ofNat_toNat]

theorem second_byte (high : Nat) (b : UInt8) {low : Nat} (hlow : low < 4) :
    UInt8.ofNat ((high * 16 + b.toNat / 16) % 16 * 16 + (b.toNat % 16 * 4 + low) / 4) = b := by
  have hb := b.toNat_lt
  rw [show (high * 16 + b.toNat / 16) % 16 * 16 + (b.toNat % 16 * 4 + low) / 4 = b.toNat by omega, UInt8.ofNat_toNat]

theorem third_byte (high : Nat) (c : UInt8) :
    UInt8.ofNat ((high * 4 + c.toNat / 64) % 4 * 64 + c.toNat % 64) = c := by
  have hc := c.toNat_lt
  rw [show (high * 4 + c.toNat / 64) % 4 * 64 + c.toNat % 64 = c.toNat by omega, UInt8.ofNat_toNat]

/-! ### Values of the symbols -/

/-- The six-bit values that stand for the bytes. -/
def sextets : Bytes → List Nat
  | [] => []
  | [a] => [a.toNat / 4, a.toNat % 4 * 16]
  | [a, b] => [a.toNat / 4, a.toNat % 4 * 16 + b.toNat / 16, b.toNat % 16 * 4]
  | a :: b :: c :: rest =>
    [a.toNat / 4, a.toNat % 4 * 16 + b.toNat / 16, b.toNat % 16 * 4 + c.toNat / 64, c.toNat % 64] ++ sextets rest

/-- How many symbols the last group is short of. -/
def missing : Bytes → Nat
  | [] => 0
  | [_] => 2
  | [_, _] => 1
  | _ :: _ :: _ :: rest => missing rest

/-- How many pad symbols a format puts behind the symbols of the bytes. -/
def Format.padCount (format : Format) (bytes : Bytes) : Nat := if format.padded then missing bytes else 0

theorem padCount_le (format : Format) (bytes : Bytes) : format.padCount bytes ≤ missing bytes := by
  rw [Format.padCount]
  split
  · exact Nat.le_refl _
  · exact Nat.zero_le _

theorem padding_missing (format : Format) (bytes : Bytes) :
    format.padding (missing bytes) = List.replicate (format.padCount bytes) pad := by
  rw [Format.padding, Format.padCount]
  split <;> rfl

theorem encode_eq_map (format : Format) (bytes : Bytes) :
    encode format bytes = (sextets bytes).map format.symbol ++ List.replicate (format.padCount bytes) pad := by
  rw [← padding_missing]
  induction bytes using sextets.induct with
  | case1 => rw [missing, Format.padding]; split <;> rfl
  | case2 | case3 => rfl
  | case4 a b c rest ih =>
    rw [encode, ih]
    rfl

theorem length_sextets (bytes : Bytes) : ((sextets bytes).length + missing bytes) % 4 = 0 := by
  induction bytes using sextets.induct with
  | case1 | case2 | case3 => simp [sextets, missing]
  | case4 a b c rest ih =>
    simp only [sextets, missing, List.length_append, List.length_cons, List.length_nil]
    omega

theorem length_le_length_sextets (bytes : Bytes) : bytes.length ≤ (sextets bytes).length := by
  induction bytes using sextets.induct with
  | case1 | case2 | case3 => simp [sextets]
  | case4 a b c rest ih =>
    simp only [sextets, List.length_append, List.length_cons, List.length_nil]
    omega

theorem missing_le (bytes : Bytes) : missing bytes ≤ 2 := by
  induction bytes using sextets.induct with
  | case1 | case2 | case3 => simp [missing]
  | case4 a b c rest ih => exact ih

theorem missing_eq_zero_iff {bytes : Bytes} : missing bytes = 0 ↔ bytes.length % 3 = 0 := by
  induction bytes using sextets.induct with
  | case1 | case2 | case3 => simp [missing]
  | case4 a b c rest ih => exact ih.trans (by rw [← Nat.add_mod_right]; rfl)

/-- When two symbols are missing, the last value leaves four bits unused. -/
theorem sextets_eq_append {bytes : Bytes} (hmissing : missing bytes = 2) :
    ∃ front high, sextets bytes = front ++ [high * 16] ∧ high < 4 := by
  induction bytes using sextets.induct with
  | case1 | case3 => cases hmissing
  | case2 a => exact ⟨[a.toNat / 4], a.toNat % 4, rfl, Nat.mod_lt _ (by decide)⟩
  | case4 a b c rest ih =>
    obtain ⟨front, high, hrest, hhigh⟩ := ih hmissing
    exact ⟨_ ++ front, high, by rw [sextets, hrest, List.append_assoc], hhigh⟩

theorem sextets_lt (bytes : Bytes) : ∀ value ∈ sextets bytes, value < 64 := by
  induction bytes using sextets.induct with
  | case1 => exact fun _ hmem => absurd hmem List.not_mem_nil
  | case2 a =>
    have ha := a.toNat_lt
    simp only [sextets, List.forall_mem_cons, List.not_mem_nil, false_implies, implies_true, and_true]
    omega
  | case3 a b =>
    have ha := a.toNat_lt
    have hb := b.toNat_lt
    simp only [sextets, List.forall_mem_cons, List.not_mem_nil, false_implies, implies_true, and_true]
    omega
  | case4 a b c rest ih =>
    have ha := a.toNat_lt
    have hb := b.toNat_lt
    have hc := c.toNat_lt
    simp only [sextets, List.cons_append, List.nil_append, List.forall_mem_cons]
    exact ⟨by omega, by omega, by omega, by omega, ih⟩

/-! ### Whole texts -/

theorem readGroup_encode (hformat : format.IsLawful) (offset : Nat) (bytes : Bytes) :
    ∃ last, format.readGroup offset 0 {} (encode format bytes) =
      .ok { values := sextets bytes, lastSymbol := last, pads := format.padCount bytes } := by
  obtain ⟨last, hsymbols⟩ := readGroup_symbols hformat offset 0 {} (sextets_lt bytes) rfl
    (List.replicate (format.padCount bytes) pad)
  refine ⟨last, ?_⟩
  rw [encode_eq_map, hsymbols]
  by_cases hnone : format.padCount bytes = 0
  · rw [hnone]
    rfl
  · have hcount := padCount_le format bytes
    have hlength := length_sextets bytes
    have hmissing := missing_le bytes
    -- Where symbols are missing there are two at least, so padding may follow.
    rw [readGroup_pads offset (by omega)]
    dsimp only
    rw [Nat.zero_add, List.nil_append]

/-- The padding that writing gives is the padding that reading asks for. -/
theorem padding_fits (format : Format) (bytes : Bytes) :
    (if format.padded then ((sextets bytes).length + format.padCount bytes) % 4 == 0
      else format.padCount bytes == 0) = true := by
  have hlength := length_sextets bytes
  rw [Format.padCount]
  split
  · rw [hlength]
    rfl
  · rfl

theorem decodeLast_one (hformat : format.IsLawful) (offset : Nat) (a : UInt8) :
    format.decodeLast offset (encode format [a]) = .ok [a] := by
  obtain ⟨last, hgroup⟩ := readGroup_encode hformat offset [a]
  have hbyte : UInt8.ofNat (a.toNat / 4 * 4 + a.toNat % 4 * 16 / 16) = a := first_byte a (show 0 < 16 by decide)
  rw [Format.decodeLast, hgroup]
  show (if !(if format.padded then _ else _) then _ else
    if a.toNat % 4 * 16 % 16 = 0 then .ok [UInt8.ofNat (a.toNat / 4 * 4 + a.toNat % 4 * 16 / 16)] else _ :
    Except Fault Bytes) = _
  rw [padding_fits format [a], if_pos (Nat.mul_mod_left _ _), hbyte]
  rfl

theorem decodeLast_two (hformat : format.IsLawful) (offset : Nat) (a b : UInt8) :
    format.decodeLast offset (encode format [a, b]) = .ok [a, b] := by
  have hb := b.toNat_lt
  obtain ⟨last, hgroup⟩ := readGroup_encode hformat offset [a, b]
  have hfirst := first_byte a (show b.toNat / 16 < 16 by omega)
  have hsecond : UInt8.ofNat ((a.toNat % 4 * 16 + b.toNat / 16) % 16 * 16 + b.toNat % 16 * 4 / 4) = b :=
    second_byte (a.toNat % 4) b (show 0 < 4 by decide)
  rw [Format.decodeLast, hgroup]
  show (if !(if format.padded then _ else _) then _ else
    if b.toNat % 16 * 4 % 4 = 0 then .ok [UInt8.ofNat _, UInt8.ofNat _] else _ : Except Fault Bytes) = _
  rw [padding_fits format [a, b], if_pos (Nat.mul_mod_left _ _), hfirst, hsecond]
  rfl

theorem decodeLast_three (hformat : format.IsLawful) (offset : Nat) (a b c : UInt8) :
    format.decodeLast offset (encode format [a, b, c]) = .ok [a, b, c] := by
  have hb := b.toNat_lt
  have hc := c.toNat_lt
  obtain ⟨last, hgroup⟩ := readGroup_encode hformat offset [a, b, c]
  have hfirst := first_byte a (show b.toNat / 16 < 16 by omega)
  have hsecond := second_byte (a.toNat % 4) b (show c.toNat / 64 < 4 by omega)
  have hthird := third_byte (b.toNat % 16) c
  rw [Format.decodeLast, hgroup]
  show (if !(if format.padded then _ else _) then _ else
    .ok [UInt8.ofNat _, UInt8.ofNat _, UInt8.ofNat _] : Except Fault Bytes) = _
  rw [padding_fits format [a, b, c], hfirst, hsecond, hthird]
  rfl

theorem decodeFrom_of_length_le (offset : Nat) {symbols : Bytes} (hlength : symbols.length ≤ 4) :
    format.decodeFrom offset symbols = format.decodeLast offset symbols := by
  rw [Format.decodeFrom]
  rintro s₀ s₁ s₂ s₃ next rest rfl
  simp only [List.length_cons] at hlength
  omega

theorem length_encode (format : Format) (bytes : Bytes) :
    (encode format bytes).length = (sextets bytes).length + format.padCount bytes := by
  rw [encode_eq_map, List.length_append, List.length_map, List.length_replicate]

/-- A group of four that is not the last one. -/
theorem decodeFrom_four (hformat : format.IsLawful) (offset : Nat) (a b c next : UInt8) (rest : Bytes) :
    format.decodeFrom offset (encode format [a, b, c] ++ next :: rest) =
      (format.decodeFrom (offset + 4) (next :: rest)).map ([a, b, c] ++ ·) := by
  have ha := a.toNat_lt
  have hb := b.toNat_lt
  have hc := c.toNat_lt
  have hfirst := first_byte a (show b.toNat / 16 < 16 by omega)
  have hsecond := second_byte (a.toNat % 4) b (show c.toNat / 64 < 4 by omega)
  have hthird := third_byte (b.toNat % 16) c
  show format.decodeFrom offset (format.symbol (a.toNat / 4) :: format.symbol (a.toNat % 4 * 16 + b.toNat / 16) ::
    format.symbol (b.toNat % 16 * 4 + c.toNat / 64) :: format.symbol (c.toNat % 64) :: next :: rest) = _
  rw [Format.decodeFrom, hformat.valueAt_symbol _ (by omega), hformat.valueAt_symbol _ (by omega),
    hformat.valueAt_symbol _ (by omega), hformat.valueAt_symbol _ (by omega)]
  cases format.decodeFrom (offset + 4) (next :: rest) with
  | error fault => rfl
  | ok decoded =>
    show (.ok (UInt8.ofNat _ :: UInt8.ofNat _ :: UInt8.ofNat _ :: decoded) : Except Fault Bytes) = _
    rw [hfirst, hsecond, hthird]
    rfl

theorem decodeFrom_encode (hformat : format.IsLawful) (offset : Nat) (bytes : Bytes) :
    format.decodeFrom offset (encode format bytes) = .ok bytes := by
  induction bytes using encode.induct generalizing offset with
  | case1 => rfl
  | case2 a =>
    rw [decodeFrom_of_length_le offset (by rw [length_encode]; exact Nat.add_le_add_left (padCount_le format [a]) 2)]
    exact decodeLast_one hformat offset a
  | case3 a b =>
    rw [decodeFrom_of_length_le offset (by rw [length_encode]; exact Nat.add_le_add_left (padCount_le format [a, b]) 3)]
    exact decodeLast_two hformat offset a b
  | case4 a b c rest ih =>
    show format.decodeFrom offset (encode format [a, b, c] ++ encode format rest) = _
    have hrest := ih (offset + 4)
    cases hsymbols : encode format rest with
    | nil =>
      rw [hsymbols] at hrest
      cases hrest
      rw [List.append_nil,
        decodeFrom_of_length_le offset (show (encode format [a, b, c]).length ≤ 4 from Nat.le_refl 4)]
      exact decodeLast_three hformat offset a b c
    | cons next symbols =>
      rw [decodeFrom_four hformat, ← hsymbols, hrest]
      rfl

theorem length_encode_mod (format : Format) (bytes : Bytes) : (encode format bytes).length % 4 ≠ 1 := by
  have hlength := length_sextets bytes
  have hmissing := missing_le bytes
  rw [length_encode, Format.padCount]
  split <;> omega

theorem decode_encode (hformat : format.IsLawful) (bytes : Bytes) :
    decode format (encode format bytes) = .ok bytes := by
  rw [decode, Format.strayLast?, if_neg (length_encode_mod format bytes)]
  exact decodeFrom_encode hformat 0 bytes

/-! ### What is refused -/

theorem bind_eq_ok {α β ε : Type} {result : Except ε α} {next : α → Except ε β} {last : β} :
    (result >>= next) = .ok last ↔ ∃ value, result = .ok value ∧ next value = .ok last := by
  cases result with
  | error fault => exact ⟨nofun, nofun⟩
  | ok value => exact ⟨fun hnext => ⟨value, rfl, hnext⟩, fun ⟨_, hvalue, hnext⟩ => by cases hvalue; exact hnext⟩

/-- What reading asks of symbols in any case: each is in the alphabet or the pad symbol, and where padding is due they are whole groups of four. -/
structure Format.Admits (format : Format) (symbols : Bytes) : Prop where
  known : ∀ symbol ∈ symbols, symbol = pad ∨ (format.value? symbol).isSome = true
  whole : format.padded = true → symbols.length % 4 = 0

variable {symbols bytes : Bytes} {offset : Nat}

theorem isSome_of_valueAt {symbol : UInt8} {value : Nat} (hvalue : format.valueAt offset symbol = .ok value) :
    (format.value? symbol).isSome = true := by
  rw [Format.valueAt] at hvalue
  cases hknown : format.value? symbol with
  | none => rw [hknown] at hvalue; cases hvalue
  | some _ => rfl

/-- Each symbol of the last group adds a value or a pad. -/
theorem readGroup_inv {index : Nat} {group read : Group}
    (hread : format.readGroup offset index group symbols = .ok read) :
    (∀ symbol ∈ symbols, symbol = pad ∨ (format.value? symbol).isSome = true) ∧
      read.values.length + read.pads = group.values.length + group.pads + symbols.length := by
  induction symbols generalizing index group with
  | nil =>
    cases hread
    exact ⟨fun _ hmem => absurd hmem List.not_mem_nil, rfl⟩
  | cons symbol rest ih =>
    rw [Format.readGroup] at hread
    rw [List.forall_mem_cons, List.length_cons]
    split at hread
    · rename_i hpad
      split at hread
      · cases hread
      · obtain ⟨hrest, hcount⟩ := ih hread
        exact ⟨⟨.inl hpad, hrest⟩, by rw [hcount]; dsimp only; omega⟩
    · split at hread
      · cases hread
      · obtain ⟨value, hvalue, hread⟩ := bind_eq_ok.mp hread
        obtain ⟨hrest, hcount⟩ := ih hread
        rw [List.length_append, List.length_singleton] at hcount
        exact ⟨⟨.inr (isSome_of_valueAt hvalue), hrest⟩, by rw [hcount]; dsimp only; omega⟩

theorem admits_of_decodeLast (hdecode : format.decodeLast offset symbols = .ok bytes) : format.Admits symbols := by
  rw [Format.decodeLast] at hdecode
  obtain ⟨group, hread, hdecode⟩ := bind_eq_ok.mp hdecode
  obtain ⟨hknown, hcount⟩ := readGroup_inv hread
  refine ⟨hknown, fun hpadded => ?_⟩
  have hwhole : symbols = [] ∨ ((group.values.length + group.pads) % 4 == 0) = true := by
    dsimp only at hdecode
    rw [if_pos hpadded] at hdecode
    split at hdecode
    case h_1 | h_2 =>
      split at hdecode
      · exact .inl (List.isEmpty_iff.mp ‹_›)
      · cases hdecode
    case h_3 | h_4 | h_5 =>
      cases hfits : (group.values.length + group.pads) % 4 == 0 with
      | true => exact .inr rfl
      | false => rw [hfits] at hdecode; cases hdecode
  rcases hwhole with rfl | hfits
  · rfl
  · rw [← eq_of_beq hfits, hcount]
    exact congrArg (· % 4) (Nat.zero_add _).symm

theorem admits_of_decodeFrom (hdecode : format.decodeFrom offset symbols = .ok bytes) : format.Admits symbols := by
  fun_induction Format.decodeFrom format offset symbols generalizing bytes with
  | case1 offset s₀ s₁ s₂ s₃ next rest ih =>
    obtain ⟨a, ha, hdecode⟩ := bind_eq_ok.mp hdecode
    obtain ⟨b, hb, hdecode⟩ := bind_eq_ok.mp hdecode
    obtain ⟨c, hc, hdecode⟩ := bind_eq_ok.mp hdecode
    obtain ⟨d, hd, hdecode⟩ := bind_eq_ok.mp hdecode
    obtain ⟨decoded, hrest, -⟩ := bind_eq_ok.mp hdecode
    obtain ⟨hknown, hwhole⟩ := ih hrest
    refine ⟨?_, fun hpadded => (Nat.add_mod_right _ 4).trans (hwhole hpadded)⟩
    simp only [List.forall_mem_cons] at hknown ⊢
    exact ⟨.inr (isSome_of_valueAt ha), .inr (isSome_of_valueAt hb), .inr (isSome_of_valueAt hc),
      .inr (isSome_of_valueAt hd), hknown⟩
  | case2 offset symbols hlast => exact admits_of_decodeLast hdecode

theorem admits_of_decode (hdecode : decode format symbols = .ok bytes) : format.Admits symbols := by
  rw [decode] at hdecode
  split at hdecode
  · cases hdecode
  · exact admits_of_decodeFrom hdecode

/-! ### Texts of symbols -/

/-- What is true of every symbol, and of the pad symbol if there is padding, is true of all that is written. -/
theorem forall_mem_encode {property : UInt8 → Prop} (hsymbol : ∀ value < 64, property (format.symbol value))
    (hpad : format.padded = true → property pad) (bytes : Bytes) : ∀ symbol ∈ encode format bytes, property symbol := by
  rw [encode_eq_map, List.forall_mem_append]
  refine ⟨List.forall_mem_map.mpr fun value hmem => hsymbol value (sextets_lt bytes value hmem), ?_⟩
  intro symbol hmem
  rw [Format.padCount] at hmem
  split at hmem
  · rename_i hpadded
    rw [List.eq_of_mem_replicate hmem]
    exact hpad hpadded
  · cases hmem

/-- The format with the same alphabet, with padding or without. -/
def Format.withPadding (format : Format) (padded : Bool) : Format := { format with padded }

/-- Bytes in a format, as characters. -/
def Format.text (format : Format) (bytes : Bytes) : List Char :=
  (encode format bytes).map fun symbol => Char.ofNat symbol.toNat

/-- The character of a value. -/
def Format.character (format : Format) (value : Nat) : Char := Char.ofNat (format.symbol value).toNat

theorem formatText_eq_map (format : Format) (bytes : Bytes) :
    format.text bytes = (sextets bytes).map format.character ++ List.replicate (format.padCount bytes) '=' := by
  rw [Format.text, encode_eq_map, List.map_append, List.map_map, List.map_replicate]
  rfl

theorem text_withPadding (format : Format) (padded : Bool) (bytes : Bytes) :
    (format.withPadding padded).text bytes =
      (sextets bytes).map format.character ++ List.replicate (if padded then missing bytes else 0) '=' :=
  formatText_eq_map _ bytes

theorem text_withoutPadding (format : Format) (bytes : Bytes) :
    (format.withPadding false).text bytes = (sextets bytes).map format.character :=
  (text_withPadding format false bytes).trans (List.append_nil _)

/-- The first `=` of a text stands right behind the characters of the values. -/
theorem sextets_of_equals (hcharacter : ∀ value < 64, format.character value ≠ '=') {bytes : Bytes}
    {front rest after : List Char} (hfront : '=' ∉ front) (hafter : '=' ∉ after)
    (htext : format.text bytes ++ after = front ++ '=' :: rest) :
    (sextets bytes).map format.character = front ∧ format.padCount bytes ≠ 0 := by
  have hvalues : ∀ c ∈ (sextets bytes).map format.character, decide (c ≠ '=') = true :=
    List.forall_mem_map.mpr fun value hmem => decide_eq_true (hcharacter value (sextets_lt bytes value hmem))
  have hpads : format.padCount bytes ≠ 0 := by
    intro hnone
    have hmem : '=' ∈ format.text bytes ++ after := by
      rw [htext]
      exact List.mem_append_right _ List.mem_cons_self
    rw [formatText_eq_map, hnone, List.replicate_zero, List.append_nil, List.mem_append] at hmem
    exact hmem.elim (fun hvalue => of_decide_eq_true (hvalues _ hvalue) rfl) hafter
  have hother : ∀ c ∈ front, decide (c ≠ '=') = true := fun c hmem => decide_eq_true fun heq => hfront (heq ▸ hmem)
  obtain ⟨count, hcount⟩ := Nat.exists_eq_succ_of_ne_zero hpads
  rw [formatText_eq_map, hcount, List.replicate_succ, List.append_assoc, List.cons_append] at htext
  refine ⟨?_, hpads⟩
  have hstop (rest : List Char) : ∀ c ∈ ('=' :: rest).head?, decide (c ≠ '=') = false := by
    rintro _ ⟨⟩
    rfl
  rw [← (Search.takeWhile_append_stop hvalues _ (hstop _)).1, htext,
    (Search.takeWhile_append_stop hother _ (hstop _)).1]

/-- Bytes in the URL-safe alphabet, as characters. -/
def text (bytes : Bytes) : List Char := (encode urlSafe bytes).map fun symbol => Char.ofNat symbol.toNat

theorem length_le_length_formatText (bytes : Bytes) : bytes.length ≤ (format.text bytes).length := by
  have hlength := length_le_length_sextets bytes
  rw [Format.text, List.length_map, length_encode]
  omega

/-- A text of symbols below 128 has a byte for each character. -/
theorem encode_formatText {bytes : Bytes} (hascii : ∀ symbol ∈ encode format bytes, symbol < 128) :
    Utf8.encode (format.text bytes) = encode format bytes :=
  Ascii.encode_map_ofNat hascii

theorem encode_text (bytes : Bytes) : Utf8.encode (text bytes) = encode urlSafe bytes :=
  encode_formatText (forall_mem_encode (by decide) (by decide) bytes)

theorem text_plain (bytes : Bytes) : ∀ c ∈ text bytes, Blank.isBlank c = false ∧ c ≠ '=' :=
  List.forall_mem_map.mpr (forall_mem_encode (by decide) (by decide) bytes)

end ContentProtection.Base64
