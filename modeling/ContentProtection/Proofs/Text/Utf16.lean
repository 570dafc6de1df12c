import ContentProtection.Proofs.Bytes
import ContentProtection.Text.Utf16

/-!
# UTF-16 reads back

The units of a character give that character, whatever comes after them: a unit that stands alone is no surrogate, and the two units of a pair give the code they were made of. Each unit fits two bytes. No other bytes are read as a text than those it is written in, with at most one more byte behind them.
-/

namespace ContentProtection.Utf16

theorem ofUnits?_cons {unit : Nat} (hunit : unit < 0xD800 ∨ 0xDFFF < unit) (rest : List Nat) :
    ofUnits? (unit :: rest) = (ofUnits? rest).map (Char.ofNat unit :: ·) := by
  cases rest with
  | nil =>
    have hlone : ¬(0xD800 ≤ unit ∧ unit ≤ 0xDFFF) := by omega
    simp only [ofUnits?, if_neg hlone, Option.map_some]
  | cons next rest => rw [ofUnits?, if_pos hunit]

theorem ofUnits?_pair {high low : Nat} (hhigh : 0xD800 ≤ high ∧ high ≤ 0xDBFF) (hlow : 0xDC00 ≤ low ∧ low ≤ 0xDFFF)
    (rest : List Nat) :
    ofUnits? (high :: low :: rest) =
      (ofUnits? rest).map (Char.ofNat (0x10000 + (high - 0xD800) * 0x400 + (low - 0xDC00)) :: ·) := by
  rw [ofUnits?, if_neg (by omega), if_pos ⟨hhigh.2, hlow⟩]

theorem ofUnits?_unitsOfChar (c : Char) (rest : List Nat) :
    ofUnits? (unitsOfChar c ++ rest) = (ofUnits? rest).map (c :: ·) := by
  have hvalid : c.toNat < 0xD800 ∨ 0xDFFF < c.toNat ∧ c.toNat < 0x110000 := c.valid
  rw [unitsOfChar]
  split
  · rw [List.singleton_append, ofUnits?_cons (by omega), Char.ofNat_toNat]
  · have hcode : 0x10000 + (0xD800 + (c.toNat - 0x10000) / 0x400 - 0xD800) * 0x400 +
        (0xDC00 + (c.toNat - 0x10000) % 0x400 - 0xDC00) = c.toNat := by
      omega
    rw [List.cons_append, List.singleton_append, ofUnits?_pair (by omega) (by omega), hcode, Char.ofNat_toNat]

theorem ofUnits?_units (text : List Char) : ofUnits? (units text) = some text := by
  induction text with
  | nil => rfl
  | cons c text ih =>
    rw [units, List.flatMap_cons, ofUnits?_unitsOfChar, ← units, ih]
    rfl

theorem units_lt (text : List Char) : ∀ unit ∈ units text, unit < 0x10000 := by
  intro unit hmem
  obtain ⟨c, -, hunit⟩ := List.mem_flatMap.mp hmem
  have hvalid : c.toNat < 0xD800 ∨ 0xDFFF < c.toNat ∧ c.toNat < 0x110000 := c.valid
  rw [unitsOfChar] at hunit
  split at hunit
  · rw [List.mem_singleton] at hunit
    omega
  · rw [List.mem_cons, List.mem_singleton] at hunit
    omega

theorem unitsOfBytes_append {units : List Nat} (hunits : ∀ unit ∈ units, unit < 0x10000) (rest : Bytes) :
    unitsOfBytes (units.flatMap (Bytes.ofNatLE 2) ++ rest) = units ++ unitsOfBytes rest := by
  induction units with
  | nil => rfl
  | cons unit units ih =>
    have hunit := hunits unit List.mem_cons_self
    have hvalue : (UInt8.ofNat unit).toNat + 256 * (UInt8.ofNat (unit / 256)).toNat = unit := by
      rw [UInt8.toNat_ofNat', UInt8.toNat_ofNat']
      omega
    rw [List.flatMap_cons, List.append_assoc]
    show ((UInt8.ofNat unit).toNat + 256 * (UInt8.ofNat (unit / 256)).toNat) ::
      unitsOfBytes (units.flatMap (Bytes.ofNatLE 2) ++ rest) = _
    rw [hvalue, ih fun other hmem => hunits other (.tail _ hmem), List.cons_append]

theorem decode?_encode (text : List Char) : decode? (encode text) = some text := by
  have hunits : unitsOfBytes (encode text ++ []) = units text ++ [] := unitsOfBytes_append (units_lt text) []
  rw [List.append_nil, List.append_nil] at hunits
  rw [decode?, hunits, ofUnits?_units]

/-! ### What is read is what was written -/

theorem code_ofNat {code : Nat} (hvalid : code.isValidChar) : (Char.ofNat code).toNat = code := by
  rw [Char.ofNat, dif_pos hvalid]
  rfl

theorem unitsOfChar_ofNat {unit : Nat} (hunit : unit < 0x10000) (hlone : unit < 0xD800 ∨ 0xDFFF < unit) :
    unitsOfChar (Char.ofNat unit) = [unit] := by
  have hvalid : unit.isValidChar := hlone.imp id fun hhigh => ⟨hhigh, by omega⟩
  rw [unitsOfChar, code_ofNat hvalid, if_pos hunit]

theorem unitsOfChar_pair {high low : Nat} (hhigh : 0xD800 ≤ high ∧ high ≤ 0xDBFF) (hlow : 0xDC00 ≤ low ∧ low ≤ 0xDFFF) :
    unitsOfChar (Char.ofNat (0x10000 + (high - 0xD800) * 0x400 + (low - 0xDC00))) = [high, low] := by
  have hvalid : (0x10000 + (high - 0xD800) * 0x400 + (low - 0xDC00)).isValidChar := .inr ⟨by omega, by omega⟩
  rw [unitsOfChar, code_ofNat hvalid, if_neg (by omega), List.cons.injEq, List.cons.injEq]
  exact ⟨by omega, by omega, rfl⟩

theorem eq_units_of_ofUnits? {given : List Nat} (hgiven : ∀ unit ∈ given, unit < 0x10000) {text : List Char}
    (hread : ofUnits? given = some text) : given = units text := by
  fun_induction ofUnits? given generalizing text with
  | case1 =>
    obtain rfl := Option.some.inj hread
    rfl
  | case2 unit hsurrogate => cases hread
  | case3 unit hlone =>
    obtain rfl := Option.some.inj hread
    rw [units, List.flatMap_singleton, unitsOfChar_ofNat (hgiven unit List.mem_cons_self) (by omega)]
  | case4 unit next rest hlone ih =>
    obtain ⟨more, hmore, rfl⟩ := Option.map_eq_some_iff.mp hread
    rw [units, List.flatMap_cons, unitsOfChar_ofNat (hgiven unit List.mem_cons_self) hlone, ← units,
      ← ih (fun other hmem => hgiven other (.tail _ hmem)) hmore]
    rfl
  | case5 unit next rest hlone hpair ih =>
    obtain ⟨more, hmore, rfl⟩ := Option.map_eq_some_iff.mp hread
    rw [units, List.flatMap_cons, unitsOfChar_pair ⟨by omega, hpair.1⟩ hpair.2, ← units,
      ← ih (fun other hmem => hgiven other (.tail _ (.tail _ hmem))) hmore]
    rfl
  | case6 unit next rest hlone hpair => cases hread

theorem unitsOfBytes_lt (bytes : Bytes) : ∀ unit ∈ unitsOfBytes bytes, unit < 0x10000 := by
  fun_induction unitsOfBytes bytes with
  | case1 low high rest ih =>
    have hlow := low.toNat_lt
    have hhigh := high.toNat_lt
    exact List.forall_mem_cons.mpr ⟨by omega, ih⟩
  | case2 bytes hshort => simp

theorem eq_append_of_unitsOfBytes (bytes : Bytes) :
    ∃ odd : Bytes, odd.length ≤ 1 ∧ bytes = (unitsOfBytes bytes).flatMap (Bytes.ofNatLE 2) ++ odd := by
  fun_induction unitsOfBytes bytes with
  | case1 low high rest ih =>
    obtain ⟨odd, hodd, hrest⟩ := ih
    have hpair : Bytes.ofNatLE 2 (low.toNat + 256 * high.toNat) = [low, high] := Bytes.ofNatLE_toNatLE [low, high]
    refine ⟨odd, hodd, ?_⟩
    rw [List.flatMap_cons, hpair, List.append_assoc, ← hrest]
    rfl
  | case2 bytes hshort =>
    refine ⟨bytes, ?_, rfl⟩
    match bytes with
    | [] => exact Nat.zero_le 1
    | [_] => exact Nat.le_refl 1
    | low :: high :: rest => exact absurd rfl (hshort low high rest)

theorem decode?_eq_some_iff {bytes : Bytes} {text : List Char} :
    decode? bytes = some text ↔ ∃ odd : Bytes, odd.length ≤ 1 ∧ bytes = encode text ++ odd := by
  constructor
  · intro hread
    obtain ⟨odd, hodd, hbytes⟩ := eq_append_of_unitsOfBytes bytes
    rw [eq_units_of_ofUnits? (unitsOfBytes_lt bytes) hread] at hbytes
    exact ⟨odd, hodd, hbytes⟩
  · rintro ⟨odd, hodd, rfl⟩
    have hnone : unitsOfBytes odd = [] := by
      match odd with
      | [] | [_] => rfl
    rw [decode?, encode, unitsOfBytes_append (units_lt text), hnone, List.append_nil, ofUnits?_units]

/-! ### Texts in parts -/

theorem encode_append (first second : List Char) : encode (first ++ second) = encode first ++ encode second := by
  rw [encode, units, List.flatMap_append, List.flatMap_append]
  rfl

theorem encode_cons_of_ascii {c : Char} (hc : c.toNat < 128) (text : List Char) :
    encode (c :: text) = UInt8.ofNat c.toNat :: 0 :: encode text := by
  have hhigh : UInt8.ofNat (c.toNat / 256) = 0 := by
    rw [Nat.div_eq_of_lt (by omega)]
    rfl
  have hunits : units (c :: text) = c.toNat :: units text := by
    rw [units, List.flatMap_cons, unitsOfChar, if_pos (by omega)]
    rfl
  rw [encode, hunits, List.flatMap_cons, ← encode, ← hhigh]
  rfl

end ContentProtection.Utf16
