import ContentProtection.Proofs.Json.Grammar
import ContentProtection.Proofs.Text.Utf8
import Mathlib.Tactic.SplitIfs

/-!
# JSON strings are decoded

However a text is written between quotes, the form is one that tokens accept, and it stands for that text. Each character gives its bytes, whatever is written after it; the one place where two characters meet is an escaped unit followed by an escape, which is no pair unless the units are surrogates.
-/

namespace ContentProtection.Json

/-! ### Characters as they are -/

/-- A byte of a character is the whole character or lies outside ASCII. -/
theorem toNat_of_mem_utf8EncodeChar {c : Char} {byte : UInt8} (hmem : byte ∈ String.utf8EncodeChar c) :
    byte.toNat = c.val.toNat ∨ 128 ≤ byte.toNat := by
  have hlarge : ∀ value, 128 ≤ value → value < 256 → 128 ≤ (UInt8.ofNat value).toNat := by
    intro value hlow hhigh
    rw [UInt8.toNat_ofNat_of_lt' hhigh]
    exact hlow
  rw [String.utf8EncodeChar] at hmem
  split_ifs at hmem <;> simp only [List.mem_cons, List.not_mem_nil, or_false] at hmem
  · subst hmem
    exact .inl (UInt8.toNat_ofNat_of_lt' (by omega : c.val.toNat < 256))
  · rcases hmem with rfl | rfl <;> exact .inr (hlarge _ (by omega) (by omega))
  · rcases hmem with rfl | rfl | rfl <;> exact .inr (hlarge _ (by omega) (by omega))
  · rcases hmem with rfl | rfl | rfl | rfl <;> exact .inr (hlarge _ (by omega) (by omega))

/-- All bytes of a plain character stand for themselves. -/
theorem forall_mem_utf8EncodeChar {c : Char} (hc : isPlain c = true) :
    ∀ byte ∈ String.utf8EncodeChar c, 32 ≤ byte ∧ byte ≠ 34 ∧ byte ≠ 92 := by
  intro byte hmem
  simp only [isPlain, Bool.and_eq_true, decide_eq_true_eq, bne_iff_ne, ne_eq] at hc
  obtain ⟨⟨hcontrol, hquote⟩, hescape⟩ := hc
  have hcontrol' : 32 ≤ c.val.toNat := hcontrol
  have hquote' : c.val.toNat ≠ 34 := fun heq => hquote (Char.ext (UInt32.toNat_inj.mp heq))
  have hescape' : c.val.toNat ≠ 92 := fun heq => hescape (Char.ext (UInt32.toNat_inj.mp heq))
  have hbyte := toNat_of_mem_utf8EncodeChar hmem
  refine ⟨UInt8.le_iff_toNat_le.mpr (show 32 ≤ byte.toNat by omega), ?_, ?_⟩
  · rintro rfl
    rw [show (34 : UInt8).toNat = 34 from rfl] at hbyte
    omega
  · rintro rfl
    rw [show (92 : UInt8).toNat = 92 from rfl] at hbyte
    omega

theorem quotable_append {bytes rest : Bytes} (hbytes : ∀ byte ∈ bytes, 32 ≤ byte ∧ byte ≠ 34 ∧ byte ≠ 92)
    (hrest : Quotable rest) : Quotable (bytes ++ rest) := by
  induction bytes with
  | nil => exact hrest
  | cons byte bytes ih =>
    exact .byte (hbytes byte List.mem_cons_self) (ih fun other hmem => hbytes other (.tail _ hmem))

theorem unescape?_cons {byte : UInt8} (hbyte : byte ≠ 92) (rest : Bytes) :
    unescape? (byte :: rest) = (unescape? rest).map (byte :: ·) := by
  rw [unescape?.eq_def]
  split <;> simp_all

theorem unescape?_append {bytes : Bytes} (hbytes : ∀ byte ∈ bytes, byte ≠ 92) (rest : Bytes) :
    unescape? (bytes ++ rest) = (unescape? rest).map (bytes ++ ·) := by
  induction bytes with
  | nil => simp
  | cons byte bytes ih =>
    rw [List.cons_append, unescape?_cons (hbytes byte List.mem_cons_self),
      ih fun other hmem => hbytes other (.tail _ hmem), Option.map_map]
    rfl

/-! ### Escapes -/

theorem unescape?_escape {escape : UInt8} (hescape : isSimpleEscape escape = true) (rest : Bytes) :
    unescape? (92 :: escape :: rest) = (unescape? rest).map (simpleEscape escape :: ·) := by
  have hunicode : escape ≠ 117 := by
    rintro rfl
    cases hescape
  simp [unescape?, hunicode]

/-- What comes after the escape of a character that is no surrogate does not matter, be it an escape. -/
theorem unescape?_unit {a b c d : UInt8} (hunit : ¬IsSurrogate (escapedUnit a b c d)) (rest : Bytes) :
    unescape? (92 :: 117 :: a :: b :: c :: d :: rest) =
      (unescape? rest).map (String.utf8EncodeChar (Char.ofNat (escapedUnit a b c d)) ++ ·) := by
  rw [IsSurrogate] at hunit
  by_cases hnext : ∃ e f g h after, rest = 92 :: 117 :: e :: f :: g :: h :: after
  · obtain ⟨e, f, g, h, after, rfl⟩ := hnext
    rw [unescape?, if_neg (by omega), if_neg (by omega)]
  · rw [unescape?, if_neg hunit]
    exact fun e f g h after heq => hnext ⟨e, f, g, h, after, heq⟩

theorem unescape?_pair {a b c d e f g h : UInt8} (hhigh : 0xD800 ≤ escapedUnit a b c d ∧ escapedUnit a b c d ≤ 0xDBFF)
    (hlow : 0xDC00 ≤ escapedUnit e f g h ∧ escapedUnit e f g h ≤ 0xDFFF) (rest : Bytes) :
    unescape? (92 :: 117 :: a :: b :: c :: d :: 92 :: 117 :: e :: f :: g :: h :: rest) =
      (unescape? rest).map (String.utf8EncodeChar
        (Char.ofNat (0x10000 + (escapedUnit a b c d - 0xD800) * 0x400 + (escapedUnit e f g h - 0xDC00))) ++ ·) := by
  rw [unescape?, if_pos hhigh, if_pos hlow]

/-- Every simple escape stands for an ASCII character. -/
theorem utf8EncodeChar_simpleEscape {escape : UInt8} (hescape : isSimpleEscape escape = true) :
    String.utf8EncodeChar (Char.ofNat (simpleEscape escape).toNat) = [simpleEscape escape] := by
  have hmem : escape ∈ [34, 92, 47, 98, 102, 110, 114, 116] := List.contains_iff_mem.mp hescape
  simp only [List.mem_cons, List.not_mem_nil, or_false] at hmem
  rcases hmem with rfl | rfl | rfl | rfl | rfl | rfl | rfl | rfl <;> rfl

/-! ### Texts -/

theorem CharWritten.quotable_append {c : Char} {first rest : Bytes} (hfirst : CharWritten c first)
    (hrest : Quotable rest) : Quotable (first ++ rest) := by
  cases hfirst with
  | plain hc => exact Json.quotable_append (forall_mem_utf8EncodeChar hc) hrest
  | escape hescape => exact .escape hescape hrest
  | unit hdigits hunit => exact .unicode hdigits hrest
  | @pair a b c d e f g h hdigits hhigh hlow =>
    have hdigits' : [a, b, c, d].all isHexDigit = true ∧ [e, f, g, h].all isHexDigit = true := by
      rw [← Bool.and_eq_true, ← List.all_append]
      exact hdigits
    exact .unicode hdigits'.1 (.unicode hdigits'.2 hrest)

theorem CharWritten.unescape?_append {c : Char} {first : Bytes} (hfirst : CharWritten c first) (rest : Bytes) :
    unescape? (first ++ rest) = (unescape? rest).map (String.utf8EncodeChar c ++ ·) := by
  cases hfirst with
  | plain hc => exact Json.unescape?_append (fun byte hmem => (forall_mem_utf8EncodeChar hc byte hmem).2.2) rest
  | escape hescape =>
    rw [utf8EncodeChar_simpleEscape hescape]
    exact unescape?_escape hescape rest
  | unit _ hunit => exact unescape?_unit hunit rest
  | pair _ hhigh hlow => exact unescape?_pair hhigh hlow rest

theorem TextWritten.quotable {text : List Char} {written : Bytes} (hwritten : TextWritten text written) :
    Quotable written := by
  induction hwritten with
  | nil => exact .nil
  | cons hfirst _ ih => exact hfirst.quotable_append ih

theorem TextWritten.unescape? {text : List Char} {written : Bytes} (hwritten : TextWritten text written) :
    Json.unescape? written = some (Utf8.encode text) := by
  induction hwritten with
  | nil => rfl
  | cons hfirst _ ih =>
    rw [hfirst.unescape?_append, ih]
    rfl

/-- A written text stands for the text. -/
theorem TextWritten.decode? {text : List Char} {written : Bytes} (hwritten : TextWritten text written) :
    Json.decode? written = some text := by
  rw [Json.decode?, hwritten.unescape?, Option.bind_some, Utf8.decode?_encode]

end ContentProtection.Json
