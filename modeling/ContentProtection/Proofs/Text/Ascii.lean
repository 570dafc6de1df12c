import ContentProtection.Text.Utf8
import Mathlib.Data.List.Basic

/-!
# ASCII

A fact about all ASCII characters is a finite check. Lower case is a matter of ASCII letters alone, and in UTF-8 each ASCII character is one byte.
-/

namespace ContentProtection.Ascii

theorem forall_ascii {property : Char → Prop} (hall : ∀ code < 128, property (Char.ofNat code)) :
    ∀ c : Char, c.toNat < 128 → property c := by
  intro c hc
  rw [← Char.ofNat_toNat c]
  exact hall c.toNat hc

/-! ### Lower case -/

theorem toLower_of_not_ascii {c : Char} (hc : 128 ≤ c.toNat) : c.toLower = c := by
  refine dif_neg ?_
  rintro ⟨-, hle⟩
  have hcode : c.toNat ≤ 90 := hle
  omega

/-- What becomes a character that is no letter has been this character. -/
theorem eq_of_toLower_eq {c other : Char} (hother : other.isAlpha = false) (hc : c.toLower = other) : c = other := by
  rcases Nat.lt_or_ge c.toNat 128 with hascii | hlarge
  · have hsame : ∀ c : Char, c.toNat < 128 → c.toLower.isAlpha = false → c = c.toLower := forall_ascii (by decide)
    exact (hsame c hascii (hc ▸ hother)).trans hc
  · exact (toLower_of_not_ascii hlarge).symm.trans hc

theorem ascii_of_toLower {c : Char} (hc : c.toLower.toNat < 128) : c.toNat < 128 := by
  rcases Nat.lt_or_ge c.toNat 128 with hascii | hlarge
  · exact hascii
  · rwa [toLower_of_not_ascii hlarge] at hc

/-! ### Bytes -/

theorem encode_eq_map {text : List Char} (htext : ∀ c ∈ text, c.toNat < 128) :
    Utf8.encode text = text.map fun c => UInt8.ofNat c.toNat := by
  have hbyte : ∀ c : Char, c.toNat < 128 → String.utf8EncodeChar c = [UInt8.ofNat c.toNat] :=
    forall_ascii (by decide)
  rw [Utf8.encode, List.flatMap_congr fun c hmem => hbyte c (htext c hmem), List.map_eq_flatMap]

/-- Bytes below 128 are the characters with these codes. -/
theorem encode_map_ofNat {bytes : Bytes} (hbytes : ∀ byte ∈ bytes, byte < 128) :
    Utf8.encode (bytes.map fun byte => Char.ofNat byte.toNat) = bytes := by
  have hcode : ∀ code < 128, String.utf8EncodeChar (Char.ofNat code) = [UInt8.ofNat code] := by decide
  have hbyte : ∀ byte ∈ bytes, String.utf8EncodeChar (Char.ofNat byte.toNat) = [byte] := by
    intro byte hmem
    rw [hcode byte.toNat (UInt8.lt_iff_toNat_lt.mp (hbytes byte hmem)), UInt8.ofNat_toNat]
  rw [Utf8.encode, List.flatMap_map, List.flatMap_congr hbyte, List.flatMap_singleton']

end ContentProtection.Ascii
