import ContentProtection.Text.Hex

/-!
# UUIDs

A UUID is sixteen bytes. Its text has 32 hexadecimal digits, hyphenated in groups of 8, 4, 4, 4 and 12; it is written in lower case. Reading takes the digits in either case and four spellings: bare digits, hyphenated, hyphenated in braces, and hyphenated after `urn:uuid:`.

Windows formats store the first three groups least significant byte first; `ofMixedEndian` and `toMixedEndian` convert.
-/

namespace ContentProtection

structure Uuid where
  bytes : Bytes
  length_eq : bytes.length = 16
  deriving DecidableEq

namespace Uuid

def ofBytes? (bytes : Bytes) : Option Uuid :=
  if h : bytes.length = 16 then some ⟨bytes, h⟩ else none

def zero : Uuid := ⟨List.replicate 16 0, rfl⟩

/-- The last sixteen bytes of the string, with zero bytes in front when it is shorter. -/
def ofLastBytes (bytes : Bytes) : Uuid :=
  ⟨(List.replicate 16 0 ++ bytes).drop bytes.length, by
    rw [List.length_drop, List.length_append, List.length_replicate]; omega⟩

/-! ### Text -/

/-- The text: a hyphen stands after the bytes 3, 5, 7 and 9. -/
def text (uuid : Uuid) : List Char :=
  Hex.encode (uuid.bytes.take 4) ++ '-' :: Hex.encode ((uuid.bytes.drop 4).take 2)
    ++ '-' :: Hex.encode ((uuid.bytes.drop 6).take 2) ++ '-' :: Hex.encode ((uuid.bytes.drop 8).take 2)
    ++ '-' :: Hex.encode (uuid.bytes.drop 10)

def toText (uuid : Uuid) : String := String.ofList uuid.text

instance : ToString Uuid := ⟨toText⟩

/-- Reads 32 digits. -/
def ofDigits? (digits : List Char) : Option Uuid :=
  if digits.length = 32 then (Hex.decode? digits).bind ofBytes? else none

/-- Reads the hyphenated form. -/
def ofHyphenated? (text : List Char) : Option Uuid :=
  if text.length = 36 ∧ text[8]? = some '-' ∧ text[13]? = some '-' ∧ text[18]? = some '-' ∧ text[23]? = some '-' then
    ofDigits? (text.take 8 ++ (text.drop 9).take 4 ++ (text.drop 14).take 4 ++ (text.drop 19).take 4 ++ text.drop 24)
  else none

/-- The URN scheme, whose letters may have either case. -/
def scheme : List Char := "urn:uuid:".toList

/-- Reads any of the four spellings; their lengths tell them apart. -/
def ofText? (text : List Char) : Option Uuid :=
  if text.length = 32 then ofDigits? text
  else if text.length = 36 then ofHyphenated? text
  else if text.length = 38 then
    if text.head? = some '\x7b' ∧ text.getLast? = some '\x7d' then ofHyphenated? ((text.drop 1).take 36) else none
  else if text.length = 45 then
    if (text.take 9).map Char.toLower = scheme then ofHyphenated? (text.drop 9) else none
  else none

/-! ### Mixed byte order -/

/-- Reverses the groups of four, two and two bytes at the front. -/
def swapGroups (bytes : Bytes) : Bytes :=
  (bytes.take 4).reverse ++ ((bytes.drop 4).take 2).reverse ++ ((bytes.drop 6).take 2).reverse ++ bytes.drop 8

theorem length_swapGroups (bytes : Bytes) : (swapGroups bytes).length = bytes.length := by
  simp [swapGroups]; omega

/-- The UUID whose first three groups are stored least significant byte first. -/
def ofMixedEndian (stored : Uuid) : Uuid :=
  ⟨swapGroups stored.bytes, by rw [length_swapGroups, stored.length_eq]⟩

/-- The storage form with the first three groups least significant byte first. -/
def toMixedEndian (uuid : Uuid) : Bytes := swapGroups uuid.bytes

example :
    toMixedEndian ⟨[0, 1, 2, 3, 4, 5, 6, 7, 8, 9, 10, 11, 12, 13, 14, 15], rfl⟩ =
      [3, 2, 1, 0, 5, 4, 7, 6, 8, 9, 10, 11, 12, 13, 14, 15] := rfl

end Uuid

end ContentProtection
