import ContentProtection.Text.Hex
import ContentProtection.Text.Utf8
import ContentProtection.Yaml.Character

/-!
# Anchors and tags

The names of anchors, and tags as they stand in text: a handle, which a directive or the language itself gives a meaning, and a suffix. A tag without a handle stands for itself. Bytes beyond ASCII are written as `%` and two hexadecimal digits.
-/

namespace ContentProtection.Yaml

/-- Splits off the longest name made of word characters. -/
def readName (text : List Char) : List Char × List Char :=
  (text.takeWhile isWordCharacter, text.dropWhile isWordCharacter)

/-- Whether an anchor or an alias may end here. -/
def endsAnchor (text : List Char) : Bool := endsWord text || text.head?.any ("?:,]\x7d%@\x60".toList.contains ·)

/-- Reads the name of an anchor or an alias, from behind its indicator. -/
def readAnchor (text : List Char) : Option (List Char × List Char) :=
  let (name, rest) := readName text
  if !name.isEmpty && endsAnchor rest then some (name, rest) else none

/-! ### Tags -/

structure TagName where
  /-- Starts and ends with an exclamation mark, or is empty. -/
  handle : List Char
  suffix : Bytes
  deriving DecidableEq, Repr

def isTagCharacter (c : Char) : Bool := isWordCharacter c || ";/?:@&=+$.!~*\x27()".toList.contains c

/-- What may also stand in a tag between angle brackets and in the meaning of a handle. -/
def isLongTagCharacter (c : Char) : Bool := isTagCharacter c || ",[]".toList.contains c

/-- Reads `%` and two hexadecimal digits. -/
def readEscapedByte : List Char → Option (UInt8 × List Char)
  | '%' :: high :: low :: rest =>
    match Hex.value? high, Hex.value? low with
    | some high, some low => some (UInt8.ofNat (16 * high + low), rest)
    | _, _ => none
  | _ => none

/-- How many bytes a character has, by the first of them. -/
def characterWidth? (first : UInt8) : Option Nat :=
  if first &&& 0x80 == 0 then some 1
  else if first &&& 0xE0 == 0xC0 then some 2
  else if first &&& 0xF0 == 0xE0 then some 3
  else if first &&& 0xF8 == 0xF0 then some 4
  else none

/-- Reads the given number of escaped bytes that go on with a character. -/
def readContinuation : Nat → List Char → Option (Bytes × List Char)
  | 0, text => some ([], text)
  | count + 1, text => do
    let (byte, rest) ← readEscapedByte text
    if byte &&& 0xC0 ≠ 0x80 then none
    let (bytes, rest) ← readContinuation count rest
    pure (byte :: bytes, rest)

/-- Reads the escaped bytes of a character. -/
def readEscapedCharacter (text : List Char) : Option (Bytes × List Char) := do
  let (first, rest) ← readEscapedByte text
  let width ← characterWidth? first
  let (bytes, rest) ← readContinuation (width - 1) rest
  pure (first :: bytes, rest)

theorem length_of_readEscapedByte {text rest : List Char} {byte : UInt8}
    (hread : readEscapedByte text = some (byte, rest)) : rest.length < text.length := by
  unfold readEscapedByte at hread
  split at hread
  · split at hread <;> simp only [Option.some.injEq, Prod.mk.injEq, reduceCtorEq] at hread
    rw [← hread.2]
    simp only [List.length_cons]
    omega
  · simp at hread

theorem length_of_readContinuation {count : Nat} {text rest : List Char} {bytes : Bytes}
    (hread : readContinuation count text = some (bytes, rest)) : rest.length ≤ text.length := by
  induction count generalizing text bytes with
  | zero => simp_all [readContinuation]
  | succ count ih =>
    simp only [readContinuation, Option.bind_eq_bind, Option.bind_eq_some_iff] at hread
    obtain ⟨⟨byte, afterByte⟩, hbyte, hread⟩ := hread
    have hshorter := length_of_readEscapedByte hbyte
    simp only at hread
    split at hread
    · simp at hread
    · simp only [Option.pure_def, Option.bind_eq_some_iff, Option.some.injEq, Prod.mk.injEq] at hread
      obtain ⟨⟨_, _⟩, hcontinuation, _, rfl⟩ := hread
      exact Nat.le_trans (ih hcontinuation) (Nat.le_of_lt hshorter)

theorem length_of_readEscapedCharacter {text rest : List Char} {bytes : Bytes}
    (hread : readEscapedCharacter text = some (bytes, rest)) : rest.length < text.length := by
  simp only [readEscapedCharacter, Option.bind_eq_bind, Option.bind_eq_some_iff, Option.pure_def, Option.some.injEq,
    Prod.mk.injEq] at hread
  obtain ⟨⟨_, _⟩, hfirst, _, _, ⟨_, _⟩, hcontinuation, _, rfl⟩ := hread
  exact Nat.lt_of_le_of_lt (length_of_readContinuation hcontinuation) (length_of_readEscapedByte hfirst)

/-- Reads the characters of a tag of the given class, which has `%` for escapes besides. -/
def readTagText (isMember : Char → Bool) (text : List Char) : Option (Bytes × List Char) :=
  match text with
  | [] => some ([], [])
  | c :: rest =>
    if c = '%' then
      match hescape : readEscapedCharacter (c :: rest) with
      | none => none
      | some (bytes, after) =>
        have := length_of_readEscapedCharacter hescape
        (readTagText isMember after).map fun (further, rest) => (bytes ++ further, rest)
    else if isMember c then
      (readTagText isMember rest).map fun (further, rest) => (Utf8.encode [c] ++ further, rest)
    else some ([], c :: rest)
termination_by text.length
decreasing_by all_goals (simp only [List.length_cons] at *; omega)

/-- Reads a handle: an exclamation mark, a name, and a second exclamation mark if there is one. -/
def readHandle : List Char → Option (List Char × List Char)
  | '!' :: rest =>
    match readName rest with
    | (name, '!' :: rest) => some ('!' :: name ++ ['!'], rest)
    | (name, rest) => some ('!' :: name, rest)
  | _ => none

/-- Reads a tag: a text between angle brackets, a handle with a suffix, a suffix alone, or an exclamation mark alone, which is a tag of its own. -/
def readTagName (text : List Char) : Option (TagName × List Char) :=
  match text with
  | '!' :: '<' :: rest =>
    match readTagText isLongTagCharacter rest with
    | some (suffix, '>' :: rest) => if suffix.isEmpty then none else some (⟨[], suffix⟩, rest)
    | _ => none
  | _ => do
    let (handle, rest) ← readHandle text
    if handle.length > 1 && handle.getLast? == some '!' then
      let (suffix, rest) ← readTagText isTagCharacter rest
      if suffix.isEmpty then none else some (⟨handle, suffix⟩, rest)
    else
      let (suffix, rest) ← readTagText isTagCharacter rest
      let suffix := Utf8.encode (handle.drop 1) ++ suffix
      some (if suffix.isEmpty then ⟨[], Utf8.encode ['!']⟩ else ⟨['!'], suffix⟩, rest)

/-- Reads a tag where a node may have one. -/
def readTag (inFlow : Bool) (text : List Char) : Option (TagName × List Char) := do
  let (tag, rest) ← readTagName text
  if endsWord rest || (inFlow && rest.head? == some ',') then some (tag, rest) else none

end ContentProtection.Yaml
