import ContentProtection.Json.Value
import ContentProtection.Json.Text

/-!
# The grammar of JSON

What it is for a text to be written in JSON, whatever reads it. A value is a list of tokens, and a text consists of these tokens with any spaces around them. Numbers may be written in any way, and so may the characters of a string.
-/

namespace ContentProtection.Json

/-! ### Numbers -/

def IsDigits (bytes : Bytes) : Prop := bytes ≠ [] ∧ ∀ byte ∈ bytes, isDigit byte = true

/-- A zero stands alone. -/
def IsInteger (bytes : Bytes) : Prop := bytes = [48] ∨ IsDigits bytes ∧ bytes.head? ≠ some 48

def IsFraction (bytes : Bytes) : Prop := bytes = [] ∨ ∃ digits, IsDigits digits ∧ bytes = 46 :: digits

def IsExponent (bytes : Bytes) : Prop :=
  bytes = [] ∨ ∃ mark ∈ [101, 69], ∃ sign ∈ [[], [43], [45]], ∃ digits, IsDigits digits ∧
    bytes = mark :: sign ++ digits

def IsNumber (bytes : Bytes) : Prop :=
  ∃ sign ∈ [[], [45]], ∃ integer fraction exponent, IsInteger integer ∧ IsFraction fraction ∧ IsExponent exponent ∧
    bytes = sign ++ integer ++ fraction ++ exponent

/-- A text that no number goes on with. -/
def EndsNumber (text : Bytes) : Prop :=
  ∀ byte ∈ text.head?, isDigit byte = false ∧ byte ≠ 46 ∧ byte ≠ 101 ∧ byte ≠ 69

/-! ### Strings -/

/-- What can stand between the quotes of a string, escapes and all. -/
inductive Quotable : Bytes → Prop
  | nil : Quotable []
  | byte {byte : UInt8} {rest : Bytes} (hbyte : 32 ≤ byte ∧ byte ≠ 34 ∧ byte ≠ 92) (hrest : Quotable rest) :
    Quotable (byte :: rest)
  | escape {escape : UInt8} {rest : Bytes} (hescape : isSimpleEscape escape = true) (hrest : Quotable rest) :
    Quotable (92 :: escape :: rest)
  | unicode {a b c d : UInt8} {rest : Bytes} (hdigits : [a, b, c, d].all isHexDigit = true) (hrest : Quotable rest) :
    Quotable (92 :: 117 :: a :: b :: c :: d :: rest)

/-- A character that stands for itself. -/
def isPlain (c : Char) : Bool := 32 ≤ c.toNat && c != '"' && c != '\\'

def IsSurrogate (unit : Nat) : Prop := 0xD800 ≤ unit ∧ unit ≤ 0xDFFF

/-- The ways to write one character of a string. -/
inductive CharWritten : Char → Bytes → Prop
  | plain {c : Char} (hc : isPlain c = true) : CharWritten c (String.utf8EncodeChar c)
  | escape {escape : UInt8} (hescape : isSimpleEscape escape = true) :
    CharWritten (Char.ofNat (simpleEscape escape).toNat) [92, escape]
  | unit {a b c d : UInt8} (hdigits : [a, b, c, d].all isHexDigit = true)
    (hunit : ¬IsSurrogate (escapedUnit a b c d)) :
    CharWritten (Char.ofNat (escapedUnit a b c d)) [92, 117, a, b, c, d]
  | pair {a b c d e f g h : UInt8} (hdigits : [a, b, c, d, e, f, g, h].all isHexDigit = true)
    (hhigh : 0xD800 ≤ escapedUnit a b c d ∧ escapedUnit a b c d ≤ 0xDBFF)
    (hlow : 0xDC00 ≤ escapedUnit e f g h ∧ escapedUnit e f g h ≤ 0xDFFF) :
    CharWritten
      (Char.ofNat (0x10000 + (escapedUnit a b c d - 0xD800) * 0x400 + (escapedUnit e f g h - 0xDC00)))
      [92, 117, a, b, c, d, 92, 117, e, f, g, h]

/-- A text as it may be written between quotes. -/
inductive TextWritten : List Char → Bytes → Prop
  | nil : TextWritten [] []
  | cons {c : Char} {text : List Char} {first rest : Bytes} (hfirst : CharWritten c first)
    (hrest : TextWritten text rest) : TextWritten (c :: text) (first ++ rest)

/-! ### Tokens -/

inductive Token.Written : Token → Bytes → Prop
  | openArray : Written .openArray [91]
  | closeArray : Written .closeArray [93]
  | openObject : Written .openObject [123]
  | closeObject : Written .closeObject [125]
  | comma : Written .comma [44]
  | colon : Written .colon [58]
  | null : Written .null [110, 117, 108, 108]
  | booleanTrue : Written (.boolean true) [116, 114, 117, 101]
  | booleanFalse : Written (.boolean false) [102, 97, 108, 115, 101]
  | number {bytes : Bytes} (hnumber : IsNumber bytes) : Written .number bytes
  | string {written : Bytes} (hwritten : Quotable written) : Written (.string written) (34 :: written ++ [34])

/-- A text of these tokens. A number is as long as it can be. -/
inductive Spelled : List Token → Bytes → Prop
  | nil : Spelled [] []
  | space {byte : UInt8} {tokens : List Token} {text : Bytes} (hspace : isSpace byte = true)
    (hrest : Spelled tokens text) : Spelled tokens (byte :: text)
  | token {token : Token} {tokens : List Token} {first text : Bytes} (hfirst : token.Written first)
    (hends : token = .number → EndsNumber text) (hrest : Spelled tokens text) :
    Spelled (token :: tokens) (first ++ text)

/-! ### Values -/

mutual

/-- The tokens of a value, in order. -/
def Value.tokens : Value → List Token
  | .null => [.null]
  | .boolean value => [.boolean value]
  | .number => [.number]
  | .string written => [.string written]
  | .array items => .openArray :: itemTokens items ++ [.closeArray]
  | .object members => .openObject :: memberTokens members ++ [.closeObject]

def itemTokens : List Value → List Token
  | [] => []
  | [item] => item.tokens
  | item :: rest => item.tokens ++ .comma :: itemTokens rest

def memberTokens : List (Bytes × Value) → List Token
  | [] => []
  | [(key, value)] => .string key :: .colon :: value.tokens
  | (key, value) :: rest => .string key :: .colon :: value.tokens ++ .comma :: memberTokens rest

end

/-- A text that is a value written in JSON. -/
def Value.Written (value : Value) (text : Bytes) : Prop := Spelled value.tokens text

end ContentProtection.Json
