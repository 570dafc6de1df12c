import ContentProtection.Bytes

/-!
# JSON tokens

JSON text as a list of tokens. A string token keeps the bytes between the quotes as written; its escapes have the right form, but what they and the other bytes stand for is only looked at by `Json.Text`.
-/

namespace ContentProtection.Json

inductive Token
  | openArray
  | closeArray
  | openObject
  | closeObject
  | comma
  | colon
  | null
  | boolean (value : Bool)
  | number
  | string (written : Bytes)
  deriving DecidableEq, Repr

def isSpace (byte : UInt8) : Bool := byte == 32 || byte == 10 || byte == 9 || byte == 13

def isDigit (byte : UInt8) : Bool := 48 ≤ byte && byte ≤ 57

def isHexDigit (byte : UInt8) : Bool :=
  isDigit byte || (65 ≤ byte && byte ≤ 70) || (97 ≤ byte && byte ≤ 102)

/-- The bytes that may follow a backslash, `u` apart. -/
def isSimpleEscape (byte : UInt8) : Bool := [34, 92, 47, 98, 102, 110, 114, 116].contains byte

/-- Reads a string from behind its opening quote. -/
def readString? : Bytes → Option (Bytes × Bytes)
  | [] => none
  | 34 :: rest => some ([], rest)
  | 92 :: 117 :: a :: b :: c :: d :: rest =>
    if [a, b, c, d].all isHexDigit then
      (readString? rest).map fun (written, rest) => (92 :: 117 :: a :: b :: c :: d :: written, rest)
    else none
  | 92 :: escape :: rest =>
    if isSimpleEscape escape then (readString? rest).map fun (written, rest) => (92 :: escape :: written, rest)
    else none
  | byte :: rest =>
    if byte < 32 ∨ byte = 92 then none else (readString? rest).map fun (written, rest) => (byte :: written, rest)

theorem length_of_readString? {bytes written rest : Bytes} (hread : readString? bytes = some (written, rest)) :
    rest.length < bytes.length := by
  fun_induction readString? bytes generalizing written rest <;> simp_all <;> grind

/-- Drops at least one digit. -/
def dropDigits? (bytes : Bytes) : Option Bytes :=
  match bytes with
  | byte :: rest => if isDigit byte then some (rest.dropWhile isDigit) else none
  | [] => none

theorem length_of_dropDigits? {bytes rest : Bytes} (hdrop : dropDigits? bytes = some rest) :
    rest.length < bytes.length := by
  unfold dropDigits? at hdrop
  split at hdrop
  · split at hdrop <;> simp only [Option.some.injEq, reduceCtorEq] at hdrop
    rw [← hdrop, List.length_cons]
    exact Nat.lt_succ_of_le (List.dropWhile_sublist _).length_le
  · simp at hdrop

/-- Drops an exponent, if there is one. -/
def dropExponent? : Bytes → Option Bytes
  | 101 :: 43 :: rest | 101 :: 45 :: rest | 69 :: 43 :: rest | 69 :: 45 :: rest => dropDigits? rest
  | 101 :: rest | 69 :: rest => dropDigits? rest
  | rest => some rest

/-- Drops a fraction, if there is one. -/
def dropFraction? : Bytes → Option Bytes
  | 46 :: rest => dropDigits? rest
  | rest => some rest

/-- Drops an integer without sign; a leading zero stands alone. -/
def dropInteger? : Bytes → Option Bytes
  | 48 :: rest => if rest.head?.any isDigit then none else some rest
  | rest => dropDigits? rest

theorem length_of_dropExponent? {bytes rest : Bytes} (hdrop : dropExponent? bytes = some rest) :
    rest.length ≤ bytes.length := by
  unfold dropExponent? at hdrop
  split at hdrop
  case h_7 => simp_all
  all_goals
    have := length_of_dropDigits? hdrop
    simp only [List.length_cons]
    omega

theorem length_of_dropFraction? {bytes rest : Bytes} (hdrop : dropFraction? bytes = some rest) :
    rest.length ≤ bytes.length := by
  unfold dropFraction? at hdrop
  split at hdrop
  · have := length_of_dropDigits? hdrop
    simp only [List.length_cons]
    omega
  · simp_all

theorem length_of_dropInteger? {bytes rest : Bytes} (hdrop : dropInteger? bytes = some rest) :
    rest.length < bytes.length := by
  unfold dropInteger? at hdrop
  split at hdrop
  · split at hdrop <;> simp_all
  · exact length_of_dropDigits? hdrop

/-- Drops a minus sign, if there is one. -/
def dropSign : Bytes → Bytes
  | 45 :: rest => rest
  | rest => rest

theorem length_dropSign_le (bytes : Bytes) : (dropSign bytes).length ≤ bytes.length := by
  unfold dropSign
  split <;> simp

def dropNumber? (bytes : Bytes) : Option Bytes :=
  (dropInteger? (dropSign bytes)).bind fun rest => (dropFraction? rest).bind dropExponent?

theorem length_of_dropNumber? {bytes rest : Bytes} (hdrop : dropNumber? bytes = some rest) :
    rest.length < bytes.length := by
  simp only [dropNumber?, Option.bind_eq_some_iff] at hdrop
  obtain ⟨afterInteger, hinteger, afterFraction, hfraction, hexponent⟩ := hdrop
  have := length_of_dropInteger? hinteger
  have := length_of_dropFraction? hfraction
  have := length_of_dropExponent? hexponent
  have := length_dropSign_le bytes
  omega

/-- Reads the token that starts with the first byte. -/
def readToken? : Bytes → Option (Token × Bytes)
  | [] => none
  | 91 :: rest => some (.openArray, rest)
  | 93 :: rest => some (.closeArray, rest)
  | 123 :: rest => some (.openObject, rest)
  | 125 :: rest => some (.closeObject, rest)
  | 44 :: rest => some (.comma, rest)
  | 58 :: rest => some (.colon, rest)
  | 110 :: 117 :: 108 :: 108 :: rest => some (.null, rest)
  | 116 :: 114 :: 117 :: 101 :: rest => some (.boolean true, rest)
  | 102 :: 97 :: 108 :: 115 :: 101 :: rest => some (.boolean false, rest)
  | 34 :: rest => (readString? rest).map fun (written, rest) => (.string written, rest)
  | bytes => (dropNumber? bytes).map fun rest => (.number, rest)

theorem length_of_readToken? {bytes rest : Bytes} {token : Token} (hread : readToken? bytes = some (token, rest)) :
    rest.length < bytes.length := by
  unfold readToken? at hread
  split at hread
  case h_11 =>
    obtain ⟨⟨written, rest'⟩, hstring, heq⟩ := Option.map_eq_some_iff.1 hread
    simp only [Prod.mk.injEq] at heq
    have := length_of_readString? hstring
    rw [← heq.2, List.length_cons]
    omega
  case h_12 =>
    obtain ⟨rest', hnumber, heq⟩ := Option.map_eq_some_iff.1 hread
    simp only [Prod.mk.injEq] at heq
    exact heq.2 ▸ length_of_dropNumber? hnumber
  all_goals simp_all <;> omega

/-- All tokens of a text; spaces may stand between them. -/
def tokens? : Bytes → Option (List Token)
  | [] => some []
  | byte :: rest =>
    if isSpace byte then tokens? rest
    else match hread : readToken? (byte :: rest) with
      | none => none
      | some (token, rest') =>
        have := length_of_readToken? hread
        (tokens? rest').map (token :: ·)
termination_by bytes => bytes.length
decreasing_by all_goals (simp only [List.length_cons] at *; omega)

end ContentProtection.Json
