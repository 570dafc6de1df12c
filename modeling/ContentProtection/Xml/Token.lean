import ContentProtection.Search
import ContentProtection.Xml.Reference

/-!
# XML tokens

A document as a list of tags, comments, instructions and pieces of text. Reading a token takes at least one character, so a document of `n` characters has at most `n` tokens. Whether the tags match and where text may stand is left to `Xml.Document`.

A document type declaration is refused, as is anything else that starts with `<!` and is neither a comment nor a character data section.
-/

namespace ContentProtection.Xml

/-- A name with what stands before its colon, which is empty when there is no colon. -/
structure QualifiedName where
  qualifier : List Char
  localName : List Char
  deriving DecidableEq, Repr

structure Attribute where
  name : QualifiedName
  value : List Char
  deriving DecidableEq, Repr

inductive Token
  | startTag (name : QualifiedName) (attributes : List Attribute) (isEmpty : Bool)
  | endTag (name : QualifiedName)
  /-- Text as written, references and line ends included. -/
  | text (written : List Char)
  | characterData (value : List Char)
  | comment
  | instruction
  deriving DecidableEq, Repr

/-! ### Names -/

/-- A name has at most one colon, and each part that is there starts as names start; the part after the colon must be there. -/
def QualifiedName.ofText? (name : List Char) : Option QualifiedName :=
  let before := name.takeWhile (· ≠ ':')
  let (qualifier, localName) := match name.dropWhile (· ≠ ':') with
    | [] => ([], before)
    | _ :: localName => (before, localName)
  if localName.contains ':' then none
  else if (qualifier.head?.all isNameStart) && localName.head?.any isNameStart then some ⟨qualifier, localName⟩
  else none

def readName (text : List Char) : Option (QualifiedName × List Char) :=
  (QualifiedName.ofText? (text.takeWhile isNameCharacter)).map fun name => (name, text.dropWhile isNameCharacter)

def skipSpaces (text : List Char) : List Char := text.dropWhile isSpace

theorem length_skipSpaces_le (text : List Char) : (skipSpaces text).length ≤ text.length :=
  (List.dropWhile_sublist _).length_le

theorem length_of_readName {text rest : List Char} {name : QualifiedName} (hread : readName text = some (name, rest)) :
    rest.length ≤ text.length := by
  simp only [readName, Option.map_eq_some_iff] at hread
  obtain ⟨_, _, heq⟩ := hread
  simp only [Prod.mk.injEq] at heq
  exact heq.2 ▸ (List.dropWhile_sublist _).length_le

/-! ### Attributes -/

/-- Reads `name = "value"`, with either quote. The value may not hold `<`. -/
def readAttribute (text : List Char) : Option (Attribute × List Char) :=
  match readName text with
  | none => none
  | some (name, rest) =>
    match skipSpaces rest with
    | '=' :: rest =>
      match skipSpaces rest with
      | quote :: rest =>
        if quote = '"' ∨ quote = '\x27' then
          let written := rest.takeWhile fun c => c ≠ quote && c ≠ '<'
          match rest.dropWhile fun c => c ≠ quote && c ≠ '<' with
          | closing :: rest =>
            if closing = quote && written.all isCharacter then
              (pieces? written).map fun pieces => (⟨name, attributeValue pieces⟩, rest)
            else none
          | [] => none
        else none
      | [] => none
    | _ => none

theorem length_of_readAttribute {text rest : List Char} {attr : Attribute}
    (hread : readAttribute text = some (attr, rest)) : rest.length < text.length := by
  unfold readAttribute at hread
  split at hread
  · simp at hread
  · rename_i name afterName hname
    have hnameLength := length_of_readName hname
    have hspaces := length_skipSpaces_le afterName
    split at hread
    · rename_i afterEquals hequals
      have hspaces' := length_skipSpaces_le afterEquals
      rw [hequals] at hspaces
      split at hread
      · rename_i quote afterQuote hquote
        rw [hquote] at hspaces'
        split at hread
        · simp only at hread
          split at hread
          · rename_i closing afterValue hclosing
            have hvalue : (afterQuote.dropWhile fun c => c ≠ quote && c ≠ '<').length ≤ afterQuote.length :=
              (List.dropWhile_sublist _).length_le
            rw [hclosing] at hvalue
            split at hread
            · obtain ⟨_, _, heq⟩ := Option.map_eq_some_iff.1 hread
              simp only [Prod.mk.injEq] at heq
              simp only [List.length_cons] at *
              rw [← heq.2]
              omega
            · simp at hread
          · simp at hread
        · simp at hread
      · simp at hread
    · simp at hread

/-- Reads attributes up to the end of a start tag, and whether the tag closes itself. Each attribute has space before it. -/
def readAttributes (text : List Char) : Option (List Attribute × Bool × List Char) :=
  match skipSpaces text with
  | '/' :: '>' :: rest => some ([], true, rest)
  | '>' :: rest => some ([], false, rest)
  | _ =>
    if text.head?.any isSpace then
      match hread : readAttribute (skipSpaces text) with
      | none => none
      | some (attr, rest) =>
        have := length_of_readAttribute hread
        have := length_skipSpaces_le text
        (readAttributes rest).map fun (attributes, isEmpty, rest) => (attr :: attributes, isEmpty, rest)
    else none
termination_by text.length

theorem length_of_readAttributes {text rest : List Char} {attributes : List Attribute} {isEmpty : Bool}
    (hread : readAttributes text = some (attributes, isEmpty, rest)) : rest.length < text.length := by
  fun_induction readAttributes text generalizing attributes isEmpty rest with
  | case1 text after hspaces | case2 text after hspaces =>
    have hle := length_skipSpaces_le text
    simp only [Option.some.injEq, Prod.mk.injEq] at hread
    simp only [hspaces, List.length_cons] at hle
    rw [← hread.2.2]
    omega
  | case3 => simp at hread
  | case4 text _ _ _ attr after hattribute hshorter hle ih =>
    obtain ⟨⟨attributes', isEmpty', rest'⟩, hnext, heq⟩ := Option.map_eq_some_iff.1 hread
    simp only [Prod.mk.injEq] at heq
    have := ih hnext
    rw [← heq.2.2]
    omega
  | case5 => simp at hread

/-! ### Tokens -/

/-- A comment may hold neither two hyphens in a row nor a hyphen before its end. -/
def isComment (text : List Char) : Bool :=
  text.all isCharacter && !Search.occurs ['-', '-'] text && text.getLast? ≠ some '-'

/-- An instruction has a name first and is not an XML declaration. -/
def isInstruction (text : List Char) : Bool :=
  text.all isCharacter && text.head?.any isNameStart && !"xml ".toList.isPrefixOf text

/-- Reads up to a closing mark. -/
def readUpTo (mark : List Char) (accepts : List Char → Bool) (token : List Char → Token) (text : List Char) :
    Option (Token × List Char) :=
  match Search.splitAtFirst? mark text with
  | some (inner, rest) => if accepts inner then some (token inner, rest) else none
  | none => none

theorem length_of_readUpTo {mark text rest : List Char} {accepts : List Char → Bool} {toToken : List Char → Token}
    {token : Token} (hread : readUpTo mark accepts toToken text = some (token, rest)) : rest.length ≤ text.length := by
  unfold readUpTo at hread
  split at hread
  · rename_i inner after hsplit
    split at hread
    · simp at hread
      exact hread.2 ▸ Search.length_of_splitAtFirst? hsplit
    · simp at hread
  · simp at hread

def readStartTag (text : List Char) : Option (Token × List Char) :=
  match readName text with
  | none => none
  | some (name, rest) =>
    (readAttributes rest).map fun (attributes, isEmpty, rest) => (.startTag name attributes isEmpty, rest)

def readEndTag (text : List Char) : Option (Token × List Char) :=
  match readName text with
  | none => none
  | some (name, rest) =>
    match skipSpaces rest with
    | '>' :: rest => some (.endTag name, rest)
    | _ => none

/-- Reads what starts with `<`, from the character after it. -/
def readMarkup : List Char → Option (Token × List Char)
  | '!' :: '-' :: '-' :: rest => readUpTo ['-', '-', '>'] isComment (fun _ => .comment) rest
  | '!' :: '[' :: 'C' :: 'D' :: 'A' :: 'T' :: 'A' :: '[' :: rest =>
    readUpTo [']', ']', '>'] (·.all isCharacter) (fun inner => .characterData (textValue (inner.map .literal))) rest
  | '?' :: rest => readUpTo ['?', '>'] isInstruction (fun _ => .instruction) rest
  | '/' :: rest => readEndTag rest
  | rest => readStartTag rest

theorem length_of_readMarkup {text rest : List Char} {token : Token} (hread : readMarkup text = some (token, rest)) :
    rest.length ≤ text.length := by
  unfold readMarkup at hread
  split at hread
  · have := length_of_readUpTo hread
    simp only [List.length_cons]
    omega
  · have := length_of_readUpTo hread
    simp only [List.length_cons]
    omega
  · have := length_of_readUpTo hread
    simp only [List.length_cons]
    omega
  · unfold readEndTag at hread
    split at hread
    · simp at hread
    · rename_i name after hname
      have hnameLength := length_of_readName hname
      have hspaces := length_skipSpaces_le after
      split at hread
      · simp at hread
        simp_all
        omega
      · simp at hread
  · unfold readStartTag at hread
    split at hread
    · simp at hread
    · rename_i name after hname
      have hnameLength := length_of_readName hname
      obtain ⟨⟨attributes, isEmpty, rest'⟩, hattributes, heq⟩ := Option.map_eq_some_iff.1 hread
      simp only [Prod.mk.injEq] at heq
      have := length_of_readAttributes hattributes
      rw [← heq.2]
      omega

/-- Reads text up to the next `<`. It may not hold `]]>`. -/
def readText (text : List Char) : Option (Token × List Char) :=
  let written := text.takeWhile (· ≠ '<')
  if written.all isCharacter && !Search.occurs [']', ']', '>'] written then
    some (.text written, text.dropWhile (· ≠ '<'))
  else none

theorem length_of_readText {c : Char} {text rest : List Char} {token : Token} (hc : c ≠ '<')
    (hread : readText (c :: text) = some (token, rest)) : rest.length ≤ text.length := by
  unfold readText at hread
  simp only [Option.ite_none_right_eq_some, Option.some.injEq, Prod.mk.injEq] at hread
  rw [← hread.2.2, List.dropWhile_cons_of_pos (by simpa using hc)]
  exact (List.dropWhile_sublist _).length_le

/-- All tokens of a text. -/
def tokens? : List Char → Option (List Token)
  | [] => some []
  | c :: text =>
    if hc : c = '<' then
      match hread : readMarkup text with
      | none => none
      | some (token, rest) =>
        have := length_of_readMarkup hread
        (tokens? rest).map (token :: ·)
    else
      match hread : readText (c :: text) with
      | none => none
      | some (token, rest) =>
        have := length_of_readText hc hread
        (tokens? rest).map (token :: ·)
termination_by text => text.length

/-! ### The declaration -/

def readDeclarationSpace (text : List Char) : Option (List Char) :=
  if text.head?.any isSpace then some (skipSpaces text)
  else if text.isEmpty || ['?', '>'].isPrefixOf text then some text
  else none

/-- Reads an attribute of the declaration when its name starts with `name`. -/
def readDeclared (name : List Char) (text : List Char) : Option (List Char) :=
  if name.isPrefixOf text then (readAttribute text).map Prod.snd else some text

/-- Drops an XML declaration: the version, which must be there, then the encoding and whether the document stands alone. -/
def dropDeclaration? (text : List Char) : Option (List Char) :=
  match Search.dropMarker? "<?xml ".toList text with
  | none => some text
  | some rest => do
    let rest := skipSpaces rest
    let rest ← if "version".toList.isPrefixOf rest then readDeclared "version".toList rest else none
    let rest ← readDeclarationSpace rest
    let rest ←
      if "encoding".toList.isPrefixOf rest then (readDeclared "encoding".toList rest).bind readDeclarationSpace
      else some rest
    let rest ← readDeclared "standalone".toList rest
    Search.dropMarker? ['?', '>'] (skipSpaces rest)

/-- Drops a byte order mark. -/
def dropByteOrderMark : List Char → List Char
  | '\uFEFF' :: text => text
  | text => text

end ContentProtection.Xml
