import ContentProtection.Yaml.Gap

/-!
# Plain scalars

Scalars without quotes: words with gaps between them. A plain scalar ends at a comment, at a document marker, where a key ends, at an indicator of a flow collection it stands in, and on a line that is not indented more than the collection it belongs to.
-/

namespace ContentProtection.Yaml

/-- What marks the structure of a flow collection. -/
def isFlowIndicator (c : Char) : Bool := c == ',' || c == '[' || c == ']' || c == '\x7b' || c == '\x7d'

/-- Whether a colon here ends a key, in a block collection or before a value that is set off. -/
def endsKey : List Char → Bool
  | ':' :: rest => endsWord rest
  | _ => false

/-- Whether a colon stands directly before a flow indicator or a question mark, which a plain scalar in a flow collection may not hold. -/
def isMisplacedColon : List Char → Bool
  | ':' :: c :: _ => isFlowIndicator c || c == '?'
  | _ => false

/-- Reads a word of a plain scalar, which may be empty. -/
def readWord (inFlow : Bool) : List Char → Option (List Char × List Char)
  | [] => some ([], [])
  | c :: rest =>
    if endsWord (c :: rest) then some ([], c :: rest)
    else if inFlow && isMisplacedColon (c :: rest) then none
    else if endsKey (c :: rest) || (inFlow && isFlowIndicator c) then some ([], c :: rest)
    else (readWord inFlow rest).map fun (word, rest) => (c :: word, rest)

theorem length_of_readWord {inFlow : Bool} {text word rest : List Char}
    (hread : readWord inFlow text = some (word, rest)) : word.length + rest.length = text.length := by
  fun_induction readWord inFlow text generalizing word rest with
  | case1 => simp_all
  | case2 | case4 =>
    simp only [Option.some.injEq, Prod.mk.injEq] at hread
    obtain ⟨rfl, rfl⟩ := hread
    simp
  | case3 => simp at hread
  | case5 c rest _ _ _ ih =>
    obtain ⟨⟨word, rest⟩, hword, heq⟩ := Option.map_eq_some_iff.1 hread
    simp only [Prod.mk.injEq] at heq
    obtain ⟨rfl, rfl⟩ := heq
    have := ih hword
    simp only [List.length_cons]
    omega

structure Plain where
  value : List Char
  /-- Whether a line break follows, before the next token. -/
  endsLine : Bool
  deriving DecidableEq, Repr

/-- Whether a plain scalar cannot go on after this gap. -/
def Gap.endsPlain (gap : Gap) (text : List Char) : Bool :=
  (gap.hasBreak && gap.column == 0 && startsDocumentMarker text) || text.head? == some '#'

/-- Reads the words from here on, after the given value and gap. -/
def readWords (inFlow : Bool) (indent : Nat) (value : List Char) (gap : Gap) (text : List Char) :
    Option (Plain × List Char) :=
  if gap.endsPlain text then some (⟨value, gap.hasBreak⟩, text)
  else match hword : readWord inFlow text with
    | none => none
    | some ([], _) => some (⟨value, gap.hasBreak⟩, text)
    | some (c :: word, rest) =>
      let value := value ++ gap.fold ++ c :: word
      match hrest : rest with
      | [] => some (⟨value, false⟩, [])
      | d :: after =>
        if hd : isBlank d = true ∨ isBreak d = true then
          let next := readGap indent (d :: after)
          have : next.2.length < text.length := by
            have hgap := length_readGap_lt indent after hd
            have hlength := length_of_readWord hword
            simp only [List.length_cons] at hlength hgap
            show (readGap indent (d :: after)).2.length < text.length
            omega
          if next.1.hasEarlyTab then none
          else if !inFlow && next.1.hasBreak && next.1.column < indent then some (⟨value, true⟩, next.2)
          else readWords inFlow indent value next.1 next.2
        else some (⟨value, false⟩, d :: after)
termination_by text.length

/-- Reads a plain scalar whose further lines start at the column `indent` or beyond. -/
def readPlain (inFlow : Bool) (indent : Nat) (text : List Char) : Option (Plain × List Char) :=
  readWords inFlow indent [] {} text

end ContentProtection.Yaml
