import ContentProtection.Proofs.Yaml.Layout
import ContentProtection.Yaml.Content

/-!
# Lines of block collections

Behind a line break nothing is left of a key that might have started before it, so what the lines from there on give depends on the tokens and the open columns alone: `ReadsLines`. From it follows what a line in front of them gives, for each kind of line that is written: a key with its value, and an item of a sequence.
-/

namespace ContentProtection.Yaml

open Scalar (spaces)

/-- An item of a sequence in line with its key. -/
def Content.itemTokens (value : List Char) : List Token := [.blockEntry, .scalar (Scalar.style value) value]

namespace Layout

/-- What reading on gives where a line has come to its first token, at the given column. -/
def ReadsFrom (tokens : List Token) (columns : List Nat) (column : Nat) (text : List Char) (all : List Token) : Prop :=
  ∀ position : Position, position.column = column → (block tokens columns true).readTokens ⟨position, text⟩ = some all

/-- What reading the lines from here on gives; the first of them starts at the given column or before it. -/
def ReadsLines (tokens : List Token) (columns : List Nat) (bound : Nat) (body : List Char) (all : List Token) : Prop :=
  ∃ column text, body = spaces column ++ text ∧ column ≤ bound ∧ (text = [] ∨ StartsToken text)
    ∧ ReadsFrom tokens columns column text all

/-- What reading on behind a key and its colon gives. -/
def ReadsValue (tokens : List Token) (columns : List Nat) (column : Nat) (text : List Char) (all : List Token) : Prop :=
  ∀ position : Position, column < position.column →
    (block tokens (column :: columns) false).readTokens ⟨position, text⟩ = some all

variable {tokens all : List Token} {columns : List Nat} {column bound : Nat} {body : List Char}

theorem ReadsLines.nil (tokens : List Token) (columns : List Nat) (bound : Nat) :
    ReadsLines tokens columns bound [] (tokens ++ List.replicate columns.length .blockEnd) :=
  ⟨0, [], rfl, Nat.zero_le _, .inl rfl, fun position _ => by
    rw [readTokens_end]
    rfl⟩

/-- Lines that start before the column of the innermost collection end it. -/
theorem ReadsLines.close (hcolumn : bound < column)
    (hlines : ReadsLines (tokens ++ [.blockEnd]) columns bound body all) :
    ReadsLines tokens (column :: columns) column body all := by
  obtain ⟨start, text, hbody, hbound, htext, hread⟩ := hlines
  have hstart : start < column := Nat.lt_of_le_of_lt hbound hcolumn
  refine ⟨start, text, hbody, Nat.le_of_lt hstart, htext, fun position hposition => ?_⟩
  rw [readTokens_close tokens columns (htext.imp_right fun htoken => ⟨htoken, hposition ▸ hstart⟩)]
  exact hread position hposition

/-- At the end of a line, whatever key might have started on it is forgotten. -/
theorem ReadsLines.readTokens {layout : Layout} (hlines : ReadsLines layout.tokens layout.columns bound body all)
    (hflow : layout.outerKeys = []) {position : Position}
    (hkeys : ∀ key ∈ layout.possibleKey?, key.isRequired = false ∧ key.position.line ≤ position.line) :
    layout.readTokens ⟨position, '\n' :: body⟩ = some all := by
  obtain ⟨start, text, rfl, -, htext, hread⟩ := hlines
  have hskip : skipSeparation layout.inFlow layout.allowsKey (position.column == 0) false
      ('\n' :: spaces start ++ text) = (true, text) := by
    have hinFlow : layout.inFlow = false := by simp [inFlow, hflow]
    rw [List.cons_append, skipSeparation, if_pos (by decide), hinFlow, Bool.not_false, Bool.or_true,
      skipSeparation_spaces _ _ _ _ htext]
  refine readTokens_of_skipped hskip htext ?_
  rw [Position.after_lineBreak, readTokens_of_pastKey { layout with allowsKey := true } htext hflow
    fun key hkey => ⟨(hkeys key hkey).1, Nat.lt_succ_of_le (hkeys key hkey).2⟩]
  exact hread _ rfl

/-! ### Scalars -/

section Scalars

variable {value : List Char} {allowsKey : Bool} {position : Position} (hposition : column < position.column)

include hposition

/-- Where no key is required, a node may start; what starts here is a possible key at most. -/
theorem startNode_block (tokens : List Token) (columns : List Nat) (allowsKey : Bool) :
    ∃ key? : Option PossibleKey, (∀ key ∈ key?, key.isRequired = false ∧ key.position.line = position.line) ∧
      (block tokens (column :: columns) allowsKey).startNode position =
        some (block tokens (column :: columns) false key?) := by
  cases allowsKey with
  | false => exact ⟨none, by simp, rfl⟩
  | true =>
    refine ⟨some ⟨tokens.length, position, false⟩, by simp, ?_⟩
    have hcolumn : column ≠ position.column := Nat.ne_of_lt hposition
    simp [startNode, noteKey, dropKey, block, inFlow, hcolumn]

theorem closeBlocks_within (tokens : List Token) (columns : List Nat) (allowsKey : Bool) :
    (block tokens (column :: columns) allowsKey).closeBlocks position.column =
      block tokens (column :: columns) allowsKey :=
  closeBlocks_of_le (by rintro _ ⟨⟩; exact Nat.le_of_lt hposition)

/-- A plain scalar is read with the end of its line and the indentation of the next one. -/
theorem ReadsLines.plain (hvalue : IsPlainText value) (hstart : Scalar.startsWithIndicator value = false)
    (hlines : ReadsLines (tokens ++ [.scalar .plain value]) (column :: columns) column body all) :
    (block tokens (column :: columns) allowsKey).readTokens ⟨position, value ++ '\n' :: body⟩ = some all := by
  obtain ⟨start, text, rfl, hbound, htext, hread⟩ := hlines
  have hgap : EndsGap text := by
    rcases htext with rfl | htoken
    · rintro _ ⟨⟩
    · exact htoken.endsGap
  have hplain := hvalue.readPlain (Nat.lt_succ_of_le hbound) hgap
  obtain ⟨key?, hkeys, hnode⟩ := startNode_block hposition tokens columns allowsKey
  have htoken : (block tokens (column :: columns) allowsKey).readToken
      ⟨position, value ++ ('\n' :: spaces start ++ text)⟩ =
        some (block (tokens ++ [.scalar .plain value]) (column :: columns) true key?, text) := by
    rw [readToken_of_plainText hvalue hstart rfl fun hzero => absurd (hzero ▸ hposition) (Nat.not_lt_zero _),
      Layout.readPlain, hnode]
    change (Yaml.readPlain false (column + 1) _).bind _ = _
    rw [hplain]
    rfl
  have hunbroken : ∀ c ∈ value, isBreak c = false := fun c hc => isBreak_of_printable (hvalue.printable c hc)
  have hfirst : StartsToken (value ++ ('\n' :: spaces start ++ text)) := hvalue.startsToken _
  rw [← List.append_assoc] at hfirst htoken
  rw [← List.cons_append, ← List.append_assoc,
    readTokens_step (by simp) hfirst (dropPastKeys_block _ _ _ _) (closeBlocks_within hposition _ _ _) htoken,
    position.after_append hunbroken, Position.after_lineBreak, position.after_of_unbroken hunbroken,
    readTokens_of_pastKey _ htext rfl fun key hkey =>
      ⟨(hkeys key hkey).1, Nat.lt_succ_of_le (Nat.le_of_eq (hkeys key hkey).2)⟩]
  exact hread _ rfl

/-- A text between single quotes is read up to the second of them. -/
theorem ReadsLines.singleQuoted (indent : Nat) (hvalue : IsPrintableAscii value)
    (hlines : ReadsLines (tokens ++ [.scalar .singleQuoted value]) (column :: columns) column body all) :
    (block tokens (column :: columns) allowsKey).readTokens
      ⟨position, '\x27' :: Scalar.singleQuoted indent false value ++ ['\x27'] ++ '\n' :: body⟩ = some all := by
  have hquoted : Yaml.readSingleQuoted (Scalar.singleQuoted indent false value ++ '\x27' :: '\n' :: body) =
      some (value, '\n' :: body) := readSingleQuoted_append indent hvalue 0 ('\n' :: body) (by simp)
  obtain ⟨key?, hkeys, hnode⟩ := startNode_block hposition tokens columns allowsKey
  have htoken : (block tokens (column :: columns) allowsKey).readToken
      ⟨position, '\x27' :: Scalar.singleQuoted indent false value ++ ['\x27'] ++ '\n' :: body⟩ =
        some (block (tokens ++ [.scalar .singleQuoted value]) (column :: columns) false key?, '\n' :: body) := by
    rw [List.append_assoc, List.cons_append, readToken_of_quote, readNode, hnode]
    change (Yaml.readSingleQuoted (_ ++ '\x27' :: '\n' :: body)).bind _ = _
    rw [hquoted]
    rfl
  have hunbroken : ∀ c ∈ '\x27' :: Scalar.singleQuoted indent false value ++ ['\x27'], isBreak c = false :=
    fun c hc => isBreak_of_printable (printable_singleQuoted indent hvalue c hc)
  rw [readTokens_step (by simp) ⟨'\x27', rfl, by decide⟩ (dropPastKeys_block _ _ _ _)
    (closeBlocks_within hposition _ _ _) htoken, position.after_of_unbroken hunbroken]
  exact hlines.readTokens rfl fun key hkey => ⟨(hkeys key hkey).1, Nat.le_of_eq (hkeys key hkey).2⟩

/-- A scalar behind a space, up to the end of its line. -/
theorem ReadsLines.text (indent : Nat) (hvalue : IsPrintableAscii value)
    (hlines : ReadsLines (tokens ++ [.scalar (Scalar.style value) value]) (column :: columns) column body all) :
    (block tokens (column :: columns) allowsKey).readTokens
      ⟨position, ' ' :: (Scalar.endLine (Scalar.write indent value) ++ body)⟩ = some all := by
  have hbehind : column < position.column + 1 := Nat.lt_succ_of_lt hposition
  rw [endLine_of_printable (printable_write hvalue indent), List.append_assoc, Scalar.write]
  rcases style_of_printable hvalue with ⟨hplain, htext, hstart⟩ | hquoted
  · rw [hplain] at hlines ⊢
    refine readTokens_of_space (htext.startsToken _) (hlines.plain ?_ htext hstart)
    exact hbehind
  · rw [hquoted] at hlines ⊢
    refine readTokens_of_space ⟨'\x27', rfl, by decide⟩ (hlines.singleQuoted ?_ indent hvalue)
    exact hbehind

/-- A name as a value. -/
theorem ReadsLines.name (hvalue : IsName value)
    (hlines : ReadsLines (tokens ++ [.scalar .plain value]) (column :: columns) column body all) :
    (block tokens (column :: columns) allowsKey).readTokens
      ⟨position, ' ' :: (Scalar.endLine value ++ body)⟩ = some all := by
  rw [endLine_of_printable hvalue.printable, List.append_assoc]
  refine readTokens_of_space (hvalue.isPlainText.startsToken _)
    (hlines.plain ?_ hvalue.isPlainText hvalue.startsWithIndicator)
  exact Nat.lt_succ_of_lt hposition

end Scalars

/-! ### Keys -/

theorem insertIdx_length_append {α : Type} (front rest : List α) (a : α) :
    (front ++ rest).insertIdx front.length a = front ++ a :: rest := by
  induction front with
  | nil => rfl
  | cons b front ih => simpa using ih

theorem startValue_first {position : Position} (hcolumns : ∀ innermost ∈ columns.head?, innermost < position.column)
    (node : Token) (isRequired : Bool) (column : Nat) :
    (block (tokens ++ [node]) columns false (some ⟨tokens.length, position, isRequired⟩)).startValue column =
      some (block (tokens ++ [.blockMappingStart, .key, node, .value]) (position.column :: columns) false) := by
  rw [startValue.eq_def]
  dsimp only [block]
  rw [openBlock_beyond rfl hcolumns, insertIdx_length_append, insertIdx_length_append]
  simp [push]

theorem startValue_further {position : Position} (node : Token) (isRequired : Bool) (column : Nat) :
    (block (tokens ++ [node]) (position.column :: columns) false
      (some ⟨tokens.length, position, isRequired⟩)).startValue column =
        some (block (tokens ++ [.key, node, .value]) (position.column :: columns) false) := by
  rw [startValue.eq_def]
  dsimp only [block]
  rw [openBlock_open rfl, insertIdx_length_append]
  simp [push]

theorem column_behind_key {name : List Char} (hname : IsName name) (position : Position) :
    position.column < ((position.after name).after [':']).column := by
  rw [position.after_of_unbroken fun c hc => isBreak_of_printable (hname.printable c hc),
    Position.after_of_unbroken _ (List.forall_mem_singleton.mpr (by decide))]
  simp only [List.length_singleton]
  omega

section Keys

variable {name rest : List Char} (hname : IsName name) (hlength : name.length ≤ 1024) (hrest : endsWord rest = true)

include hname hlength hrest

/-- A name with a colon behind it is read as a node that turns out to be a key. -/
theorem readTokens_key {position : Position} (hcolumns : ∀ innermost ∈ columns.head?, innermost ≤ position.column)
    {next : Layout}
    (hvalue : (block (tokens ++ [.scalar .plain name]) columns false
      (some ⟨tokens.length, position, columns.head? == some position.column⟩)).startValue
        (position.column + name.length) = some next) :
    (block tokens columns true).readTokens ⟨position, name ++ ':' :: rest⟩ =
      next.readTokens ⟨(position.after name).after [':'], rest⟩ := by
  have hclosed (key? : Option PossibleKey) (tokens : List Token) (allowsKey : Bool) {column : Nat}
      (hcolumn : position.column ≤ column) :
      (block tokens columns allowsKey key?).closeBlocks column = block tokens columns allowsKey key? :=
    closeBlocks_of_le fun innermost hmem => Nat.le_trans (hcolumns innermost hmem) hcolumn
  have hunbroken : ∀ c ∈ name, isBreak c = false := fun c hc => isBreak_of_printable (hname.printable c hc)
  have hscalar : (block tokens columns true).readToken ⟨position, name ++ ':' :: rest⟩ =
      some (block (tokens ++ [.scalar .plain name]) columns false
        (some ⟨tokens.length, position, columns.head? == some position.column⟩), ':' :: rest) := by
    have hnode : (block tokens columns true).startNode position =
        some (block tokens columns false (some ⟨tokens.length, position, columns.head? == some position.column⟩)) := rfl
    rw [readToken_of_plainText hname.isPlainText hname.startsWithIndicator rfl fun _ =>
      startsDocumentMarker_of_name hname _, Layout.readPlain, hnode]
    change (Yaml.readPlain false _ _).bind _ = _
    rw [hname.readPlain _ hrest]
    rfl
  rw [readTokens_step hname.1 (hname.isPlainText.startsToken _) (dropPastKeys_block _ _ _ _)
    (hclosed _ _ _ (Nat.le_refl _)) hscalar, position.after_of_unbroken hunbroken]
  have hkept (key : PossibleKey) (hkey : key.position = position) :
      (block (tokens ++ [.scalar .plain name]) columns false (some key)).dropPastKeys
        ⟨position.index + name.length, position.line, position.column + name.length⟩ =
      some (block (tokens ++ [.scalar .plain name]) columns false (some key)) := by
    have hpast : key.isPast ⟨position.index + name.length, position.line, position.column + name.length⟩ = false := by
      simp [PossibleKey.isPast, hkey, hlength]
    simp [dropPastKeys, block, hpast]
  have hstart : StartsToken ([':'] ++ rest) := ⟨':', rfl, by decide⟩
  refine readTokens_step (by simp) hstart (hkept _ rfl) (hclosed _ _ _ (Nat.le_add_right _ _)) ?_
  rw [List.singleton_append, readToken_of_colon hrest, hvalue]
  rfl

/-- The first key at a column opens a mapping there. -/
theorem ReadsValue.firstKey (hcolumns : ∀ innermost ∈ columns.head?, innermost < column)
    (hvalue : ReadsValue (tokens ++ [.blockMappingStart, .key, .scalar .plain name, .value]) columns column rest all) :
    ReadsFrom tokens columns column (name ++ ':' :: rest) all := by
  rintro position rfl
  rw [readTokens_key hname hlength hrest (fun innermost hmem => Nat.le_of_lt (hcolumns innermost hmem))
    (startValue_first hcolumns _ _ _)]
  exact hvalue _ (column_behind_key hname position)

/-- Further keys at the column belong to the same mapping. -/
theorem ReadsValue.furtherKey
    (hvalue : ReadsValue (tokens ++ [.key, .scalar .plain name, .value]) columns column rest all) :
    ReadsFrom tokens (column :: columns) column (name ++ ':' :: rest) all := by
  rintro position rfl
  rw [readTokens_key hname hlength hrest (by rintro _ ⟨⟩; exact Nat.le_refl _) (startValue_further _ _ _)]
  exact hvalue _ (column_behind_key hname position)

end Keys

/-! ### Items -/

theorem ReadsLines.item {value : List Char} (hvalue : IsPrintableAscii value)
    (hlines : ReadsLines (tokens ++ Content.itemTokens value) (column :: columns) column body all) :
    ReadsLines tokens (column :: columns) column (Content.itemLine column value ++ body) all := by
  refine ⟨column, '-' :: ' ' :: (Scalar.endLine (Scalar.write (column + 2) value) ++ body), ?_, Nat.le_refl _,
    .inr ⟨'-', rfl, by decide⟩, ?_⟩
  · simp [Content.itemLine]
  · rintro position rfl
    have hentry : (block tokens (position.column :: columns) true).readToken
        ⟨position, ['-'] ++ ' ' :: (Scalar.endLine (Scalar.write (position.column + 2) value) ++ body)⟩ =
          some (block (tokens ++ [.blockEntry]) (position.column :: columns) true,
            ' ' :: (Scalar.endLine (Scalar.write (position.column + 2) value) ++ body)) := by
      rw [List.singleton_append, readToken_of_dash rfl, startEntry, openBlockHere]
      dsimp only [block]
      rw [openBlock_open rfl]
      rfl
    have hstep := readTokens_step (by simp) ⟨'-', rfl, by decide⟩ (dropPastKeys_block _ _ _ _)
      (closeBlocks_of_le (by rintro _ ⟨⟩; exact Nat.le_refl _)) hentry
    rw [List.singleton_append] at hstep
    rw [hstep, Position.after_of_unbroken _ (List.forall_mem_singleton.mpr (by decide))]
    refine ReadsLines.text ?_ _ hvalue ?_
    · exact Nat.lt_succ_self _
    · rwa [Content.itemTokens, ← List.singleton_append, ← List.append_assoc] at hlines

/-- What stands between the items and the lines behind them. -/
theorem ReadsLines.items {values : List (List Char)} (hvalues : ∀ value ∈ values, IsPrintableAscii value)
    (hlines : ReadsLines (tokens ++ values.flatMap Content.itemTokens) (column :: columns) column body all) :
    ReadsLines tokens (column :: columns) column (values.flatMap (Content.itemLine column) ++ body) all := by
  induction values generalizing tokens with
  | nil => simpa using hlines
  | cons value values ih =>
    obtain ⟨hvalue, hothers⟩ := List.forall_mem_cons.mp hvalues
    rw [List.flatMap_cons, List.append_assoc]
    refine ReadsLines.item hvalue (ih hothers ?_)
    rwa [List.append_assoc]

/-! ### Empty collections -/

/-- A collection without entries is written as two brackets on the line of its key. -/
theorem ReadsLines.brackets {opening closing : Char} {start stop : Token}
    (hopening : ∀ (layout : Layout) position rest,
      layout.readToken ⟨position, opening :: rest⟩ = (layout.startFlow position start).map (·, rest))
    (hclosing : ∀ (layout : Layout) position rest,
      layout.readToken ⟨position, closing :: rest⟩ = (layout.endFlow stop).map (·, rest))
    (hfirst : ∀ rest, StartsToken (opening :: rest)) (hsecond : ∀ rest, StartsToken (closing :: rest))
    (hlines : ReadsLines (tokens ++ [start, stop]) (column :: columns) column body all) :
    ReadsValue tokens columns column (' ' :: opening :: closing :: '\n' :: body) all := by
  intro position hposition
  let within : Layout := { tokens := tokens ++ [start], columns := column :: columns, outerKeys := [none] }
  have hwithin : (block tokens (column :: columns) false).readToken
      ⟨⟨position.index + 1, position.line, position.column + 1⟩, [opening] ++ closing :: '\n' :: body⟩ =
        some (within, closing :: '\n' :: body) := hopening _ _ _
  have hbehind (position : Position) : within.readToken ⟨position, [closing] ++ '\n' :: body⟩ =
      some (block (tokens ++ [start] ++ [stop]) (column :: columns) false, '\n' :: body) := hclosing _ _ _
  refine readTokens_of_space (hfirst _) ?_
  refine (readTokens_step (List.cons_ne_nil _ _) (hfirst _) (dropPastKeys_block _ _ _ _)
    (closeBlocks_within (Nat.lt_succ_of_lt hposition) _ _ _) hwithin).trans ?_
  refine (readTokens_step (List.cons_ne_nil _ _) (hsecond _) rfl rfl (hbehind _)).trans ?_
  rw [List.append_assoc]
  exact hlines.readTokens rfl (by rintro _ ⟨⟩)

end Layout

end ContentProtection.Yaml
