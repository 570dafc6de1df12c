import ContentProtection.Proofs.Yaml.Scalar
import ContentProtection.Yaml.Token.OfText

/-!
# Steps over tokens

How the reading of tokens goes on over one token and over what separates it from the next, in block collections: a key that might have started on an earlier line is forgotten, and a line that starts before the column of a collection ends it. At the end, which first characters lead to which kind of token.
-/

namespace ContentProtection.Yaml

open Scalar (spaces)

/-! ### Positions -/

section Positions

variable (position : Position)

theorem Position.after_cons {c : Char} (hc : isBreak c = false) (rest : List Char) :
    position.after (c :: rest) = Position.after ⟨position.index + 1, position.line, position.column + 1⟩ rest := by
  rw [Position.after.eq_def]
  split
  · cases ‹c :: rest = []›
  · rename_i heq
    cases heq
    cases hc
  · rename_i heq
    cases heq
    rw [hc, if_neg Bool.false_ne_true]

theorem Position.after_of_unbroken {text : List Char} (htext : ∀ c ∈ text, isBreak c = false) :
    position.after text = ⟨position.index + text.length, position.line, position.column + text.length⟩ := by
  induction text generalizing position with
  | nil => rfl
  | cons c text ih =>
    obtain ⟨hc, hothers⟩ := List.forall_mem_cons.mp htext
    rw [position.after_cons hc, ih _ hothers]
    simp [Nat.add_comm, Nat.add_left_comm]

theorem Position.after_append {text : List Char} (htext : ∀ c ∈ text, isBreak c = false) (rest : List Char) :
    position.after (text ++ rest) = (position.after text).after rest := by
  induction text generalizing position with
  | nil => rfl
  | cons c text ih =>
    obtain ⟨hc, hothers⟩ := List.forall_mem_cons.mp htext
    rw [List.cons_append, position.after_cons hc, position.after_cons hc, ih _ hothers]

theorem Position.after_lineBreak (column : Nat) :
    position.after ('\n' :: spaces column) = ⟨position.index + 1 + column, position.line + 1, column⟩ := by
  have hspaces : ∀ c ∈ spaces column, isBreak c = false := by
    intro c hc
    rw [List.eq_of_mem_replicate hc]
    decide
  have hbreak : position.after ('\n' :: spaces column) =
      Position.after ⟨position.index + 1, position.line + 1, 0⟩ (spaces column) := by
    rw [Position.after, if_pos (by decide)]
    exact fun _ heq => absurd heq (by decide)
  rw [hbreak, Position.after_of_unbroken _ hspaces]
  simp [spaces]

theorem Cursor.moveTo_append (text rest : List Char) :
    Cursor.moveTo ⟨position, text ++ rest⟩ rest = ⟨position.after text, rest⟩ := by
  simp [Cursor.moveTo]

end Positions

/-! ### Between tokens -/

/-- A text that starts with a token, not with what separates tokens. -/
def StartsToken (text : List Char) : Prop :=
  ∃ c ∈ text.head?, isBlank c = false ∧ isBreak c = false ∧ c ≠ '#' ∧ c ≠ '\ufeff'

theorem StartsToken.endsGap {text : List Char} (htext : StartsToken text) : EndsGap text := by
  obtain ⟨c, hc, hblank, hbreak, -⟩ := htext
  intro d hd
  cases hc.symm.trans hd
  exact ⟨hblank, hbreak⟩

theorem IsPlainText.startsToken {text : List Char} (htext : IsPlainText text) (rest : List Char) :
    StartsToken (text ++ rest) := by
  obtain ⟨c, hc, hspace, hsign⟩ := htext.start
  have hprintable := htext.printable c (List.mem_of_mem_head? hc)
  refine ⟨c, ?_, isBlank_of_printable hprintable hspace, isBreak_of_printable hprintable, hsign,
    ne_of_printable hprintable _ (by decide)⟩
  rw [List.head?_append, hc]
  rfl

theorem skipSeparation_token (inFlow allowsKey atLineStart : Bool) {text : List Char}
    (htext : text = [] ∨ StartsToken text) :
    skipSeparation inFlow allowsKey atLineStart false text = (allowsKey, text) := by
  rcases htext with rfl | ⟨c, hc, hblank, hbreak, hsign, hmark⟩
  · rfl
  · obtain ⟨rest, rfl⟩ := List.head?_eq_some_iff.mp hc
    have hspace : c ≠ ' ' := by
      rintro rfl
      cases hblank
    have htab : c ≠ '\t' := by
      rintro rfl
      cases hblank
    simp [skipSeparation, hbreak, hsign, hspace, htab, hmark]

theorem skipSeparation_spaces (inFlow allowsKey atLineStart : Bool) (count : Nat) {text : List Char}
    (htext : text = [] ∨ StartsToken text) :
    skipSeparation inFlow allowsKey atLineStart false (spaces count ++ text) = (allowsKey, text) := by
  induction count generalizing atLineStart with
  | zero => exact skipSeparation_token _ _ _ htext
  | succ count ih =>
    have hbreak : isBreak ' ' = false := by decide
    rw [spaces_succ, List.cons_append, skipSeparation, hbreak]
    exact ih false

namespace Layout

variable {layout : Layout} {position : Position} {all : List Token}

theorem readTokens_end {layout : Layout} {position : Position} :
    layout.readTokens ⟨position, []⟩ =
      (layout.dropPastKeys position).bind fun kept => kept.closeAllBlocks.dropKey.map (·.tokens) := by
  have hstart : Cursor.moveTo ⟨position, []⟩ [] = ⟨position, []⟩ := rfl
  rw [readTokens]
  simp only [skipSeparation, hstart]
  cases layout.dropPastKeys position <;> rfl

/-- The step over one token. -/
theorem readTokens_token {text : List Char} (htext : StartsToken text) :
    layout.readTokens ⟨position, text⟩ =
      (layout.dropPastKeys position).bind fun kept =>
        ((kept.closeBlocks position.column).readToken ⟨position, text⟩).bind fun (next, rest) =>
          if rest.length < text.length then next.readTokens (Cursor.moveTo ⟨position, text⟩ rest) else none := by
  have hstart : Cursor.moveTo ⟨position, text⟩ text = ⟨position, text⟩ := Cursor.moveTo_append position [] text
  have hsome : text.isEmpty = false := by
    obtain ⟨c, hc, -⟩ := htext
    obtain ⟨rest, rfl⟩ := List.head?_eq_some_iff.mp hc
    rfl
  rw [readTokens]
  simp only [skipSeparation_token _ _ _ (.inr htext), hstart, hsome, Cursor.column]
  cases layout.dropPastKeys position with
  | none => rfl
  | some kept =>
    simp only [Option.bind_some, Bool.false_eq_true, if_false]
    cases (kept.closeBlocks position.column).readToken ⟨position, text⟩ <;> rfl

/-- The step over a token that leaves the layout before it as it is. -/
theorem readTokens_step {taken rest : List Char} {next : Layout} (htaken : taken ≠ [])
    (hstart : StartsToken (taken ++ rest)) (hkept : layout.dropPastKeys position = some layout)
    (hopen : layout.closeBlocks position.column = layout)
    (htoken : layout.readToken ⟨position, taken ++ rest⟩ = some (next, rest)) :
    layout.readTokens ⟨position, taken ++ rest⟩ = next.readTokens ⟨position.after taken, rest⟩ := by
  have hshorter : rest.length < (taken ++ rest).length := by
    rw [List.length_append]
    exact Nat.lt_add_of_pos_left (List.length_pos_iff.mpr htaken)
  rw [readTokens_token hstart, hkept, Option.bind_some, hopen, htoken, Option.bind_some]
  dsimp only
  rw [if_pos hshorter, Cursor.moveTo_append]

/-- What separates tokens is passed over. -/
theorem readTokens_of_skipped {separation text : List Char} {allowsKey : Bool}
    (hskip : skipSeparation layout.inFlow layout.allowsKey (position.column == 0) false (separation ++ text) =
      (allowsKey, text))
    (htext : text = [] ∨ StartsToken text)
    (hread : { layout with allowsKey }.readTokens ⟨position.after separation, text⟩ = some all) :
    layout.readTokens ⟨position, separation ++ text⟩ = some all := by
  have hstart : Cursor.moveTo ⟨position.after separation, text⟩ text = ⟨position.after separation, text⟩ :=
    Cursor.moveTo_append _ [] text
  rw [readTokens] at hread ⊢
  simp only [skipSeparation_token _ _ _ htext, hstart, Cursor.column] at hread
  simp only [Cursor.column, hskip, Cursor.moveTo_append]
  cases hkept : { layout with allowsKey }.dropPastKeys (position.after separation) with
  | none => simp only [hkept, reduceCtorEq] at hread
  | some kept =>
    simp only [hkept] at hread ⊢
    by_cases hend : text.isEmpty = true
    · rwa [if_pos hend] at hread ⊢
    · rw [if_neg hend] at hread ⊢
      cases htoken : (kept.closeBlocks (position.after separation).column).readToken
          ⟨position.after separation, text⟩ with
      | none => simp only [htoken, reduceCtorEq] at hread
      | some found =>
        simp only [htoken, Option.ite_none_right_eq_some] at hread ⊢
        refine ⟨?_, hread.2⟩
        rw [List.length_append]
        exact Nat.lt_add_left _ hread.1

theorem readTokens_of_space {text : List Char} (htext : StartsToken text)
    (hread : layout.readTokens ⟨⟨position.index + 1, position.line, position.column + 1⟩, text⟩ = some all) :
    layout.readTokens ⟨position, ' ' :: text⟩ = some all :=
  readTokens_of_skipped (skipSeparation_spaces _ _ _ 1 (.inr htext)) (.inr htext) hread

/-! ### Block collections -/

/-- The layout within block collections, with what may have started a key. -/
def block (tokens : List Token) (columns : List Nat) (allowsKey : Bool) (possibleKey? : Option PossibleKey := none) :
    Layout := { tokens, columns, possibleKey?, allowsKey }

theorem dropPastKeys_block (tokens : List Token) (columns : List Nat) (allowsKey : Bool) (position : Position) :
    (block tokens columns allowsKey).dropPastKeys position = some (block tokens columns allowsKey) := rfl

/-- A key that might have started on an earlier line is forgotten. -/
theorem readTokens_of_pastKey (layout : Layout) {text : List Char} (htext : text = [] ∨ StartsToken text)
    (hflow : layout.outerKeys = [])
    (hpast : ∀ key ∈ layout.possibleKey?, key.isRequired = false ∧ key.position.line < position.line) :
    layout.readTokens ⟨position, text⟩ =
      (block layout.tokens layout.columns layout.allowsKey).readTokens ⟨position, text⟩ := by
  have hkept : layout.dropPastKeys position =
      (block layout.tokens layout.columns layout.allowsKey).dropPastKeys position := by
    cases hkey : layout.possibleKey? with
    | none => simp [dropPastKeys, block, hkey, hflow]
    | some key =>
      obtain ⟨hfree, hline⟩ := hpast key hkey
      have hend : key.isPast position = true := by simp [PossibleKey.isPast, hline]
      simp [dropPastKeys, block, hkey, hflow, hfree, hend]
  rcases htext with rfl | htext
  · rw [readTokens_end, readTokens_end, hkept]
  · rw [readTokens_token htext, readTokens_token htext, hkept]

theorem closeBlocks_of_le {column : Nat} (hcolumn : ∀ innermost ∈ layout.columns.head?, innermost ≤ column) :
    layout.closeBlocks column = layout := by
  have htake : layout.columns.takeWhile (column < ·) = [] := by
    cases hcolumns : layout.columns with
    | nil => rfl
    | cons innermost columns =>
      have hle := hcolumn innermost (by rw [hcolumns]; rfl)
      rw [List.takeWhile_cons_of_neg (by simpa using hle)]
  have hdrop : layout.columns.dropWhile (column < ·) = layout.columns := by
    have hsplit := List.takeWhile_append_dropWhile (p := (column < ·)) (l := layout.columns)
    rwa [htake] at hsplit
  rw [closeBlocks, htake, hdrop]
  split <;> simp

theorem openBlock_beyond (hflow : layout.outerKeys = []) {column : Nat}
    (hcolumns : ∀ innermost ∈ layout.columns.head?, innermost < column) (start : Token) (index : Nat) :
    layout.openBlock column start index =
      { layout with columns := column :: layout.columns, tokens := layout.tokens.insertIdx index start } := by
  have hminimum : layout.minimum ≤ column := by
    rw [minimum]
    split
    · exact Nat.zero_le _
    · rename_i hopen
      exact hcolumns _ (by rw [hopen]; rfl)
  rw [openBlock, inFlow, hflow, decide_eq_true hminimum]
  rfl

theorem openBlock_open {column : Nat} (hcolumns : layout.columns.head? = some column) (start : Token) (index : Nat) :
    layout.openBlock column start index = layout := by
  have hminimum : ¬layout.minimum ≤ column := by
    rw [minimum]
    split
    · rename_i hnone
      rw [hnone] at hcolumns
      cases hcolumns
    · rename_i hopen
      rw [hopen] at hcolumns
      cases hcolumns
      exact Nat.not_succ_le_self _
  rw [openBlock, decide_eq_false hminimum, Bool.and_false, if_neg Bool.false_ne_true]

/-- A block collection ends where a line starts before its column, or with the text. -/
theorem readTokens_close (tokens : List Token) {column : Nat} (columns : List Nat) {text : List Char}
    (htext : text = [] ∨ StartsToken text ∧ position.column < column) :
    (block tokens (column :: columns) true).readTokens ⟨position, text⟩ =
      (block (tokens ++ [.blockEnd]) columns true).readTokens ⟨position, text⟩ := by
  rcases htext with rfl | ⟨htext, hcolumn⟩
  · rw [readTokens_end, readTokens_end, dropPastKeys_block, dropPastKeys_block]
    simp [closeAllBlocks, block, inFlow, dropKey, List.replicate_succ]
  · have hclosed : (block tokens (column :: columns) true).closeBlocks position.column =
        (block (tokens ++ [.blockEnd]) columns true).closeBlocks position.column := by
      simp [closeBlocks, block, inFlow, hcolumn, List.replicate_succ]
    rw [readTokens_token htext, readTokens_token htext, dropPastKeys_block, dropPastKeys_block, Option.bind_some,
      Option.bind_some, hclosed]

/-! ### First characters of tokens -/

theorem startsMarker_of_ne {mark c : Char} (hc : c ≠ mark) (rest : List Char) :
    startsMarker mark (c :: rest) = false := by
  unfold startsMarker
  split
  · rename_i heq
    cases heq
    simp [hc]
  · rfl

section Tokens

variable {rest : List Char}

theorem readToken_of_colon (hrest : endsWord rest = true) :
    layout.readToken ⟨position, ':' :: rest⟩ = (layout.startValue position.column).map (·, rest) := by
  simp [readToken, standsAlone, hrest, startsMarker_of_ne]

theorem readToken_of_dash (hrest : endsWord rest = true) :
    layout.readToken ⟨position, '-' :: rest⟩ = (layout.startEntry position.column).map (·, rest) := by
  have hmarker : startsMarker '-' ('-' :: rest) = false := by
    unfold startsMarker
    split
    · rename_i heq
      cases heq
      rename_i b _ _
      have hb : b ≠ '-' := by
        rintro rfl
        cases hrest
      simp [hb]
    · rfl
  simp [readToken, hrest, startsMarker_of_ne, hmarker]

theorem readToken_of_quote :
    layout.readToken ⟨position, '\x27' :: rest⟩ =
      layout.readNode position (.scalar .singleQuoted) (readSingleQuoted rest) := by
  simp [readToken, startsMarker_of_ne]

theorem readToken_of_openingBracket :
    layout.readToken ⟨position, '[' :: rest⟩ = (layout.startFlow position .flowSequenceStart).map (·, rest) := by
  simp [readToken, startsMarker_of_ne]

theorem readToken_of_closingBracket :
    layout.readToken ⟨position, ']' :: rest⟩ = (layout.endFlow .flowSequenceEnd).map (·, rest) := by
  simp [readToken, startsMarker_of_ne]

theorem readToken_of_openingBrace :
    layout.readToken ⟨position, '\x7b' :: rest⟩ = (layout.startFlow position .flowMappingStart).map (·, rest) := by
  simp [readToken, startsMarker_of_ne]

theorem readToken_of_closingBrace :
    layout.readToken ⟨position, '\x7d' :: rest⟩ = (layout.endFlow .flowMappingEnd).map (·, rest) := by
  simp [readToken, startsMarker_of_ne]

/-- A plain scalar starts with no indicator, or with one of three that a further character of a word follows. -/
theorem readToken_of_plain {c : Char} (hflow : layout.outerKeys = []) (hc : endsWord (c :: rest) = false)
    (hindicator : c ∉ "#,[]\x7b\x7d&*!|>\x27\"%@\x60".toList)
    (hword : c ∈ "?:-".toList → endsWord rest = false)
    (hmarker : position.column = 0 → startsDocumentMarker (c :: rest) = false) :
    layout.readToken ⟨position, c :: rest⟩ = layout.readPlain ⟨position, c :: rest⟩ := by
  have halone : layout.standsAlone rest = endsWord rest := by simp [standsAlone, inFlow, hflow]
  have hdashes : ¬(position.column = 0 ∧ startsMarker '-' (c :: rest) = true) := fun ⟨hcolumn, hdashes⟩ => by
    simpa [startsDocumentMarker, hdashes] using hmarker hcolumn
  have hdots : ¬(position.column = 0 ∧ startsMarker '.' (c :: rest) = true) := fun ⟨hcolumn, hdots⟩ => by
    simpa [startsDocumentMarker, hdots] using hmarker hcolumn
  simp at hindicator hword
  have hplain : startsPlain layout.inFlow (c :: rest) = true := by
    rw [startsPlain, inFlow, hflow, hc]
    split
    · rename_i hmember
      have hcases : c = '?' ∨ c = ':' ∨ c = '-' := by
        rw [← or_assoc, or_comm]
        simpa [isIndicator, hindicator] using hmember
      have hends := hword hcases
      have hblank : rest.head?.any isBlank = false := by
        cases rest with
        | nil => rfl
        | cons d rest => exact (Bool.or_eq_false_iff.mp hends).1
      rcases hcases with rfl | rfl | rfl <;> simp [hends, hblank]
    · rfl
  have hapart (d : Char) (hd : d = '?' ∨ d = ':' ∨ d = '-') : ¬(c = d ∧ endsWord rest = true) := by
    rintro ⟨rfl, hends⟩
    cases (hword hd).symm.trans hends
  simp [readToken, hdashes, hdots, hplain, hindicator, halone, hapart]

theorem startsDocumentMarker_of_name {name : List Char} (hname : IsName name) (rest : List Char) :
    startsDocumentMarker (name ++ rest) = false := by
  obtain ⟨c, word, rfl⟩ := List.exists_cons_of_ne_nil hname.1
  have hdash : c ≠ '-' := hname.ne_of_mem List.mem_cons_self '-' (by decide)
  have hdot : c ≠ '.' := hname.ne_of_mem List.mem_cons_self '.' (by decide)
  rw [List.cons_append, startsDocumentMarker, startsMarker_of_ne hdash, startsMarker_of_ne hdot]
  rfl

theorem readToken_of_plainText {value : List Char} (hvalue : IsPlainText value)
    (hstart : Scalar.startsWithIndicator value = false) (hflow : layout.outerKeys = [])
    (hposition : position.column = 0 → startsDocumentMarker (value ++ rest) = false) :
    layout.readToken ⟨position, value ++ rest⟩ = layout.readPlain ⟨position, value ++ rest⟩ := by
  obtain ⟨c, hc, hspace, -⟩ := hvalue.start
  obtain ⟨word, rfl⟩ := List.head?_eq_some_iff.mp hc
  simp only [Scalar.startsWithIndicator, Bool.or_eq_false_iff, Bool.and_eq_false_iff] at hstart
  obtain ⟨⟨⟨hindicator, hword⟩, -⟩, -⟩ := hstart
  refine readToken_of_plain hflow ?_ (by simpa using hindicator) (fun hmember => ?_) hposition
  · exact endsWord_append (hvalue.printable c (List.mem_of_mem_head? hc)) hc hspace rest
  · rcases hword with hother | hends
    · exact absurd (List.contains_iff_mem.mpr hmember) (by simpa using hother)
    · cases word with
      | nil => cases hends
      | cons => exact hends

end Tokens

end Layout

end ContentProtection.Yaml
