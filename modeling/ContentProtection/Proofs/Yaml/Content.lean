import ContentProtection.Proofs.Yaml.Lines

/-!
# Tokens of written content

Content whose texts are of printable ASCII characters, with names for keys and for all else that is not text, gives the tokens of its own structure when it is written and read.
-/

namespace ContentProtection.Yaml

open Scalar (spaces)

namespace Content

/-! ### Writable content -/

mutual

/-- What needs no escapes, line by line. -/
def IsWritable : Content → Prop
  | plain spelling => IsName spelling
  | text value => IsPrintableAscii value
  | texts values => ∀ value ∈ values, IsPrintableAscii value
  | mapping entries => AreWritable entries

/-- A key ends within the 1024 characters in which it is found to be one. -/
def AreWritable : List (String × Content) → Prop
  | [] => True
  | (key, content) :: entries =>
    (IsName key.toList ∧ key.toList.length ≤ 1024) ∧ IsWritable content ∧ AreWritable entries

end

theorem areWritable_iff {entries : List (String × Content)} :
    AreWritable entries ↔
      ∀ entry ∈ entries, (IsName entry.1.toList ∧ entry.1.toList.length ≤ 1024) ∧ entry.2.IsWritable := by
  induction entries with
  | nil => simp [AreWritable]
  | cons entry entries ih =>
    rw [AreWritable, ih, List.forall_mem_cons]
    exact and_assoc.symm

/-! ### Tokens -/

mutual

def tokens : Content → List Token
  | plain spelling => [.scalar .plain spelling]
  | text value => [.scalar (Scalar.style value) value]
  | texts [] => [.flowSequenceStart, .flowSequenceEnd]
  | texts values => values.flatMap itemTokens
  | mapping [] => [.flowMappingStart, .flowMappingEnd]
  | mapping entries => .blockMappingStart :: entryTokens entries ++ [.blockEnd]

def entryTokens : List (String × Content) → List Token
  | [] => []
  | (key, content) :: entries =>
    [.key, .scalar .plain key.toList, .value] ++ tokens content ++ entryTokens entries

end

theorem tokens_mapping {entries : List (String × Content)} (hsome : entries ≠ []) :
    (mapping entries).tokens = .blockMappingStart :: entryTokens entries ++ [.blockEnd] := by
  rw [tokens]
  exact hsome

theorem endsWord_writeValue (column : Nat) (content : Content) (rest : List Char) :
    endsWord (writeValue column content ++ rest) = true := by
  unfold writeValue
  split <;> rfl

end Content

/-! ### Reading -/

namespace Layout

open Content

mutual

theorem ReadsLines.value {tokens all : List Token} {columns : List Nat} {column : Nat} {body : List Char} :
    ∀ {content : Content}, content.IsWritable →
      ReadsLines (tokens ++ content.tokens) (column :: columns) column body all →
      ReadsValue tokens columns column (writeValue column content ++ body) all
  | .plain spelling, hname, hlines => fun position hposition => hlines.name hposition hname
  | .text value, hvalue, hlines => fun position hposition => hlines.text hposition _ hvalue
  | .texts [], _, hlines =>
    hlines.brackets (fun _ _ _ => readToken_of_openingBracket) (fun _ _ _ => readToken_of_closingBracket)
      (fun _ => ⟨'[', rfl, by decide⟩) (fun _ => ⟨']', rfl, by decide⟩)
  | .texts (value :: values), hvalues, hlines => fun position hposition =>
    ReadsLines.readTokens (hlines.items hvalues) rfl (by rintro _ ⟨⟩)
  | .mapping [], _, hlines =>
    hlines.brackets (fun _ _ _ => readToken_of_openingBrace) (fun _ _ _ => readToken_of_closingBrace)
      (fun _ => ⟨'\x7b', rfl, by decide⟩) (fun _ => ⟨'\x7d', rfl, by decide⟩)
  | .mapping (entry :: entries), hentries, hlines => fun position hposition => by
    rw [tokens_mapping (List.cons_ne_nil _ _), ← List.append_assoc] at hlines
    have hclosed := hlines.close (Nat.lt_add_of_pos_right Nat.two_pos)
    have hmapping := ReadsLines.mapping (List.cons_ne_nil entry entries) hentries (by rintro _ ⟨⟩; omega) hclosed
    exact hmapping.readTokens rfl (by rintro _ ⟨⟩)

/-- The first key opens the mapping. -/
theorem ReadsLines.mapping {tokens all : List Token} {columns : List Nat} {column : Nat} {body : List Char} :
    ∀ {entries : List (String × Content)}, entries ≠ [] → AreWritable entries →
      (∀ innermost ∈ columns.head?, innermost < column) →
      ReadsLines (tokens ++ .blockMappingStart :: entryTokens entries) (column :: columns) column body all →
      ReadsLines tokens columns column (writeEntries column entries ++ body) all
  | [], hsome, _, _, _ => absurd rfl hsome
  | (key, content) :: entries, _, ⟨⟨hname, hlength⟩, hcontent, hentries⟩, hcolumns, hlines => by
    rw [entryTokens, ← List.cons_append, ← List.cons_append, ← List.append_assoc, ← List.append_assoc] at hlines
    have hvalue := ReadsLines.value hcontent (ReadsLines.entries hentries hlines)
    have hkey := hvalue.firstKey hname hlength (endsWord_writeValue _ _ _) hcolumns
    refine ⟨column, _, ?_, Nat.le_refl _, .inr (hname.isPlainText.startsToken _), hkey⟩
    simp [writeEntries]

/-- The keys behind the first one. -/
theorem ReadsLines.entries {tokens all : List Token} {columns : List Nat} {column : Nat} {body : List Char} :
    ∀ {entries : List (String × Content)}, AreWritable entries →
      ReadsLines (tokens ++ entryTokens entries) (column :: columns) column body all →
      ReadsLines tokens (column :: columns) column (writeEntries column entries ++ body) all
  | [], _, hlines => by simpa [entryTokens, writeEntries] using hlines
  | (key, content) :: entries, ⟨⟨hname, hlength⟩, hcontent, hentries⟩, hlines => by
    rw [entryTokens, ← List.append_assoc, ← List.append_assoc] at hlines
    have hvalue := ReadsLines.value hcontent (ReadsLines.entries hentries hlines)
    have hkey := hvalue.furtherKey hname hlength (endsWord_writeValue _ _ _)
    refine ⟨column, _, ?_, Nat.le_refl _, .inr (hname.isPlainText.startsToken _), hkey⟩
    simp [writeEntries]

end

end Layout

/-! ### Documents -/

namespace Content

theorem isAllowed_of_isPrintableAscii {text : List Char} (htext : IsPrintableAscii text) :
    ∀ c ∈ text, isAllowed c = true := fun c hc => isAllowed_of_printable (htext c hc)

theorem isAllowed_spaces (count : Nat) : ∀ c ∈ spaces count, isAllowed c = true := by
  intro c hc
  rw [List.eq_of_mem_replicate hc]
  decide

theorem isAllowed_endLine {text : List Char} (htext : IsPrintableAscii text) :
    ∀ c ∈ Scalar.endLine text, isAllowed c = true := by
  rw [endLine_of_printable htext]
  exact List.forall_mem_append.mpr
    ⟨isAllowed_of_isPrintableAscii htext, List.forall_mem_singleton.mpr (by decide)⟩

theorem isAllowed_itemLine (column : Nat) {value : List Char} (hvalue : IsPrintableAscii value) :
    ∀ c ∈ itemLine column value, isAllowed c = true :=
  List.forall_mem_append.mpr ⟨isAllowed_spaces column, List.forall_mem_cons.mpr ⟨by decide,
    List.forall_mem_cons.mpr ⟨by decide, isAllowed_endLine (printable_write hvalue _)⟩⟩⟩

mutual

theorem isAllowed_writeValue :
    ∀ {content : Content} (column : Nat), content.IsWritable → ∀ c ∈ writeValue column content, isAllowed c = true
  | .plain _, _, hname => List.forall_mem_cons.mpr ⟨by decide, isAllowed_endLine hname.printable⟩
  | .text _, _, hvalue => List.forall_mem_cons.mpr ⟨by decide, isAllowed_endLine (printable_write hvalue _)⟩
  | .texts [], _, _ => List.all_eq_true.mp (by decide : " []\n".toList.all isAllowed = true)
  | .texts (value :: values), column, hvalues => List.forall_mem_cons.mpr ⟨by decide, fun c hc => by
      obtain ⟨value, hmem, hc⟩ := List.mem_flatMap.mp hc
      exact isAllowed_itemLine column (hvalues value hmem) c hc⟩
  | .mapping [], _, _ => List.all_eq_true.mp (by decide : " \x7b\x7d\n".toList.all isAllowed = true)
  | .mapping (entry :: entries), column, hentries =>
    List.forall_mem_cons.mpr ⟨by decide, isAllowed_writeEntries (column + 2) hentries⟩

theorem isAllowed_writeEntries :
    ∀ {entries : List (String × Content)} (column : Nat), AreWritable entries →
      ∀ c ∈ writeEntries column entries, isAllowed c = true
  | [], _, _ => by rintro _ ⟨⟩
  | (key, content) :: entries, column, ⟨⟨hname, _⟩, hcontent, hentries⟩ => by
    have hkey := List.forall_mem_append.mpr ⟨isAllowed_spaces column, isAllowed_of_isPrintableAscii hname.printable⟩
    have hvalue : ∀ c ∈ ':' :: writeValue column content, isAllowed c = true :=
      List.forall_mem_cons.mpr ⟨by decide, isAllowed_writeValue column hcontent⟩
    exact List.forall_mem_append.mpr ⟨List.forall_mem_append.mpr ⟨hkey, hvalue⟩, isAllowed_writeEntries column hentries⟩

end

/-- The tokens of a written document are those of its root. -/
theorem ofText?_writeDocument {entries : List (String × Content)} (hentries : AreWritable entries) :
    Token.ofText? (writeDocument entries) = some (mapping entries).tokens := by
  cases entries with
  | nil => decide +kernel
  | cons entry entries =>
    have hlines := Layout.ReadsLines.mapping (List.cons_ne_nil entry entries) hentries (by rintro _ ⟨⟩)
      (Layout.ReadsLines.nil ([] ++ .blockMappingStart :: entryTokens (entry :: entries)) [0] 0)
    rw [List.append_nil] at hlines
    obtain ⟨column, text, hbody, hcolumn, -, hread⟩ := hlines
    obtain rfl := Nat.le_zero.mp hcolumn
    have hallowed : (writeDocument (entry :: entries)).all isAllowed = true :=
      List.all_eq_true.mpr (isAllowed_writeEntries 0 hentries)
    have hdocument : writeDocument (entry :: entries) = text := hbody
    rw [Token.ofText?, if_pos hallowed, hdocument, tokens_mapping (List.cons_ne_nil entry entries)]
    exact hread {} rfl

end Content

end ContentProtection.Yaml
