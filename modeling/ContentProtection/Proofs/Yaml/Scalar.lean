import ContentProtection.Yaml.Scalar.Plain
import ContentProtection.Yaml.Scalar.Written

/-!
# Written scalars read back

A text of printable ASCII characters is written without line breaks, plain or between single quotes, and is read back with all its blanks, quotes and indicators. The reading of a plain scalar goes on to the line after it.
-/

namespace ContentProtection.Yaml

open Scalar (spaces)

/-! ### Characters -/

/-- A text of printable ASCII characters, the space among them. -/
def IsPrintableAscii (text : List Char) : Prop := ∀ c ∈ text, 0x20 ≤ c.toNat ∧ c.toNat ≤ 0x7E

instance (text : List Char) : Decidable (IsPrintableAscii text) :=
  List.decidableBAll (fun c : Char => 0x20 ≤ c.toNat ∧ c.toNat ≤ 0x7E) text

section Characters

variable {c : Char} (hc : 0x20 ≤ c.toNat ∧ c.toNat ≤ 0x7E)

include hc

theorem ne_of_printable (d : Char) (hd : d.toNat < 0x20 ∨ 0x7E < d.toNat) : c ≠ d := by
  rintro rfl
  omega

theorem isBreak_of_printable : isBreak c = false := by
  simp [isBreak, ne_of_printable hc '\n' (by decide), ne_of_printable hc '\r' (by decide),
    ne_of_printable hc '\x85' (by decide), ne_of_printable hc '\u2028' (by decide),
    ne_of_printable hc '\u2029' (by decide)]

theorem isBlank_of_printable (hspace : c ≠ ' ') : isBlank c = false := by
  simp [isBlank, hspace, ne_of_printable hc '\t' (by decide)]

theorem isPrintable_of_printable : isPrintable c = true := by
  simp [isPrintable, hc.1, hc.2]

theorem isAllowed_of_printable : isAllowed c = true := by
  simp [isAllowed, hc.1, hc.2]

end Characters

/-! ### Gaps -/

/-- A text that no gap goes on with. -/
def EndsGap (text : List Char) : Prop := ∀ c ∈ text.head?, isBlank c = false ∧ isBreak c = false

theorem readBreak?_eq_none {c : Char} {rest : List Char} (hc : isBreak c = false) :
    readBreak? (c :: rest) = none := by
  have hreturn : c ≠ '\r' := by
    rintro rfl
    cases hc
  have hseparators : ¬(c = '\u2028' ∨ c = '\u2029') := by
    rintro (rfl | rfl) <;> cases hc
  unfold readBreak?
  split
  · rename_i heq
    exact absurd (List.cons.inj heq).1 hreturn
  · rename_i heq
    obtain ⟨rfl, rfl⟩ := List.cons.inj heq
    rw [if_neg hseparators, hc]
    rfl
  · rfl

theorem readGapInto_cons (indent : Nat) (gap : Gap) {c : Char} (rest : List Char) (hc : isBreak c = false) :
    readGapInto indent gap (c :: rest) =
      if isBlank c then
        if gap.hasBreak then
          readGapInto indent
            { gap with
              column := gap.column + 1
              hasEarlyTab := gap.hasEarlyTab || (c == '\t' && gap.column < indent) } rest
        else readGapInto indent { gap with blanks := gap.blanks ++ [c] } rest
      else (gap, c :: rest) := by
  rw [readGapInto]
  split
  · rename_i hread
    rw [readBreak?_eq_none hc] at hread
    cases hread
  · rfl

theorem readGapInto_end (indent : Nat) (gap : Gap) {text : List Char} (htext : EndsGap text) :
    readGapInto indent gap text = (gap, text) := by
  cases text with
  | nil =>
    rw [readGapInto]
    rfl
  | cons c rest =>
    obtain ⟨hblank, hbreak⟩ := htext c rfl
    rw [readGapInto_cons _ _ _ hbreak, hblank, if_neg Bool.false_ne_true]

theorem spaces_succ (count : Nat) : spaces (count + 1) = ' ' :: spaces count := List.replicate_succ

theorem readGapInto_spaces (indent : Nat) (gap : Gap) (count : Nat) {text : List Char} (htext : EndsGap text) :
    readGapInto indent gap (spaces count ++ text) =
      (if gap.hasBreak then { gap with column := gap.column + count }
        else { gap with blanks := gap.blanks ++ spaces count }, text) := by
  induction count generalizing gap with
  | zero => cases hbreak : gap.hasBreak <;> simp [spaces, readGapInto_end indent gap htext]
  | succ count ih =>
    have hblank : isBlank ' ' = true := by decide
    have htab : (' ' == '\t') = false := by decide
    rw [spaces_succ, List.cons_append, readGapInto_cons _ _ _ (by decide), if_pos hblank, htab, Bool.false_and,
      Bool.or_false]
    cases hbreak : gap.hasBreak with
    | false =>
      have hkept : ({ gap with blanks := gap.blanks ++ [' '] } : Gap).hasBreak = false := hbreak
      rw [if_neg Bool.false_ne_true, if_neg Bool.false_ne_true, ih, hkept, if_neg Bool.false_ne_true,
        List.append_assoc]
      rfl
    | true =>
      have hkept : ({ gap with column := gap.column + 1 } : Gap).hasBreak = true := hbreak
      rw [if_pos rfl, if_pos rfl, ih, hkept, if_pos rfl, Nat.add_assoc, Nat.add_comm 1]

theorem readGap_spaces (indent count : Nat) {text : List Char} (htext : EndsGap text) :
    readGap indent (spaces count ++ text) = ({ blanks := spaces count }, text) :=
  readGapInto_spaces indent {} count htext

theorem readGap_lineBreak (indent column : Nat) {text : List Char} (htext : EndsGap text) :
    readGap indent ('\n' :: spaces column ++ text) = ({ breaks := [['\n']], column }, text) := by
  have hbreak : readBreak? ('\n' :: (spaces column ++ text)) = some (['\n'], spaces column ++ text) := by
    simp [readBreak?, isBreak]
  rw [readGap, List.cons_append, readGapInto]
  split
  · rename_i written rest hread
    rw [hbreak] at hread
    cases hread
    rw [readGapInto_spaces indent _ column htext]
    simp [Gap.hasBreak]
  · rename_i hread
    rw [hbreak] at hread
    cases hread

/-! ### Plain scalars -/

/-- A word goes on over colons that nothing sets off. -/
theorem readWord_append {word rest : List Char} (hword : ∀ c ∈ word, isBlank c = false ∧ isBreak c = false)
    (hcolons : ∀ after, ':' :: after <:+ word → endsWord (after ++ rest) = false)
    (hrest : endsWord rest = true ∨ endsKey rest = true) : readWord false (word ++ rest) = some (word, rest) := by
  induction word with
  | nil =>
    cases rest with
    | nil => rfl
    | cons d after =>
      rw [List.nil_append, readWord, Bool.false_and, Bool.false_and, Bool.or_false]
      rcases hrest with hends | hends
      · rw [if_pos hends]
      · rw [if_neg Bool.false_ne_true, if_pos hends, ite_self]
  | cons c word ih =>
    obtain ⟨⟨hblank, hbreak⟩, hothers⟩ := List.forall_mem_cons.mp hword
    have hends : endsWord (c :: (word ++ rest)) = false := by rw [endsWord, hblank, hbreak]; rfl
    have hkey : endsKey (c :: (word ++ rest)) = false := by
      by_cases hc : c = ':'
      · subst hc
        exact hcolons word List.suffix_rfl
      · rw [endsKey]
        simpa using hc
    rw [List.cons_append, readWord, hends, hkey, Bool.false_and, Bool.false_and, Bool.or_false,
      if_neg Bool.false_ne_true, if_neg Bool.false_ne_true, if_neg Bool.false_ne_true,
      ih hothers fun after hsuffix => hcolons after (List.suffix_cons_iff.mpr (.inr hsuffix))]
    rfl

section Words

variable {indent : Nat} {value text word : List Char} {gap : Gap} {c d : Char} {after : List Char}
  (hgoes : gap.endsPlain text = false) (hword : readWord false text = some (c :: word, d :: after))

include hgoes hword

theorem readWords_of_end (hd : ¬(isBlank d = true ∨ isBreak d = true)) :
    readWords false indent value gap text = some (⟨value ++ gap.fold ++ c :: word, false⟩, d :: after) := by
  rw [readWords, if_neg (by rw [hgoes]; exact Bool.false_ne_true)]
  split
  · simp_all
  · simp_all
  · rename_i heq
    rw [hword] at heq
    cases heq
    dsimp only
    rw [dif_neg hd]

theorem readWords_of_gap {next : Gap} {rest : List Char} (hd : isBlank d = true ∨ isBreak d = true)
    (hgap : readGap indent (d :: after) = (next, rest)) (htab : next.hasEarlyTab = false) :
    readWords false indent value gap text =
      if next.hasBreak && next.column < indent then some (⟨value ++ gap.fold ++ c :: word, true⟩, rest)
      else readWords false indent (value ++ gap.fold ++ c :: word) next rest := by
  rw [readWords, if_neg (by rw [hgoes]; exact Bool.false_ne_true)]
  split
  · simp_all
  · simp_all
  · rename_i heq
    rw [hword] at heq
    cases heq
    dsimp only
    rw [dif_pos hd, hgap, htab, if_neg Bool.false_ne_true]
    rfl

end Words

/-- A text whose words are those of a plain scalar: no space at either end, no colon at the end of a word, no number sign at the start of one. -/
structure IsPlainText (text : List Char) : Prop where
  printable : IsPrintableAscii text
  start : ∃ c ∈ text.head?, c ≠ ' ' ∧ c ≠ '#'
  afterColon : ∀ after, ':' :: after <:+ text → ∃ c ∈ after.head?, c ≠ ' '
  afterSpace : ∀ after, ' ' :: after <:+ text → ∃ c ∈ after.head?, c ≠ '#'

theorem IsPrintableAscii.of_suffix {text after : List Char} (htext : IsPrintableAscii text) (hafter : after <:+ text) :
    IsPrintableAscii after := fun c hc => htext c (hafter.subset hc)

theorem exists_spaces_append (text : List Char) :
    ∃ count others, text = spaces count ++ others ∧ others.head? ≠ some ' ' := by
  induction text with
  | nil => exact ⟨0, [], rfl, by simp⟩
  | cons c text ih =>
    by_cases hc : c = ' '
    · obtain ⟨count, others, rfl, hothers⟩ := ih
      exact ⟨count + 1, others, by rw [hc, spaces_succ]; rfl, hothers⟩
    · exact ⟨0, c :: text, rfl, by simpa using hc⟩

/-- Behind a space there are further spaces and then a plain text. -/
theorem IsPlainText.exists_spaces {word text : List Char} (htext : IsPlainText (word ++ ' ' :: text)) :
    ∃ count others, text = spaces count ++ others ∧ IsPlainText others := by
  obtain ⟨count, others, rfl, hspace⟩ := exists_spaces_append text
  have hgap : ' ' :: (spaces count ++ others) = spaces count ++ ' ' :: others := by
    rw [← List.cons_append, ← spaces_succ, spaces, List.replicate_succ', List.append_assoc]
    rfl
  have hsuffix : ' ' :: others <:+ word ++ ' ' :: (spaces count ++ others) :=
    ⟨word ++ spaces count, by rw [hgap, List.append_assoc]⟩
  have hothers : others <:+ word ++ ' ' :: (spaces count ++ others) := (List.suffix_cons ' ' others).trans hsuffix
  obtain ⟨c, hc, hsign⟩ := htext.afterSpace others hsuffix
  refine ⟨count, others, rfl, htext.printable.of_suffix hothers, ⟨c, hc, fun hblank => hspace ?_, hsign⟩,
    fun after hafter => htext.afterColon after (hafter.trans hothers),
    fun after hafter => htext.afterSpace after (hafter.trans hothers)⟩
  rw [← hblank]
  exact hc

/-- The first word of a plain text, and what stands behind it. -/
theorem IsPlainText.exists_word {text : List Char} (htext : IsPlainText text) :
    ∃ c word, ' ' ∉ c :: word ∧
      (text = c :: word ∨
        ∃ count others, text = c :: word ++ ' ' :: (spaces count ++ others) ∧ IsPlainText others) := by
  obtain ⟨c, hc, hspace, -⟩ := htext.start
  obtain ⟨after, rfl⟩ := List.head?_eq_some_iff.mp hc
  have hword : ' ' ∉ c :: after.takeWhile (· ≠ ' ') := by
    rintro (_ | ⟨_, hmem⟩)
    · exact hspace rfl
    · simpa using List.all_eq_true.mp List.all_takeWhile ' ' hmem
  refine ⟨c, after.takeWhile (· ≠ ' '), hword, ?_⟩
  have hsplit : after.takeWhile (· ≠ ' ') ++ after.dropWhile (· ≠ ' ') = after := List.takeWhile_append_dropWhile
  rcases hrest : after.dropWhile (· ≠ ' ') with _ | ⟨d, rest⟩
  · rw [hrest, List.append_nil] at hsplit
    exact .inl (by rw [hsplit])
  · have hd : d = ' ' := by
      have hhead := List.head?_dropWhile_not (· ≠ ' ') after
      rw [hrest] at hhead
      simpa using hhead
    rw [hrest, hd] at hsplit
    rw [← hsplit, ← List.cons_append] at htext
    obtain ⟨count, others, rfl, hothers⟩ := htext.exists_spaces
    refine .inr ⟨count, others, ?_, hothers⟩
    conv => lhs; rw [← hsplit]
    simp

theorem endsWord_append {c : Char} {after : List Char} (hc : 0x20 ≤ c.toNat ∧ c.toNat ≤ 0x7E) (hmem : c ∈ after.head?)
    (hspace : c ≠ ' ') (rest : List Char) : endsWord (after ++ rest) = false := by
  obtain ⟨after, rfl⟩ := List.head?_eq_some_iff.mp hmem
  rw [List.cons_append, endsWord, isBlank_of_printable hc hspace, isBreak_of_printable hc]
  rfl

/-- A word of a plain text is read up to a space or to the end of the line. -/
theorem IsPlainText.readWord {word after : List Char} (htext : IsPlainText (word ++ after)) (hword : ' ' ∉ word)
    (rest : List Char) (hrest : endsWord (after ++ rest) = true) :
    readWord false (word ++ (after ++ rest)) = some (word, after ++ rest) := by
  refine readWord_append (fun c hc => ?_) (fun tail htail => ?_) (.inl hrest)
  · have hprintable := htext.printable c (List.mem_append_left _ hc)
    exact ⟨isBlank_of_printable hprintable fun heq => hword (heq ▸ hc), isBreak_of_printable hprintable⟩
  · have hsuffix : ':' :: (tail ++ after) <:+ word ++ after := by
      obtain ⟨front, rfl⟩ := htail
      exact ⟨front, by simp⟩
    obtain ⟨c, hc, hspace⟩ := htext.afterColon _ hsuffix
    have hmem : c ∈ word ++ after := hsuffix.subset (.tail _ (List.mem_of_mem_head? hc))
    rw [← List.append_assoc]
    exact endsWord_append (htext.printable c hmem) hc hspace rest

theorem IsPlainText.endsPlain {text : List Char} (htext : IsPlainText text) {gap : Gap} (hgap : gap.hasBreak = false)
    (rest : List Char) : gap.endsPlain (text ++ rest) = false := by
  obtain ⟨c, hc, -, hsign⟩ := htext.start
  have hhead : (text ++ rest).head? = some c := by rw [List.head?_append, hc]; rfl
  rw [Gap.endsPlain, hgap, hhead]
  simpa using hsign

theorem IsPlainText.endsGap {text : List Char} (htext : IsPlainText text) (rest : List Char) :
    EndsGap (text ++ rest) := by
  obtain ⟨c, hc, hspace, -⟩ := htext.start
  have hprintable := htext.printable c (List.mem_of_mem_head? hc)
  intro d hd
  rw [List.head?_append, hc] at hd
  cases hd
  exact ⟨isBlank_of_printable hprintable hspace, isBreak_of_printable hprintable⟩

/-- A plain text is read word by word up to a line that is not indented as its own lines are. -/
theorem IsPlainText.readWords {indent column : Nat} (hcolumn : column < indent) {rest : List Char}
    (hrest : EndsGap rest) {text : List Char} (htext : IsPlainText text) (value : List Char) {gap : Gap}
    (hgap : gap.hasBreak = false) :
    readWords false indent value gap (text ++ ('\n' :: spaces column ++ rest)) =
      some (⟨value ++ gap.fold ++ text, true⟩, rest) := by
  have hgoes := htext.endsPlain hgap ('\n' :: spaces column ++ rest)
  obtain ⟨c, word, hword, rfl | ⟨count, others, rfl, hothers⟩⟩ := htext.exists_word
  · rw [← List.append_nil (c :: word)] at htext
    have hread := htext.readWord hword ('\n' :: spaces column ++ rest) rfl
    rw [readWords_of_gap hgoes hread (.inr (by decide)) (readGap_lineBreak indent column hrest) rfl, if_pos]
    simpa [Gap.hasBreak] using hcolumn
  · have hread := htext.readWord hword ('\n' :: spaces column ++ rest) rfl
    have hnext := readGap_spaces indent (count + 1) (hothers.endsGap ('\n' :: spaces column ++ rest))
    rw [spaces_succ, List.cons_append, ← List.append_assoc] at hnext
    rw [List.append_assoc] at hgoes ⊢
    rw [readWords_of_gap hgoes hread (.inl (by decide)) hnext rfl, hothers.readWords hcolumn hrest _ rfl]
    simp [Gap.hasBreak, Gap.fold]
termination_by text.length

theorem IsPlainText.readPlain {indent column : Nat} (hcolumn : column < indent) {rest : List Char}
    (hrest : EndsGap rest) {text : List Char} (htext : IsPlainText text) :
    readPlain false indent (text ++ ('\n' :: spaces column ++ rest)) = some (⟨text, true⟩, rest) :=
  htext.readWords hcolumn hrest [] rfl

/-! ### Names -/

/-- A name is made of letters, digits and underscores. -/
def IsName (text : List Char) : Prop := text ≠ [] ∧ ∀ c ∈ text, c.isAlphanum ∨ c = '_'

instance (text : List Char) : Decidable (IsName text) :=
  have := List.decidableBAll (fun c : Char => c.isAlphanum ∨ c = '_') text
  inferInstanceAs (Decidable (text ≠ [] ∧ ∀ c ∈ text, c.isAlphanum ∨ c = '_'))

theorem printable_of_name {c : Char} (hc : c.isAlphanum ∨ c = '_') : 0x20 ≤ c.toNat ∧ c.toNat ≤ 0x7E := by
  rcases hc with halphanum | rfl
  · have hlower : c.isLower = (decide (97 ≤ c.toNat) && decide (c.toNat ≤ 122)) := rfl
    have hdigit : c.isDigit = (decide (48 ≤ c.toNat) && decide (c.toNat ≤ 57)) := rfl
    change (decide (65 ≤ c.toNat ∧ c.toNat ≤ 90) || c.isLower || c.isDigit) = true at halphanum
    simp only [hlower, hdigit, Bool.or_eq_true, Bool.and_eq_true, decide_eq_true_eq] at halphanum
    omega
  · decide

section Names

variable {name : List Char} (hname : IsName name)

include hname

theorem IsName.not_mem {c : Char} (hc : ¬(c.isAlphanum ∨ c = '_')) : c ∉ name := fun hmem => hc (hname.2 c hmem)

theorem IsName.ne_of_mem {c : Char} (hmem : c ∈ name) (d : Char) (hd : ¬(d.isAlphanum ∨ d = '_')) : c ≠ d := by
  rintro rfl
  exact hname.not_mem hd hmem

theorem IsName.printable : IsPrintableAscii name := fun c hc => printable_of_name (hname.2 c hc)

theorem IsName.isPlainText : IsPlainText name where
  printable := hname.printable
  start := by
    obtain ⟨c, rest, rfl⟩ := List.exists_cons_of_ne_nil hname.1
    have hmem : c ∈ c :: rest := List.mem_cons_self
    exact ⟨c, rfl, hname.ne_of_mem hmem ' ' (by decide), hname.ne_of_mem hmem '#' (by decide)⟩
  afterColon after hafter := absurd (hafter.subset List.mem_cons_self) (hname.not_mem (by decide))
  afterSpace after hafter := absurd (hafter.subset List.mem_cons_self) (hname.not_mem (by decide))

theorem IsName.startsWithIndicator : Scalar.startsWithIndicator name = false := by
  obtain ⟨c, rest, rfl⟩ := List.exists_cons_of_ne_nil hname.1
  have hne (d : Char) (hd : ¬(d.isAlphanum ∨ d = '_')) : c ≠ d := hname.ne_of_mem List.mem_cons_self d hd
  simp [Scalar.startsWithIndicator, hne, List.isPrefixOf_cons_cons, beq_eq_false_iff_ne.mpr (hne _ _).symm]

theorem IsName.readPlain (indent : Nat) {rest : List Char} (hrest : endsWord rest = true) :
    Yaml.readPlain false indent (name ++ ':' :: rest) = some (⟨name, false⟩, ':' :: rest) := by
  have hword : readWord false (name ++ ':' :: rest) = some (name, ':' :: rest) :=
    readWord_append
      (fun c hc => ⟨isBlank_of_printable (hname.printable c hc) (hname.ne_of_mem hc ' ' (by decide)),
        isBreak_of_printable (hname.printable c hc)⟩)
      (fun after hafter => absurd (hafter.subset List.mem_cons_self) (hname.not_mem (by decide))) (.inr hrest)
  have hgoes : ({} : Gap).endsPlain (name ++ ':' :: rest) = false := hname.isPlainText.endsPlain rfl _
  obtain ⟨c, word, rfl⟩ := List.exists_cons_of_ne_nil hname.1
  exact readWords_of_end hgoes hword (by decide)

end Names

/-! ### Quoted scalars -/

theorem readSingleQuoted_spaces (count : Nat) {text : List Char} (htext : EndsGap text) :
    readSingleQuoted (spaces count ++ text) =
      (readSingleQuoted text).map fun (value, rest) => (spaces count ++ value, rest) := by
  cases count with
  | zero => simp [spaces]
  | succ count =>
    have hgap := readGap_spaces 0 (count + 1) htext
    rw [spaces_succ, List.cons_append] at hgap ⊢
    rw [readSingleQuoted.eq_def]
    dsimp only
    rw [dif_pos (.inl (by decide))]
    simp only [hgap]
    rfl

theorem readSingleQuoted_cons {c : Char} (hblank : isBlank c = false) (hbreak : isBreak c = false) (hquote : c ≠ '\x27')
    (rest : List Char) :
    readSingleQuoted (c :: rest) = (readSingleQuoted rest).map fun (value, rest) => (c :: value, rest) := by
  rw [readSingleQuoted.eq_def]
  dsimp only
  rw [dif_neg (by simp [hblank, hbreak]), if_neg hquote]

theorem readSingleQuoted_quotes (rest : List Char) :
    readSingleQuoted ('\x27' :: '\x27' :: rest) =
      (readSingleQuoted rest).map fun (value, rest) => ('\x27' :: value, rest) := by
  rw [readSingleQuoted, dif_neg (by decide), if_pos rfl]

theorem readSingleQuoted_end {rest : List Char} (hrest : rest.head? ≠ some '\x27') :
    readSingleQuoted ('\x27' :: rest) = some ([], rest) := by
  rw [readSingleQuoted.eq_def]
  dsimp only
  rw [dif_neg (by decide), if_pos rfl]
  split
  · exact absurd rfl hrest
  · rfl

/-- Spaces before a text are read with it, so that the induction passes a space of the text to them. -/
theorem readSingleQuoted_append (indent : Nat) {text : List Char} (htext : IsPrintableAscii text) (count : Nat)
    (rest : List Char) (hrest : rest.head? ≠ some '\x27') :
    readSingleQuoted (spaces count ++ (Scalar.singleQuoted indent false text ++ '\x27' :: rest)) =
      some (spaces count ++ text, rest) := by
  induction text generalizing count with
  | nil =>
    rw [Scalar.singleQuoted, if_neg Bool.false_ne_true, List.nil_append,
      readSingleQuoted_spaces count (by rintro _ ⟨⟩; decide), readSingleQuoted_end hrest]
    rfl
  | cons c text ih =>
    obtain ⟨hc, hothers⟩ := List.forall_mem_cons.mp htext
    have hbreak := isBreak_of_printable hc
    rw [Scalar.singleQuoted, hbreak, if_neg Bool.false_ne_true]
    by_cases hspace : c = ' '
    · subst hspace
      have hmore := ih hothers (count + 1)
      rw [spaces, List.replicate_succ', ← spaces] at hmore
      simpa [Scalar.isSpace] using hmore
    · have hblank := isBlank_of_printable hc hspace
      have hread : readSingleQuoted (Scalar.singleQuoted indent false text ++ '\x27' :: rest) = some (text, rest) :=
        ih hothers 0
      rw [Scalar.isSpace, if_neg (by simpa using hspace), if_neg Bool.false_ne_true, List.nil_append]
      by_cases hquote : c = '\x27'
      · subst hquote
        rw [if_pos rfl, readSingleQuoted_spaces count (by rintro _ ⟨⟩; decide)]
        simp only [List.cons_append, List.nil_append]
        rw [readSingleQuoted_quotes, hread]
        rfl
      · rw [if_neg hquote, readSingleQuoted_spaces count (by rintro _ ⟨⟩; exact ⟨hblank, hbreak⟩)]
        simp only [List.cons_append, List.nil_append]
        rw [readSingleQuoted_cons hblank hbreak hquote, hread]
        rfl

/-- The quotes around a text are among its printable characters here. -/
theorem printable_singleQuoted (indent : Nat) {text : List Char} (htext : IsPrintableAscii text) :
    IsPrintableAscii ('\x27' :: Scalar.singleQuoted indent false text ++ ['\x27']) := by
  have hquote : 0x20 ≤ '\x27'.toNat ∧ '\x27'.toNat ≤ 0x7E := by decide
  refine List.forall_mem_cons.mpr ⟨hquote, List.forall_mem_append.mpr ⟨?_, List.forall_mem_singleton.mpr hquote⟩⟩
  induction text with
  | nil => rintro c ⟨⟩
  | cons c text ih =>
    obtain ⟨hc, hothers⟩ := List.forall_mem_cons.mp htext
    have hfollowing := ih hothers
    rw [Scalar.singleQuoted, isBreak_of_printable hc]
    simp only [Bool.false_eq_true, if_false, List.nil_append]
    split
    · exact List.forall_mem_cons.mpr ⟨hc, hfollowing⟩
    · split
      · exact List.forall_mem_cons.mpr ⟨hc, List.forall_mem_cons.mpr ⟨hc, hfollowing⟩⟩
      · exact List.forall_mem_cons.mpr ⟨hc, hfollowing⟩

/-! ### Choice of style -/

theorem anyAdjacent_of_suffix {condition : Char → Char → Bool} {text : List Char}
    (htext : Scalar.anyAdjacent condition text = false) {c d : Char} {rest : List Char}
    (hsuffix : c :: d :: rest <:+ text) : condition c d = false := by
  induction text with
  | nil => cases List.suffix_nil.mp hsuffix
  | cons a text ih =>
    cases text with
    | nil =>
      have hlength := hsuffix.length_le
      simp at hlength
    | cons b text =>
      rw [Scalar.anyAdjacent, Bool.or_eq_false_iff] at htext
      rcases List.suffix_cons_iff.mp hsuffix with heq | hlater
      · cases heq
        exact htext.1
      · exact ih htext.2 hlater

theorem anyAdjacent_eq_false {condition : Char → Char → Bool} {text : List Char}
    (htext : ∀ c ∈ text, ∀ d ∈ text, condition c d = false) : Scalar.anyAdjacent condition text = false := by
  induction text with
  | nil => rfl
  | cons a text ih =>
    cases text with
    | nil => rfl
    | cons b text =>
      rw [Scalar.anyAdjacent, htext a (by simp) b (by simp), Bool.false_or]
      exact ih fun c hc d hd => htext c (.tail _ hc) d (.tail _ hd)

section Written

variable {text : List Char} (htext : IsPrintableAscii text)

include htext

theorem needsEscape_of_printable : Scalar.needsEscape text = false := by
  rw [Scalar.needsEscape, Bool.or_eq_false_iff, List.any_eq_false]
  refine ⟨fun c hc => ?_, anyAdjacent_eq_false fun c _ d hd => ?_⟩
  · simp [isPrintable_of_printable (htext c hc)]
  · rw [isBreak_of_printable (htext d hd), Bool.and_false]

theorem allowsSingleQuoted_of_printable : Scalar.allowsSingleQuoted text = true := by
  rw [Scalar.allowsSingleQuoted, needsEscape_of_printable htext, Bool.false_or, Bool.not_eq_true']
  exact anyAdjacent_eq_false fun c hc d _ => by rw [isBreak_of_printable (htext c hc), Bool.false_and]

/-- A text that may be written plain is read word by word. -/
theorem isPlainText_of_allowsPlain (hsome : text ≠ []) (hallows : Scalar.allowsPlain text = true) :
    IsPlainText text ∧ Scalar.startsWithIndicator text = false := by
  simp only [Scalar.allowsPlain, Bool.not_eq_true', Bool.or_eq_false_iff, Scalar.containsIndicator] at hallows
  obtain ⟨⟨⟨⟨-, hfirst⟩, hlast⟩, hstart⟩, ⟨hcolon, hafterColon⟩, hafterSpace⟩ := hallows
  refine ⟨⟨htext, ?_, fun after hafter => ?_, fun after hafter => ?_⟩, hstart⟩
  · obtain ⟨c, rest, rfl⟩ := List.exists_cons_of_ne_nil hsome
    refine ⟨c, rfl, by simpa [Scalar.isSpace] using hfirst, ?_⟩
    rintro rfl
    cases hstart
  · cases after with
    | nil =>
      obtain ⟨front, rfl⟩ := hafter
      simp at hcolon
    | cons d after =>
      refine ⟨d, rfl, ?_⟩
      rintro rfl
      cases anyAdjacent_of_suffix hafterColon hafter
  · cases after with
    | nil =>
      obtain ⟨front, rfl⟩ := hafter
      simp [Scalar.isSpace] at hlast
    | cons d after =>
      refine ⟨d, rfl, ?_⟩
      rintro rfl
      cases anyAdjacent_of_suffix hafterSpace hafter

theorem style_of_printable :
    Scalar.style text = .plain ∧ IsPlainText text ∧ Scalar.startsWithIndicator text = false
      ∨ Scalar.style text = .singleQuoted := by
  have hfeed : text.contains '\n' = false := by
    rw [List.contains_eq_any_beq, List.any_eq_false]
    intro c hc
    simpa using (ne_of_printable (htext c hc) '\n' (by decide)).symm
  rw [Scalar.style, hfeed, if_neg Bool.false_ne_true, allowsSingleQuoted_of_printable htext, if_pos rfl]
  by_cases hplain : (!Spelling.isAmbiguous text && Scalar.allowsPlain text) = true
  · obtain ⟨hunambiguous, hallows⟩ := Bool.and_eq_true_iff.mp hplain
    have hsome : text ≠ [] := by
      rintro rfl
      cases hunambiguous
    exact .inl ⟨if_pos hplain, isPlainText_of_allowsPlain htext hsome hallows⟩
  · exact .inr (if_neg hplain)

theorem printable_write (indent : Nat) : IsPrintableAscii (Scalar.write indent text) := by
  rcases style_of_printable htext with ⟨hplain, -⟩ | hquoted
  · rw [Scalar.write, hplain]
    exact htext
  · rw [Scalar.write, hquoted]
    exact printable_singleQuoted indent htext

theorem endLine_of_printable : Scalar.endLine text = text ++ ['\n'] := by
  have hlast : text.getLast?.any isBreak = false := by
    rw [Option.any_eq_false]
    exact fun c hc => by simp [isBreak_of_printable (htext c (List.mem_of_mem_getLast? hc))]
  rw [Scalar.endLine, hlast, if_neg Bool.false_ne_true]

end Written

end ContentProtection.Yaml
