import ContentProtection.Proofs.Yaml.Content
import ContentProtection.Yaml.Node.OfTokens

/-!
# Written documents read back

The tokens of content describe its node, so that a written document has that node as its root. A token is passed by three steps at most.
-/

namespace ContentProtection.Yaml

namespace Node

open Content

variable (handles : Handles) (anchors : List (List Char × Nat))

/-- Tokens that no item of a sequence stands before: the next key, or the end of the mapping. -/
def EndsValue (rest : List Token) : Prop := rest.head? = some .key ∨ rest.head? = some .blockEnd

theorem read_scalar (fuel : Nat) (place : Place) (style : ScalarStyle) (value : List Char) (rest : List Token) :
    read handles (fuel + 1) place ⟨.scalar style value :: rest, anchors⟩ =
      some (.scalar {} style value, ⟨rest, anchors⟩) := by
  simp [read, Remainder.readProperties, Remainder.skip, Properties.ofScalar]

theorem readUnless_scalar (fuel : Nat) (place : Place) (stops : List Token) (style : ScalarStyle) (value : List Char)
    (rest : List Token) (hstops : stops.contains (.scalar style value) = false) :
    readUnless handles (fuel + 2) place stops ⟨.scalar style value :: rest, anchors⟩ =
      some (.scalar {} style value, ⟨rest, anchors⟩) := by
  simp only [readUnless, List.head?_cons, Option.any_some, hstops, Bool.false_eq_true, if_false, read_scalar]

theorem read_blockEntry {fuel : Nat} {tokens : List Token} {items : List Node} {remainder : Remainder}
    (hitems : readOpenItems handles fuel ⟨.blockEntry :: tokens, anchors⟩ = some (items, remainder)) :
    read handles (fuel + 1) .blockMapping ⟨.blockEntry :: tokens, anchors⟩ =
      some (.sequence {} items, remainder) := by
  rw [read]
  simp only [Remainder.readProperties, Option.bind_eq_bind, Option.bind_some]
  rw [hitems]
  rfl

theorem read_blockMappingStart {fuel : Nat} {place : Place} (hplace : place ≠ .flow) {tokens : List Token}
    {entries : List (Node × Node)} {remainder : Remainder}
    (hentries : readBlockEntries handles fuel ⟨tokens, anchors⟩ = some (entries, remainder)) :
    read handles (fuel + 1) place ⟨.blockMappingStart :: tokens, anchors⟩ =
      some (.mapping {} entries, remainder) := by
  rw [read]
  simp only [Remainder.readProperties, Remainder.skip, List.drop_one, List.tail_cons, Option.bind_eq_bind,
    Option.bind_some]
  rw [hentries]
  cases place with
  | block => rfl
  | blockMapping => rfl
  | flow => exact absurd rfl hplace

theorem length_flatMap_itemTokens (values : List (List Char)) :
    (values.flatMap itemTokens).length = 2 * values.length := by
  induction values with
  | nil => rfl
  | cons value values ih =>
    rw [List.flatMap_cons, List.length_append, ih, List.length_cons, itemTokens]
    simp only [List.length_cons, List.length_nil]
    omega

theorem readOpenItems_texts (values : List (List Char)) {rest : List Token} (hrest : EndsValue rest) {fuel : Nat}
    (hfuel : values.length + 2 ≤ fuel) :
    readOpenItems handles fuel ⟨values.flatMap itemTokens ++ rest, anchors⟩ =
      some (values.map textNode, ⟨rest, anchors⟩) := by
  induction values generalizing fuel with
  | nil =>
    obtain ⟨fuel, rfl⟩ := Nat.exists_eq_add_of_le' hfuel
    rw [List.flatMap_nil, List.nil_append, List.map_nil, List.length_nil, readOpenItems]
    rcases hrest with hkey | hend
    · cases rest <;> simp_all
    · cases rest <;> simp_all
  | cons value values ih =>
    rw [List.length_cons] at hfuel
    obtain ⟨fuel, rfl⟩ := Nat.exists_eq_add_of_le' (Nat.le_trans (Nat.le_add_left 3 values.length) hfuel)
    rw [List.flatMap_cons, itemTokens, List.cons_append, List.cons_append, readOpenItems]
    simp only [Remainder.skip, List.drop_one, List.tail_cons, List.cons_append, List.nil_append]
    rw [readUnless_scalar]
    · rw [Option.bind_eq_bind, Option.bind_some, ih (by omega)]
      rfl
    · rfl

/-- No content starts with a token that shows that there is none. -/
theorem readUnless_content (fuel : Nat) (content : Content) (rest : List Token) (place : Place) :
    readUnless handles (fuel + 1) place [.key, .value, .blockEnd] ⟨content.tokens ++ rest, anchors⟩ =
      read handles fuel place ⟨content.tokens ++ rest, anchors⟩ := by
  have hstops : (content.tokens ++ rest).head?.any ([Token.key, .value, .blockEnd].contains ·) = false :=
    match content with
    | .plain _ | .text _ | .texts [] | .texts (_ :: _) | .mapping [] | .mapping (_ :: _) => rfl
  rw [readUnless, hstops, if_neg Bool.false_ne_true]

mutual

/-- The tokens of content are read as its node, wherever a value may stand. -/
theorem read_content :
    ∀ (content : Content) {rest : List Token}, EndsValue rest → ∀ {fuel : Nat}, 3 * content.tokens.length ≤ fuel →
      read handles fuel .blockMapping ⟨content.tokens ++ rest, anchors⟩ = some (content.toNode, ⟨rest, anchors⟩)
  | .plain spelling, rest, _, fuel, hfuel => by
    obtain ⟨fuel, rfl⟩ := Nat.exists_eq_add_of_le' (Nat.le_trans (by decide : 1 ≤ 3 * 1) hfuel)
    exact read_scalar handles anchors fuel .blockMapping .plain spelling rest
  | .text value, rest, _, fuel, hfuel => by
    obtain ⟨fuel, rfl⟩ := Nat.exists_eq_add_of_le' (Nat.le_trans (by decide : 1 ≤ 3 * 1) hfuel)
    exact read_scalar handles anchors fuel .blockMapping (Scalar.style value) value rest
  | .texts [], rest, _, fuel, hfuel => by
    obtain ⟨fuel, rfl⟩ := Nat.exists_eq_add_of_le' (Nat.le_trans (by decide : 2 ≤ 3 * 2) hfuel)
    rfl
  | .texts (value :: values), rest, hrest, fuel, hfuel => by
    have hlength : (Content.texts (value :: values)).tokens.length = 2 * (values.length + 1) :=
      length_flatMap_itemTokens (value :: values)
    obtain ⟨fuel, rfl⟩ := Nat.exists_eq_add_of_le' (show 1 ≤ fuel by omega)
    have hitems := readOpenItems_texts handles anchors (value :: values) hrest
      (show values.length + 1 + 2 ≤ fuel by omega)
    exact read_blockEntry handles anchors hitems
  | .mapping [], rest, _, fuel, hfuel => by
    obtain ⟨fuel, rfl⟩ := Nat.exists_eq_add_of_le' (Nat.le_trans (by decide : 2 ≤ 3 * 2) hfuel)
    rfl
  | .mapping (entry :: entries), rest, _, fuel, hfuel => by
    rw [tokens_mapping (List.cons_ne_nil _ _), List.cons_append, List.length_cons, List.length_append] at hfuel
    rw [tokens_mapping (List.cons_ne_nil _ _), List.cons_append, List.cons_append, List.append_assoc]
    obtain ⟨fuel, rfl⟩ := Nat.exists_eq_add_of_le' (show 1 ≤ fuel by omega)
    exact read_blockMappingStart handles anchors (by decide)
      (readBlockEntries_entries (entry :: entries) rest (by omega))

theorem readBlockEntries_entries :
    ∀ (entries : List (String × Content)) (rest : List Token) {fuel : Nat},
      3 * (entryTokens entries).length + 1 ≤ fuel →
        readBlockEntries handles fuel ⟨entryTokens entries ++ .blockEnd :: rest, anchors⟩ =
          some (entryNodes entries, ⟨rest, anchors⟩)
  | [], rest, fuel, hfuel => by
    obtain ⟨fuel, rfl⟩ := Nat.exists_eq_add_of_le' hfuel
    rfl
  | (key, content) :: entries, rest, fuel, hfuel => by
    have hlength : (entryTokens ((key, content) :: entries)).length =
        3 + content.tokens.length + (entryTokens entries).length := by
      simp [entryTokens]
      omega
    obtain ⟨fuel, rfl⟩ := Nat.exists_eq_add_of_le' (show 3 ≤ fuel by omega)
    have hends : EndsValue (entryTokens entries ++ .blockEnd :: rest) := by
      cases entries with
      | nil => exact .inr rfl
      | cons => exact .inl rfl
    have hvalue := read_content content hends (show 3 * content.tokens.length ≤ fuel by omega)
    have hbehind : readValue handles (fuel + 2) .blockMapping [.key, .value, .blockEnd]
        ⟨.value :: (content.tokens ++ (entryTokens entries ++ .blockEnd :: rest)), anchors⟩ =
          some (content.toNode, ⟨entryTokens entries ++ .blockEnd :: rest, anchors⟩) := by
      rw [readValue]
      exact (readUnless_content handles anchors fuel content _ _).trans hvalue
    have hothers := readBlockEntries_entries entries rest (show _ ≤ fuel + 2 by omega)
    rw [entryTokens, List.append_assoc, List.append_assoc, List.cons_append, readBlockEntries]
    simp only [Remainder.skip, List.drop_one, List.tail_cons, List.cons_append, List.nil_append]
    rw [readUnless_scalar, Option.bind_eq_bind, Option.bind_some]
    · dsimp only
      rw [hbehind, Option.bind_some]
      dsimp only
      rw [hothers]
      rfl
    · rfl

end

end Node

namespace Document

/-- The tokens of a mapping are read as the root of a document. -/
theorem readRoot_mapping {entries : List (String × Content)} (hsome : entries ≠ []) :
    readRoot [] (Content.mapping entries).tokens = some ((Content.mapping entries).toNode, []) := by
  have hfuel : 3 * (Content.entryTokens entries).length + 1 ≤ 4 * (Content.entryTokens entries).length + 11 := by omega
  have hread := Node.read_blockMappingStart ([] ++ Handles.standard) [] (by decide : Place.block ≠ .flow)
    (Node.readBlockEntries_entries ([] ++ Handles.standard) [] entries [] hfuel)
  have hlength : 4 * (Token.blockMappingStart :: Content.entryTokens entries ++ [Token.blockEnd]).length + 4 =
      4 * (Content.entryTokens entries).length + 11 + 1 := by
    simp only [List.cons_append, List.length_cons, List.length_append, List.length_nil]
    omega
  rw [Content.tokens_mapping hsome, readRoot, hlength, List.cons_append, hread]
  rfl

/-- Where the keys are names and the texts are of printable characters, a written document is read as its own root. -/
theorem ofText?_writeDocument {entries : List (String × Content)} (hentries : Content.AreWritable entries) :
    Document.ofText? (Content.writeDocument entries) = some ⟨some (Content.mapping entries).toNode⟩ := by
  rw [Document.ofText?, Content.ofText?_writeDocument hentries, Option.bind_some]
  cases entries with
  | nil => rfl
  | cons entry entries =>
    have hroot := readRoot_mapping (List.cons_ne_nil entry entries)
    rw [Content.tokens_mapping (List.cons_ne_nil _ _), List.cons_append] at hroot ⊢
    change (readRoot [] _).bind _ = _
    rw [hroot]
    rfl

end Document

end ContentProtection.Yaml
