import ContentProtection.Proofs.Search
import ContentProtection.Xml.Document
import Mathlib.Data.List.Nodup

/-!
# XML documents are read

Plain documents, written out, and that they are read as the tree they were written from. A document is plain when nothing in it has to be rewritten: its names have no prefixes, its texts and attribute values hold no markup, no references and no spaces but blanks, and no text stands right before another. Elements without children may be written as one tag or as two.
-/

namespace ContentProtection.Xml

/-! ### Plain documents -/

/-- A character that stands for itself in text and in attribute values. -/
def isPlain (c : Char) : Bool :=
  isCharacter c && (c == ' ' || !isSpace c) && c != '<' && c != '>' && c != '&' && c != '"'

theorem isPlain_iff {c : Char} :
    isPlain c = true ↔ isCharacter c = true ∧ (isSpace c = true → c = ' ') ∧ c ≠ '<' ∧ c ≠ '>' ∧ c ≠ '&' ∧ c ≠ '"' := by
  simp only [isPlain, Bool.and_eq_true, Bool.or_eq_true, beq_iff_eq, Bool.not_eq_true', bne_iff_ne]
  cases isSpace c <;> simp [and_assoc]

/-- A name without a prefix that is not the name of a declaration. -/
structure QualifiedName.IsPlain (name : QualifiedName) : Prop where
  qualifier_eq : name.qualifier = []
  characters : ∀ c ∈ name.localName, isNameCharacter c = true ∧ c ≠ ':'
  start : ∃ c ∈ name.localName.head?, isNameStart c = true
  ne_declaration : name.localName ≠ declarationPrefix

structure Attribute.IsPlain (attr : Attribute) : Prop where
  name : attr.name.IsPlain
  value : ∀ c ∈ attr.value, Xml.isPlain c = true

def Node.isText : Node → Bool
  | .text _ => true
  | _ => false

mutual

def Node.IsPlain : Node → Prop
  | .element name attributes children =>
    name.IsPlain ∧ (∀ attr ∈ attributes, attr.IsPlain) ∧ (attributes.map Attribute.name).Nodup ∧ ArePlain children
  | .text value => value ≠ [] ∧ ∀ c ∈ value, Xml.isPlain c = true
  | .remark => True

/-- Text is not followed by text. -/
def ArePlain : List Node → Prop
  | [] => True
  | node :: rest => node.IsPlain ∧ (node.isText = true → ∀ next ∈ rest.head?, next.isText = false) ∧ ArePlain rest

end

theorem arePlain_of_elements {nodes : List Node} (hnodes : ∀ node ∈ nodes, node.IsPlain ∧ node.isText = false) :
    ArePlain nodes := by
  induction nodes with
  | nil => trivial
  | cons node nodes ih =>
    have hrest : ∀ next ∈ nodes, next.IsPlain ∧ next.isText = false := fun next hmem => hnodes next (.tail _ hmem)
    exact ⟨(hnodes node List.mem_cons_self).1, fun _ next hhead => (hrest next (List.mem_of_head? hhead)).2, ih hrest⟩

/-! ### Writing -/

def Attribute.write (attr : Attribute) : List Char :=
  ' ' :: (attr.name.localName ++ '=' :: '"' :: (attr.value ++ ['"']))

def tagEnd (isEmpty : Bool) : List Char := if isEmpty then ['/', '>'] else ['>']

def writeStartTag (name : QualifiedName) (attributes : List Attribute) (isEmpty : Bool) : List Char :=
  '<' :: (name.localName ++ (attributes.flatMap Attribute.write ++ tagEnd isEmpty))

def writeEndTag (name : QualifiedName) : List Char := '<' :: '/' :: (name.localName ++ ['>'])

mutual

/-- The text of a document; with `short`, elements without children are one tag. -/
def Node.write (short : Bool) : Node → List Char
  | .element name attributes children =>
    if short && children.isEmpty then writeStartTag name attributes true
    else writeStartTag name attributes false ++ (writeAll short children ++ writeEndTag name)
  | .text value => value
  | .remark => ['<', '!', '-', '-', '-', '-', '>']

def writeAll (short : Bool) : List Node → List Char
  | [] => []
  | node :: rest => node.write short ++ writeAll short rest

end

theorem writeStartTag_singleton (name : QualifiedName) (attr : Attribute) (isEmpty : Bool) :
    writeStartTag name [attr] isEmpty =
      '<' :: (name.localName ++ ' ' :: (attr.name.localName ++ ['=', '"'])) ++
        (attr.value ++ '"' :: tagEnd isEmpty) := by
  simp [writeStartTag, Attribute.write]

theorem write_element (short : Bool) (name : QualifiedName) (attributes : List Attribute) {children : List Node}
    (hsome : children ≠ []) :
    (Node.element name attributes children).write short =
      writeStartTag name attributes false ++ (writeAll short children ++ writeEndTag name) := by
  have hmore : ¬(short && children.isEmpty) = true := by
    rw [Bool.and_eq_true, List.isEmpty_iff]
    exact fun hboth => hsome hboth.2
  rw [Node.write, if_neg hmore]

theorem writeAll_append (short : Bool) (first second : List Node) :
    writeAll short (first ++ second) = writeAll short first ++ writeAll short second := by
  induction first with
  | nil => rfl
  | cons node first ih => rw [List.cons_append, writeAll, writeAll, ih, List.append_assoc]

theorem writeAll_singleton (short : Bool) (node : Node) : writeAll short [node] = node.write short := List.append_nil _

mutual

/-- The tokens of a document. -/
def Node.tokens (short : Bool) : Node → List Token
  | .element name attributes children =>
    if short && children.isEmpty then [.startTag name attributes true]
    else .startTag name attributes false :: (tokensOfAll short children ++ [.endTag name])
  | .text value => [.text value]
  | .remark => [.comment]

def tokensOfAll (short : Bool) : List Node → List Token
  | [] => []
  | node :: rest => node.tokens short ++ tokensOfAll short rest

end

/-! ### Plain text stands for itself -/

theorem pieces?_eq_map {written : List Char} (hplain : ∀ c ∈ written, isPlain c = true) :
    pieces? written = some (written.map .literal) := by
  rw [pieces?]
  induction written with
  | nil => rfl
  | cons c written ih =>
    obtain ⟨-, -, -, -, hreference, -⟩ := isPlain_iff.mp (hplain c List.mem_cons_self)
    rw [piecesFrom, if_neg hreference, ih fun other hmem => hplain other (.tail _ hmem)]
    rfl

theorem attributeValue_map {written : List Char} (hplain : ∀ c ∈ written, isPlain c = true) :
    attributeValue (written.map .literal) = written := by
  induction written with
  | nil => rfl
  | cons c written ih =>
    obtain ⟨-, hspace, -⟩ := isPlain_iff.mp (hplain c List.mem_cons_self)
    have hblank : (if isSpace c then ' ' else c) = c := by
      split
      · rename_i hc
        exact (hspace hc).symm
      · rfl
    rw [List.map_cons, attributeValue, hblank, ih fun other hmem => hplain other (.tail _ hmem)]
    -- A carriage return would be joined with the line feed behind it; it is a space that is no blank.
    intro _ _ hreturn
    subst hreturn
    exact absurd (hspace rfl) (by decide)

theorem textFrom_map {written : List Char} (hplain : ∀ c ∈ written, c ≠ '\r') {reversed : List Char}
    (hreversed : ∀ c ∈ reversed.head?, c ≠ '\r') :
    textFrom reversed false (written.map .literal) = reversed.reverse ++ written := by
  induction written generalizing reversed with
  | nil => simp [textFrom]
  | cons c written ih =>
    have hc := hplain c List.mem_cons_self
    have hpush (atEnd : Bool) : pushLiteral reversed c atEnd = c :: reversed := by
      have hending : (if (atEnd && c == '\r') = true then '\n' else c) = c := by simp [hc]
      rw [pushLiteral, hending]
      rintro before rfl
      exact hreversed '\r' rfl rfl
    rw [List.map_cons, textFrom, hpush, ih (fun other hmem => hplain other (.tail _ hmem))]
    · simp
    · rintro other ⟨⟩
      exact hc

theorem textValue_map {written : List Char} (hplain : ∀ c ∈ written, isPlain c = true) :
    textValue (written.map .literal) = written := by
  refine textFrom_map (fun c hmem => ?_) (by rintro _ ⟨⟩)
  rintro rfl
  exact absurd (hplain _ hmem) (by decide)

/-! ### Tags -/

theorem skipSpaces_cons {c : Char} (hc : isSpace c = false) (rest : List Char) :
    skipSpaces (c :: rest) = c :: rest := by
  rw [skipSpaces, List.dropWhile_cons_of_neg (by rw [hc]; exact Bool.false_ne_true)]

/-- Names start with neither a space nor a mark. -/
theorem of_isNameStart {c : Char} (hstart : isNameStart c = true) :
    isSpace c = false ∧ c ≠ '/' ∧ c ≠ '>' ∧ c ≠ '!' ∧ c ≠ '?' := by
  have hother : ∀ other : Char, isNameStart other = false → c ≠ other := by
    rintro other hother rfl
    rw [hstart] at hother
    exact Bool.noConfusion hother
  refine ⟨?_, hother _ (by decide), hother _ (by decide), hother _ (by decide), hother _ (by decide)⟩
  simp [isSpace, hother ' ' (by decide), hother '\t' (by decide), hother '\n' (by decide), hother '\r' (by decide)]

theorem QualifiedName.IsPlain.eq_cons {name : QualifiedName} (hname : name.IsPlain) :
    ∃ c tail, name.localName = c :: tail ∧ isNameStart c = true := by
  obtain ⟨c, hhead, hstart⟩ := hname.start
  obtain ⟨tail, htail⟩ := List.head?_eq_some_iff.mp hhead
  exact ⟨c, tail, htail, hstart⟩

theorem ofText?_localName {name : QualifiedName} (hname : name.IsPlain) :
    QualifiedName.ofText? name.localName = some name := by
  obtain ⟨qualifier, localName⟩ := name
  obtain rfl : qualifier = [] := hname.qualifier_eq
  obtain ⟨c, hhead, hstart⟩ := hname.start
  have hlocal : localName.head? = some c := hhead
  have hnone : ':' ∉ localName := fun hmem => (hname.characters _ hmem).2 rfl
  have hcolon : ∀ c ∈ localName, decide (c ≠ ':') = true := fun c hmem => decide_eq_true (hname.characters c hmem).2
  obtain ⟨htake, hdrop⟩ := Search.takeWhile_append_stop hcolon [] (by rintro _ ⟨⟩)
  rw [List.append_nil] at htake hdrop
  rw [QualifiedName.ofText?, hdrop, htake]
  simp [hnone, hlocal, hstart]

theorem readName_localName {name : QualifiedName} (hname : name.IsPlain) (rest : List Char)
    (hrest : ∀ c ∈ rest.head?, isNameCharacter c = false) : readName (name.localName ++ rest) = some (name, rest) := by
  obtain ⟨htake, hdrop⟩ := Search.takeWhile_append_stop (fun c hmem => (hname.characters c hmem).1) rest hrest
  rw [readName, htake, hdrop, ofText?_localName hname]
  rfl

theorem readAttribute_write {attr : Attribute} (hattr : attr.IsPlain) (rest : List Char) :
    readAttribute (attr.name.localName ++ '=' :: '"' :: (attr.value ++ '"' :: rest)) = some (attr, rest) := by
  have hname := readName_localName hattr.name ('=' :: '"' :: (attr.value ++ '"' :: rest)) (by rintro _ ⟨⟩; decide)
  have hvalue : ∀ c ∈ attr.value, (c ≠ '"' && c ≠ '<') = true := fun c hmem => by
    obtain ⟨-, -, hopen, -, -, hquote⟩ := isPlain_iff.mp (hattr.value c hmem)
    simp [hopen, hquote]
  obtain ⟨htake, hdrop⟩ := Search.takeWhile_append_stop hvalue ('"' :: rest) (by rintro _ ⟨⟩; decide)
  have hcharacters : attr.value.all isCharacter = true :=
    List.all_eq_true.mpr fun c hmem => (isPlain_iff.mp (hattr.value c hmem)).1
  have hequals := skipSpaces_cons (show isSpace '=' = false by decide) ('"' :: (attr.value ++ '"' :: rest))
  have hquote := skipSpaces_cons (show isSpace '"' = false by decide) (attr.value ++ '"' :: rest)
  simp only [readAttribute, hname, hequals, hquote, true_or, if_true, htake, hdrop, hcharacters,
    pieces?_eq_map hattr.value, attributeValue_map hattr.value, decide_true, Bool.and_self, Option.map_some]

theorem readAttributes_cons {attr : Attribute} (hattr : attr.IsPlain) (after : List Char) :
    readAttributes (attr.write ++ after) =
      (readAttributes after).map fun (attributes, isEmpty, rest) => (attr :: attributes, isEmpty, rest) := by
  obtain ⟨c, tail, hlocal, hstart⟩ := hattr.name.eq_cons
  obtain ⟨hspace, hslash, hclose, -, -⟩ := of_isNameStart hstart
  have hwritten : attr.write ++ after = ' ' :: (attr.name.localName ++ '=' :: '"' :: (attr.value ++ '"' :: after)) := by
    simp [Attribute.write]
  have hskip : skipSpaces (attr.write ++ after) =
      attr.name.localName ++ '=' :: '"' :: (attr.value ++ '"' :: after) := by
    rw [hwritten, skipSpaces, List.dropWhile_cons_of_pos (by decide), ← skipSpaces, hlocal, List.cons_append,
      skipSpaces_cons hspace]
  have hread : readAttribute (skipSpaces (attr.write ++ after)) = some (attr, after) := by
    rw [hskip, readAttribute_write hattr]
  rw [readAttributes]
  split
  · rename_i heq
    rw [hskip, hlocal] at heq
    exact absurd (List.cons.inj heq).1 hslash
  · rename_i heq
    rw [hskip, hlocal] at heq
    exact absurd (List.cons.inj heq).1 hclose
  · rw [if_pos (by rw [hwritten]; rfl)]
    split
    · rename_i hnone
      rw [hread] at hnone
      cases hnone
    · rename_i hsome
      rw [hread] at hsome
      cases hsome
      rfl

theorem readAttributes_write {attributes : List Attribute} (hattributes : ∀ attr ∈ attributes, attr.IsPlain)
    (isEmpty : Bool) (rest : List Char) :
    readAttributes (attributes.flatMap Attribute.write ++ (tagEnd isEmpty ++ rest)) =
      some (attributes, isEmpty, rest) := by
  induction attributes with
  | nil => cases isEmpty <;> rw [readAttributes] <;> rfl
  | cons attr attributes ih =>
    rw [List.flatMap_cons, List.append_assoc, readAttributes_cons (hattributes attr List.mem_cons_self),
      ih fun other hmem => hattributes other (.tail _ hmem)]
    rfl

theorem readMarkup_startTag {name : QualifiedName} {attributes : List Attribute} (hname : name.IsPlain)
    (hattributes : ∀ attr ∈ attributes, attr.IsPlain) (isEmpty : Bool) (rest : List Char) :
    readMarkup (name.localName ++ (attributes.flatMap Attribute.write ++ (tagEnd isEmpty ++ rest))) =
      some (.startTag name attributes isEmpty, rest) := by
  have hafter : ∀ c ∈ (attributes.flatMap Attribute.write ++ (tagEnd isEmpty ++ rest)).head?,
      isNameCharacter c = false := by
    cases attributes with
    | nil => cases isEmpty <;> (rintro _ ⟨⟩; decide)
    | cons attr attributes =>
      rintro _ ⟨⟩
      decide
  obtain ⟨c, tail, hlocal, hstart⟩ := hname.eq_cons
  obtain ⟨-, hslash, -, hmark, hquestion⟩ := of_isNameStart hstart
  have htag : readMarkup (c :: (tail ++ (attributes.flatMap Attribute.write ++ (tagEnd isEmpty ++ rest)))) =
      readStartTag (c :: (tail ++ (attributes.flatMap Attribute.write ++ (tagEnd isEmpty ++ rest)))) := by
    rw [readMarkup]
    · exact fun _ heq => hmark (List.cons.inj heq).1
    · exact fun _ heq => hmark (List.cons.inj heq).1
    · exact fun _ heq => hquestion (List.cons.inj heq).1
    · exact fun _ heq => hslash (List.cons.inj heq).1
  rw [hlocal, List.cons_append, htag, ← List.cons_append, ← hlocal, readStartTag, readName_localName hname _ hafter]
  dsimp only
  rw [readAttributes_write hattributes]
  rfl

theorem readMarkup_endTag {name : QualifiedName} (hname : name.IsPlain) (rest : List Char) :
    readMarkup ('/' :: (name.localName ++ '>' :: rest)) = some (.endTag name, rest) := by
  have hread := readName_localName hname ('>' :: rest) (by rintro _ ⟨⟩; decide)
  have hskip := skipSpaces_cons (show isSpace '>' = false by decide) rest
  simp only [readMarkup, readEndTag, hread, hskip]

theorem readText_plain {written : List Char} (hplain : ∀ c ∈ written, isPlain c = true) {rest : List Char}
    (hrest : ∀ c ∈ rest.head?, c = '<') : readText (written ++ rest) = some (.text written, rest) := by
  have hopen : ∀ c ∈ written, decide (c ≠ '<') = true := fun c hmem =>
    decide_eq_true (isPlain_iff.mp (hplain c hmem)).2.2.1
  obtain ⟨htake, hdrop⟩ := Search.takeWhile_append_stop hopen rest fun c hmem => by rw [hrest c hmem]; rfl
  have hcharacters : written.all isCharacter = true :=
    List.all_eq_true.mpr fun c hmem => (isPlain_iff.mp (hplain c hmem)).1
  have hmark : Search.occurs [']', ']', '>'] written = false := by
    rw [Bool.eq_false_iff]
    intro hoccurs
    obtain ⟨before, after, rfl⟩ := Search.occurs_iff.mp hoccurs
    exact (isPlain_iff.mp (hplain '>' (by simp))).2.2.2.1 rfl
  rw [readText, htake, hdrop, hcharacters, hmark]
  rfl

/-! ### Tokens -/

/-- One token after the other, without the bounds that reading to the end needs. -/
theorem tokens?_cons (c : Char) (text : List Char) :
    tokens? (c :: text) =
      (if c = '<' then readMarkup text else readText (c :: text)).bind fun (token, rest) =>
        (tokens? rest).map (token :: ·) := by
  rw [tokens?]
  split
  · split <;> rename_i hread <;> simp only [hread, Option.bind_none, Option.bind_some]
  · split <;> rename_i hread <;> simp only [hread, Option.bind_none, Option.bind_some]

theorem tokens?_of_readMarkup {text rest : List Char} {token : Token} (hread : readMarkup text = some (token, rest)) :
    tokens? ('<' :: text) = (tokens? rest).map (token :: ·) := by
  rw [tokens?_cons, if_pos rfl, hread, Option.bind_some]

theorem tokens?_of_readText {c : Char} (hc : c ≠ '<') {text rest : List Char} {token : Token}
    (hread : readText (c :: text) = some (token, rest)) : tokens? (c :: text) = (tokens? rest).map (token :: ·) := by
  rw [tokens?_cons, if_neg hc, hread, Option.bind_some]

theorem tokens?_startTag {name : QualifiedName} {attributes : List Attribute} (hname : name.IsPlain)
    (hattributes : ∀ attr ∈ attributes, attr.IsPlain) (isEmpty : Bool) (rest : List Char) :
    tokens? (writeStartTag name attributes isEmpty ++ rest) =
      (tokens? rest).map (.startTag name attributes isEmpty :: ·) := by
  rw [writeStartTag, List.cons_append, List.append_assoc, List.append_assoc]
  exact tokens?_of_readMarkup (readMarkup_startTag hname hattributes isEmpty rest)

theorem tokens?_endTag {name : QualifiedName} (hname : name.IsPlain) (rest : List Char) :
    tokens? (writeEndTag name ++ rest) = (tokens? rest).map (.endTag name :: ·) := by
  rw [writeEndTag, List.cons_append, List.cons_append, List.append_assoc]
  exact tokens?_of_readMarkup (readMarkup_endTag hname rest)

theorem tokens?_text {written : List Char} (hsome : written ≠ []) (hplain : ∀ c ∈ written, isPlain c = true)
    {rest : List Char} (hrest : ∀ c ∈ rest.head?, c = '<') :
    tokens? (written ++ rest) = (tokens? rest).map (.text written :: ·) := by
  have hread := readText_plain hplain hrest
  cases written with
  | nil => exact absurd rfl hsome
  | cons c written =>
    exact tokens?_of_readText (isPlain_iff.mp (hplain c List.mem_cons_self)).2.2.1 hread

theorem head?_write {node : Node} (hnode : node.isText = false) (short : Bool) (rest : List Char) :
    (node.write short ++ rest).head? = some '<' := by
  cases node with
  | element name attributes children =>
    rw [Node.write]
    split <;> rfl
  | text value => cases hnode
  | remark => rfl

theorem head?_writeAll {nodes : List Node} (hnodes : ∀ next ∈ nodes.head?, next.isText = false) (short : Bool)
    {rest : List Char} (hrest : ∀ c ∈ rest.head?, c = '<') :
    ∀ c ∈ (writeAll short nodes ++ rest).head?, c = '<' := by
  cases nodes with
  | nil => exact hrest
  | cons node nodes =>
    rw [writeAll, List.append_assoc, head?_write (hnodes node rfl)]
    rintro _ ⟨⟩
    rfl

mutual

theorem tokens?_write (short : Bool) (node : Node) (hnode : node.IsPlain) (rest : List Char)
    (hrest : node.isText = true → ∀ c ∈ rest.head?, c = '<') :
    tokens? (node.write short ++ rest) = (tokens? rest).map (node.tokens short ++ ·) :=
  match node with
  | .element name attributes children => by
    obtain ⟨hname, hattributes, -, hchildren⟩ := hnode
    rw [Node.write, Node.tokens]
    split
    · exact tokens?_startTag hname hattributes true rest
    · have hinner := tokens?_writeAll short children hchildren (writeEndTag name ++ rest) (by rintro _ ⟨⟩; rfl)
      rw [List.append_assoc, List.append_assoc, tokens?_startTag hname hattributes, hinner, tokens?_endTag hname,
        Option.map_map, Option.map_map]
      congr 1
      funext tokens
      simp
  | .text value => tokens?_text hnode.1 hnode.2 (hrest rfl)
  | .remark => by
    have hread : readMarkup ('!' :: '-' :: '-' :: '-' :: '-' :: '>' :: rest) = some (.comment, rest) := by
      simp [readMarkup, readUpTo, Search.splitAtFirst?, Search.occurs, isComment]
    exact tokens?_of_readMarkup hread

theorem tokens?_writeAll (short : Bool) (nodes : List Node) (hnodes : ArePlain nodes) (rest : List Char)
    (hrest : ∀ c ∈ rest.head?, c = '<') :
    tokens? (writeAll short nodes ++ rest) = (tokens? rest).map (tokensOfAll short nodes ++ ·) :=
  match nodes with
  | [] => by
    rw [writeAll, List.nil_append]
    exact Option.map_id'.symm
  | node :: nodes => by
    obtain ⟨hnode, hnext, hnodes⟩ := hnodes
    rw [writeAll, List.append_assoc,
      tokens?_write short node hnode _ fun htext => head?_writeAll (hnext htext) short hrest,
      tokens?_writeAll short nodes hnodes rest hrest, Option.map_map, tokensOfAll]
    congr 1
    funext tokens
    exact (List.append_assoc ..).symm

end

/-! ### The tree -/

theorem sortAttributes_plain {attributes : List Attribute} (hattributes : ∀ attr ∈ attributes, attr.IsPlain) :
    sortAttributes [] attributes = some ([], attributes) := by
  induction attributes with
  | nil => rfl
  | cons attr attributes ih =>
    have hattr := (hattributes attr List.mem_cons_self).name
    have hprefix : ¬attr.name.qualifier = declarationPrefix := by
      rw [hattr.qualifier_eq]
      decide
    rw [sortAttributes, if_neg hprefix, if_neg hattr.ne_declaration,
      ih fun other hmem => hattributes other (.tail _ hmem)]
    rfl

theorem mapM_expandAttribute? (scope : Scope) {attributes : List Attribute}
    (hattributes : ∀ attr ∈ attributes, attr.IsPlain) :
    attributes.mapM (fun attr => scope.expandAttribute? attr.name) =
      some ((attributes.map Attribute.name).map fun name => ⟨none, name.localName⟩) := by
  induction attributes with
  | nil => rfl
  | cons attr attributes ih =>
    have hqualifier : attr.name.qualifier = [] := (hattributes attr List.mem_cons_self).name.qualifier_eq
    have hexpand : scope.expandAttribute? attr.name = some ⟨none, attr.name.localName⟩ := by
      rw [Scope.expandAttribute?, hqualifier, if_neg (by decide), if_pos List.isEmpty_nil]
    rw [List.mapM_cons, hexpand, ih fun other hmem => hattributes other (.tail _ hmem)]
    rfl

/-- Attributes without prefixes declare nothing and keep their place. -/
theorem enter?_plain (outer : Scope) {name : QualifiedName} {attributes : List Attribute} (hname : name.IsPlain)
    (hattributes : ∀ attr ∈ attributes, attr.IsPlain) (hnodup : (attributes.map Attribute.name).Nodup) :
    outer.enter? name attributes = some (outer, attributes) := by
  have hqualifier : ∀ attr ∈ attributes, attr.name.qualifier = [] := fun attr hmem =>
    (hattributes attr hmem).name.qualifier_eq
  -- Names are compared with their namespaces; no prefix, no namespace, so their local names tell them apart.
  have hexpanded : ((attributes.map Attribute.name).map fun name => (⟨none, name.localName⟩ : ExpandedName)).Nodup := by
    refine hnodup.map_on fun first hfirst second hsecond heq => ?_
    obtain ⟨attr, hmem, rfl⟩ := List.mem_map.mp hfirst
    obtain ⟨other, hother, rfl⟩ := List.mem_map.mp hsecond
    have hlocal : attr.name.localName = other.name.localName := congrArg ExpandedName.localName heq
    rw [QualifiedName.mk.injEq, hqualifier attr hmem, hqualifier other hother]
    exact ⟨rfl, hlocal⟩
  have hadmits : outer.admitsElement name = true := by
    rw [Scope.admitsElement, hname.qualifier_eq]
    rfl
  have hkept : attributes.filter (fun attr => attr.name.qualifier.isEmpty) = attributes :=
    List.filter_eq_self.mpr fun attr hmem => by rw [hqualifier attr hmem]; rfl
  rw [Scope.enter?, sortAttributes_plain hattributes]
  show ((attributes.mapM fun attr => outer.expandAttribute? attr.name).bind fun names =>
    if names.Nodup ∧ outer.admitsElement name = true then
      some (outer, attributes.filter fun attr => attr.name.qualifier.isEmpty)
    else none) = _
  rw [mapM_expandAttribute? outer hattributes, Option.bind_some, if_pos ⟨hexpanded, hadmits⟩, hkept]

/-- A node joins the children unless it is text behind text. -/
theorem push_of_not_joined {innermost : OpenElement} {node : Node}
    (happart : node.isText = true → ∀ last ∈ innermost.children.head?, last.isText = false) :
    innermost.push node = { innermost with children := node :: innermost.children } := by
  rw [OpenElement.push]
  rintro value before rest rfl hbefore
  rw [hbefore] at happart
  exact absurd (happart rfl (.text before) rfl) Bool.noConfusion

variable {short : Bool} {name : QualifiedName} {attributes : List Attribute} {children : List Node}

/-- An element is attached once its tokens have been added, if its children are. -/
theorem foldlM_element (hname : name.IsPlain) (hattributes : ∀ attr ∈ attributes, attr.IsPlain)
    (hnodup : (attributes.map Attribute.name).Nodup)
    (hchildren : ∀ (element : OpenElement) (outer : List OpenElement) (root : Option Node) (rest : List Token),
      element.children = [] →
        (tokensOfAll short children ++ rest).foldlM Builder.addToken? ⟨element :: outer, root⟩ =
          rest.foldlM Builder.addToken? ⟨{ element with children := children.reverse } :: outer, root⟩)
    (builder : Builder) (hready : (builder.openElements.isEmpty && builder.root.isSome) = false) (rest : List Token) :
    ((Node.element name attributes children).tokens short ++ rest).foldlM Builder.addToken? builder =
      rest.foldlM Builder.addToken? (builder.attach (.element name attributes children)) := by
  let scope := (builder.openElements.head?.map OpenElement.scope).getD []
  have hstart (isEmpty : Bool) : builder.addToken? (.startTag name attributes isEmpty) =
      if isEmpty then some (builder.attach (.element name attributes []))
      else some { builder with openElements := { name, attributes, scope } :: builder.openElements } := by
    rw [Builder.addToken?, Builder.startElement?, hready]
    show (scope.enter? name attributes).bind _ = _
    rw [enter?_plain scope hname hattributes hnodup]
    rfl
  rw [Node.tokens]
  split
  · rename_i hshort
    obtain rfl : children = [] := List.isEmpty_iff.mp (Bool.and_eq_true_iff.mp hshort).2
    rw [List.singleton_append, List.foldlM_cons, hstart]
    rfl
  · rw [List.cons_append, List.append_assoc, List.foldlM_cons, hstart]
    refine (hchildren _ _ _ _ rfl).trans ?_
    rw [List.singleton_append, List.foldlM_cons, Builder.addToken?, Builder.endElement?]
    dsimp only
    rw [if_pos rfl, OpenElement.close, List.reverse_reverse]
    rfl

mutual

/-- The tokens of a node inside an element add that node to its children. -/
theorem foldlM_tokens (short : Bool) (node : Node) (hnode : node.IsPlain) (innermost : OpenElement)
    (outer : List OpenElement) (root : Option Node) (rest : List Token) :
    (node.tokens short ++ rest).foldlM Builder.addToken? ⟨innermost :: outer, root⟩ =
      rest.foldlM Builder.addToken? ⟨innermost.push node :: outer, root⟩ :=
  match node with
  | .element name attributes children => by
    obtain ⟨hname, hattributes, hnodup, hchildren⟩ := hnode
    refine foldlM_element hname hattributes hnodup (fun element outer root rest hnone => ?_) _ rfl rest
    rw [foldlM_tokensOfAll short children hchildren element outer root rest (by rw [hnone]; rintro _ _ _ _ ⟨⟩), hnone,
      List.append_nil]
  | .text value => by
    have hpieces := pieces?_eq_map hnode.2
    have hvalue := textValue_map hnode.2
    have hadd : Builder.addToken? ⟨innermost :: outer, root⟩ (.text value) =
        some ⟨innermost.push (.text value) :: outer, root⟩ := by
      rw [Builder.addToken?, hpieces, Option.bind_some, hvalue]
      rfl
    rw [Node.tokens, List.singleton_append, List.foldlM_cons, hadd]
    rfl
  | .remark => rfl

theorem foldlM_tokensOfAll (short : Bool) (nodes : List Node) (hnodes : ArePlain nodes) (innermost : OpenElement)
    (outer : List OpenElement) (root : Option Node) (rest : List Token)
    (hfirst : ∀ node ∈ nodes.head?, node.isText = true → ∀ last ∈ innermost.children.head?, last.isText = false) :
    (tokensOfAll short nodes ++ rest).foldlM Builder.addToken? ⟨innermost :: outer, root⟩ =
      rest.foldlM Builder.addToken?
        ⟨{ innermost with children := nodes.reverse ++ innermost.children } :: outer, root⟩ :=
  match nodes with
  | [] => rfl
  | node :: nodes => by
    obtain ⟨hnode, hnext, hnodes⟩ := hnodes
    -- The builder joins text with text before it, so no two texts may meet.
    have hapart : ∀ next ∈ nodes.head?, next.isText = true → node.isText = false := by
      intro next hhead htext
      cases hself : node.isText with
      | false => rfl
      | true => exact absurd (hnext hself next hhead) (by rw [htext]; exact Bool.noConfusion)
    rw [tokensOfAll, List.append_assoc, foldlM_tokens short node hnode, push_of_not_joined (hfirst node rfl),
      foldlM_tokensOfAll short nodes hnodes _ _ _ _ (by
        rintro next hhead htext _ ⟨⟩
        exact hapart next hhead htext)]
    simp

end

/-- A plain document is read as the tree that it was written from. -/
theorem parse?_write (short : Bool) (hroot : (Node.element name attributes children).IsPlain) :
    parse? ((Node.element name attributes children).write short) = some (.element name attributes children) := by
  obtain ⟨after, hafter⟩ : ∃ after, (Node.element name attributes children).write short =
      '<' :: (name.localName ++ after) := by
    rw [Node.write]
    split
    · exact ⟨_, rfl⟩
    · rw [writeStartTag, List.cons_append, List.append_assoc]
      exact ⟨_, rfl⟩
  have htokens : tokens? ((Node.element name attributes children).write short) =
      some ((Node.element name attributes children).tokens short) := by
    have hall := tokens?_write short _ hroot [] (by rintro ⟨⟩)
    rw [List.append_nil, tokens?] at hall
    rw [hall, Option.map_some, List.append_nil]
  have hbody : dropDeclaration? (dropByteOrderMark ((Node.element name attributes children).write short)) =
      some ((Node.element name attributes children).write short) := by
    obtain ⟨c, tail, hlocal, hstart⟩ := hroot.1.eq_cons
    obtain ⟨-, -, -, -, hquestion⟩ := of_isNameStart hstart
    have hmarker : Search.dropMarker? "<?xml ".toList ('<' :: c :: (tail ++ after)) = none := by
      simp [Search.dropMarker?, List.isPrefixOf, hquestion.symm]
    rw [hafter, hlocal, List.cons_append]
    show dropDeclaration? ('<' :: c :: (tail ++ after)) = _
    rw [dropDeclaration?, hmarker]
  obtain ⟨hname, hattributes, hnodup, hchildren⟩ := hroot
  have hbuild := foldlM_element hname hattributes hnodup (fun element outer root rest hnone => by
    rw [foldlM_tokensOfAll short children hchildren element outer root rest (by rw [hnone]; rintro _ _ _ _ ⟨⟩), hnone,
      List.append_nil]) {} rfl []
  rw [List.append_nil] at hbuild
  rw [parse?, hbody]
  show (tokens? ((Node.element name attributes children).write short)).bind (fun tokens =>
    (tokens.foldlM Builder.addToken? {}).bind Builder.root?) = _
  rw [htokens, Option.bind_some, hbuild]
  rfl

end ContentProtection.Xml
