import ContentProtection.Proofs.Hls.Attributes
import Mathlib.Data.Nat.Find

/-!
# Lookups in attribute lists

A lookup goes through the attributes of a list in their order. It stops at the first one that has the name or a value in which the name counts, as though an attribute began there. So what it gives is the value of the attribute with the name, unless the name counts in a value further in front.
-/

namespace ContentProtection.Hls

/-! ### Attributes -/

/-- What may stand between quotes, or without them. -/
def IsValue : (isQuoted : Bool) → (value : List Char) → Prop
  | true, value => '"' ∉ value
  | false, value => value ≠ [] ∧ ∀ c ∈ value, c ≠ ',' ∧ c ≠ '"' ∧ Blank.isBlank c = false

instance : ∀ isQuoted value, Decidable (IsValue isQuoted value)
  | true, value => inferInstanceAs (Decidable ('"' ∉ value))
  | false, value => @instDecidableAnd _ _ _ (List.decidableBAll _ value)

/-- An attribute of a well-formed list. -/
structure Attribute where
  name : List Char
  isQuoted : Bool
  value : List Char
  isName : IsName name
  isValue : IsValue isQuoted value

namespace Attribute

/-- What stands on both sides of the value. -/
def quote (item : Attribute) : List Char := if item.isQuoted then ['"'] else []

def text (item : Attribute) : List Char := item.name ++ '=' :: (item.quote ++ (item.value ++ item.quote))

theorem readValue_value (item : Attribute) (after : List (List Char)) :
    readValue (item.quote ++ (item.value ++ item.quote) ++ after.flatMap (',' :: ·)) = item.value := by
  obtain ⟨name, isQuoted, value, -, hvalue⟩ := item
  cases isQuoted with
  | true =>
    show readValue ('"' :: (value ++ ['"'] ++ _)) = value
    rw [List.append_assoc]
    exact readValue_quoted hvalue _
  | false =>
    show readValue ((value ++ []) ++ _) = value
    rw [List.append_nil]
    exact readValue_unquoted hvalue.1 hvalue.2 after

end Attribute

/-! ### Where a name counts -/

/-- The name counts behind the front of the text, with the rest behind its `=`. -/
def CountsAt (key : List Char) (previous : Option Char) (text front rest : List Char) : Prop :=
  text = front ++ (key ++ '=' :: rest) ∧ isBoundary (front.getLast?.or previous) = true

/-- Nowhere further in front the name counts. -/
def FirstCountsAt (key : List Char) (previous : Option Char) (text front rest : List Char) : Prop :=
  CountsAt key previous text front rest ∧
    ∀ other more, CountsAt key previous text other more → front.length ≤ other.length

variable {key : List Char} {previous : Option Char}

theorem CountsAt.cons {c : Char} {text front rest : List Char} (hcounts : CountsAt key (some c) text front rest) :
    CountsAt key previous (c :: text) (c :: front) rest := by
  obtain ⟨rfl, hboundary⟩ := hcounts
  exact ⟨rfl, by rwa [getLast?_cons_or]⟩

theorem exists_countsAt_nil_iff {text : List Char} :
    (∃ rest, CountsAt key previous text [] rest) ↔ isBoundary previous = true ∧ key ++ ['='] <+: text := by
  constructor
  · rintro ⟨rest, rfl, hprevious⟩
    exact ⟨hprevious, rest, List.append_assoc _ _ _⟩
  · rintro ⟨hprevious, rest, rfl⟩
    exact ⟨rest, List.append_assoc _ _ _, hprevious⟩

theorem scan_cons_of_not_countsAt {c : Char} {text : List Char}
    (hnot : ∀ rest, ¬CountsAt key previous (c :: text) [] rest) :
    scan key previous (c :: text) = scan key (some c) text := by
  rw [scan, if_neg]
  intro hcounts
  obtain ⟨hprevious, hmark⟩ := Bool.and_eq_true_iff.mp hcounts
  obtain ⟨rest, hrest⟩ := exists_countsAt_nil_iff.mpr ⟨hprevious, List.isPrefixOf_iff_prefix.mp hmark⟩
  exact hnot rest hrest

theorem CountsAt.exists_first {text front rest : List Char} (hcounts : CountsAt key previous text front rest) :
    ∃ front rest, FirstCountsAt key previous text front rest := by
  classical
  have hlengths : ∃ length front rest, CountsAt key previous text front rest ∧ front.length = length :=
    ⟨_, front, rest, hcounts, rfl⟩
  obtain ⟨first, more, hfirst, hlength⟩ := Nat.find_spec hlengths
  exact ⟨first, more, hfirst, fun other more hother => hlength ▸ Nat.find_min' hlengths ⟨other, more, hother, rfl⟩⟩

/-- The value starts behind the first `=` that counts, whatever comes behind the text. -/
theorem FirstCountsAt.scan (hkey : IsName key) {text front rest : List Char}
    (hfirst : FirstCountsAt key previous text front rest) (more : List Char) :
    scan key previous (text ++ more) = some (readValue (rest ++ more)) := by
  obtain ⟨⟨rfl, hboundary⟩, hfirst⟩ := hfirst
  induction front generalizing previous with
  | nil =>
    have hprevious : isBoundary previous = true := hboundary
    rw [List.nil_append, List.append_assoc, scan_key hkey, hprevious]
    rfl
  | cons c front ih =>
    have hnot : ∀ other, ¬CountsAt key previous (c :: (front ++ (key ++ '=' :: rest) ++ more)) [] other := by
      intro other hcounts
      obtain ⟨hprevious, hmark⟩ := exists_countsAt_nil_iff.mp ⟨other, hcounts⟩
      -- The mark ends within the text, so what comes behind it does not bring the name forward.
      have hinside : key ++ ['='] <+: c :: (front ++ (key ++ '=' :: rest)) := by
        refine List.prefix_of_prefix_length_le hmark ⟨more, rfl⟩ ?_
        simp only [List.length_append, List.length_cons, List.length_nil]
        omega
      obtain ⟨earlier, hearlier⟩ := exists_countsAt_nil_iff.mpr ⟨hprevious, hinside⟩
      exact absurd (hfirst [] earlier hearlier) (Nat.not_succ_le_zero _)
    rw [List.cons_append, List.cons_append, scan_cons_of_not_countsAt hnot]
    refine ih (by rwa [getLast?_cons_or] at hboundary) fun other more hcounts => ?_
    exact Nat.le_of_succ_le_succ (hfirst (c :: other) more hcounts.cons)

theorem scan_eq_none_iff (hkey : IsName key) {text : List Char} :
    scan key previous text = none ↔ ∀ front rest, ¬CountsAt key previous text front rest := by
  constructor
  · intro hnone front rest hcounts
    obtain ⟨front, rest, hfirst⟩ := hcounts.exists_first
    have hsome := hfirst.scan hkey []
    rw [List.append_nil, hnone] at hsome
    cases hsome
  · intro hnowhere
    induction text generalizing previous with
    | nil => rfl
    | cons c text ih =>
      rw [scan_cons_of_not_countsAt (hnowhere []), ih fun front rest hcounts => hnowhere (c :: front) rest hcounts.cons]

/-! ### Attribute after attribute -/

namespace Attribute

/-- Whether the name counts in the value, which stands behind `=` or a quote. -/
def Mentions (item : Attribute) (key : List Char) : Prop :=
  ∃ front rest, CountsAt key (some '=') item.value front rest

/-- The text of an attribute does not start with another name and `=`. -/
theorem not_isPrefixOf_text (hkey : IsName key) {item : Attribute} (hname : item.name ≠ key) (more : List Char) :
    (key ++ ['=']).isPrefixOf (item.text ++ more) = false := by
  rw [Bool.eq_false_iff]
  intro hmark
  obtain ⟨rest, htext⟩ := List.isPrefixOf_iff_prefix.mp hmark
  rw [text, List.append_assoc, List.append_assoc] at htext
  have hequals {name : List Char} (hname : IsName name) (text : List Char) :
      (name ++ '=' :: text).takeWhile (· ≠ '=') = name := by
    have hinner : ∀ c ∈ name, decide (c ≠ '=') = true :=
      fun c hmem => decide_eq_true fun heq => hname.not_mem rfl (heq ▸ hmem)
    exact (Search.takeWhile_append_stop hinner ('=' :: text) (by rintro _ ⟨⟩; rfl)).1
  have hnames := congrArg (List.takeWhile (· ≠ '=')) htext
  exact hname ((hequals item.isName _).symm.trans (hnames.symm.trans (hequals hkey rest)))

theorem not_mentions_iff (hkey : IsName key) {item : Attribute} :
    ¬item.Mentions key ↔ scan key (some '=') item.value = none := by
  rw [scan_eq_none_iff hkey, Mentions]
  simp only [not_exists]

/-- Another name is passed over, up to the value. -/
theorem scan_text_append (hkey : IsName key) {item : Attribute} (hname : item.name ≠ key) (more : List Char) :
    scan key none (item.text ++ more) = scan key (some '=') (item.value ++ (item.quote ++ more)) := by
  have hmark := not_isPrefixOf_text hkey hname more
  have hboundaries := item.isName.isBoundary_eq_false
  obtain ⟨first, others, hfirst⟩ := List.exists_cons_of_ne_nil item.isName.1
  have htext : item.text ++ more =
      first :: (others ++ '=' :: item.quote ++ (item.value ++ (item.quote ++ more))) := by
    rw [text, hfirst]
    simp only [List.cons_append, List.append_assoc]
  rw [hfirst, List.forall_mem_cons] at hboundaries
  have hinside : ∀ c ∈ others ++ '=' :: item.quote, isBoundary (some c) = false := by
    rw [List.forall_mem_append, List.forall_mem_cons]
    refine ⟨hboundaries.2, rfl, ?_⟩
    rw [quote]
    split
    · exact List.forall_mem_singleton.mpr rfl
    · exact nofun
  rw [htext] at hmark ⊢
  rw [scan, hmark, Bool.and_false, if_neg Bool.false_ne_true]
  exact scan_append_inside hboundaries.1 rfl hinside _

theorem scan_text (hkey : IsName key) {item : Attribute} (hname : item.name ≠ key)
    (hmentions : ¬item.Mentions key) : scan key none item.text = none := by
  have hvalue := (not_mentions_iff hkey).mp hmentions
  have htext := scan_text_append hkey hname []
  rw [List.append_nil, List.append_nil] at htext
  rw [htext, quote]
  split
  · rw [scan_append_stop hkey (List.not_mem_append (hkey.not_mem rfl) (by decide)) hvalue]
    rfl
  · rwa [List.append_nil]

end Attribute

/-- A lookup gives the value of the first attribute with the name, and nothing without one. But where the name counts in a value further in front, it gives what is read behind that place, be it beyond the end of the value. -/
theorem value_of_first_attribute (hkey : IsName key) (attributes : List Attribute) :
    let found := findAttribute? (String.ofList (joined (attributes.map Attribute.text))) (String.ofList key)
    ((∀ item ∈ attributes, item.name ≠ key ∧ ¬item.Mentions key) → found = none) ∧
      ∀ before own after, attributes = before ++ own :: after →
        (∀ item ∈ before, item.name ≠ key ∧ ¬item.Mentions key) →
        (own.name = key → found = some (String.ofList own.value)) ∧
        (own.name ≠ key → own.Mentions key → ∃ front rest, FirstCountsAt key (some '=') own.value front rest ∧
          found = some (String.ofList
            (readValue (rest ++ (own.quote ++ (after.map Attribute.text).flatMap (',' :: ·)))))) := by
  intro found
  have hfound : found = (scan key none (joined (attributes.map Attribute.text))).map String.ofList := by
    rw [← findFrom_eq_scan hkey]
    exact (findAttribute?_ofList _ _).trans (by rw [String.toList_ofList])
  have hpassed {before : List Attribute} (hbefore : ∀ item ∈ before, item.name ≠ key ∧ ¬item.Mentions key) :
      ∀ entry ∈ before.map Attribute.text, scan key none entry = none :=
    List.forall_mem_map.mpr fun item hmem =>
      Attribute.scan_text hkey (hbefore item hmem).1 (hbefore item hmem).2
  refine ⟨fun hall => ?_, ?_⟩
  · rw [hfound, ← List.append_nil (attributes.map _), scan_joined hkey (hpassed hall)]
    rfl
  · rintro before own after rfl hbefore
    rw [hfound, List.map_append, scan_joined hkey (hpassed hbefore), List.map_cons, joined_cons]
    constructor
    · rintro rfl
      rw [Attribute.text, List.append_assoc, scan_key hkey]
      exact congrArg (some ∘ String.ofList) (own.readValue_value _)
    · rintro hname ⟨front, rest, hcounts⟩
      obtain ⟨front, rest, hfirst⟩ := hcounts.exists_first
      refine ⟨front, rest, hfirst, ?_⟩
      rw [Attribute.scan_text_append hkey hname, hfirst.scan hkey]
      rfl

/-! ### A name in a value -/

def versionsAttribute : Attribute := ⟨"KEYFORMATVERSIONS".toList, true, "1".toList, by decide, by decide⟩

def methodAttribute : Attribute := ⟨"METHOD".toList, false, "NONE".toList, by decide, by decide⟩

/-- The value looks like two attributes. -/
def formatAttribute : Attribute := ⟨"KEYFORMAT".toList, true, "a,URI=b".toList, by decide, by decide⟩

def uriAttribute : Attribute := ⟨"URI".toList, true, "c".toList, by decide, by decide⟩

/-- A longer name is passed over, and the value that looks like two attributes is found as a whole. -/
theorem value_of_first_attribute_behind_longer_name :
    findAttribute? "KEYFORMATVERSIONS=\"1\",KEYFORMAT=\"a,URI=b\",METHOD=NONE" "KEYFORMAT" = some "a,URI=b" := by
  have hname : IsName "KEYFORMAT".toList := by decide
  have hversions : ¬versionsAttribute.Mentions "KEYFORMAT".toList :=
    (Attribute.not_mentions_iff hname).mpr (by decide)
  have hlookup := value_of_first_attribute hname [versionsAttribute, formatAttribute, methodAttribute]
  refine (hlookup.2 [versionsAttribute] formatAttribute [methodAttribute] rfl ?_).1 rfl
  exact List.forall_mem_singleton.mpr ⟨by decide, hversions⟩

/-- The two names differ, and looking for the second one gives the end of the first value with its quote. -/
theorem value_inside_another_attribute :
    let attributes := [formatAttribute, uriAttribute]
    String.ofList (joined (attributes.map Attribute.text)) = "KEYFORMAT=\"a,URI=b\",URI=\"c\"" ∧
      (attributes.map Attribute.name).Nodup ∧ uriAttribute.name = "URI".toList ∧ uriAttribute.value = "c".toList ∧
      findAttribute? (String.ofList (joined (attributes.map Attribute.text))) "URI" = some "b\"" := by
  intro attributes
  have hfound : findFrom "URI".toList none (joined (attributes.map Attribute.text)) = some "b\"".toList := by
    rw [findFrom_eq_scan (by decide)]
    decide
  refine ⟨by decide, by decide, rfl, rfl, ?_⟩
  rw [findAttribute?_ofList, hfound]
  rfl

end ContentProtection.Hls
