import ContentProtection.Hls.Attributes
import ContentProtection.Proofs.Search
import ContentProtection.Proofs.Text.Blank
import Mathlib.Data.List.Perm.Basic

/-!
# Attributes are found

Looking for a name is going through the text one character after the other: at each character the name and `=` stand there, behind a boundary, or they do not. Names have no boundary in them, so nothing is missed behind an occurrence that does not count. A list of entries is searched entry by entry, and the value is that of the first entry in which the name is found.
-/

namespace ContentProtection.Hls

/-! ### Names -/

def isNameCharacter (c : Char) : Bool :=
  ('A'.toNat ≤ c.toNat && c.toNat ≤ 'Z'.toNat) || ('0'.toNat ≤ c.toNat && c.toNat ≤ '9'.toNat) || c == '-'

def IsName (name : List Char) : Prop := name ≠ [] ∧ name.all isNameCharacter = true

instance (name : List Char) : Decidable (IsName name) := inferInstanceAs (Decidable (_ ∧ _))

theorem isBoundary_of_isNameCharacter {c : Char} (hc : isNameCharacter c = true) : isBoundary (some c) = false := by
  have hcode : c.toNat < 128 := by
    simp only [isNameCharacter, Bool.or_eq_true, Bool.and_eq_true, decide_eq_true_eq, beq_iff_eq] at hc
    rcases hc with (⟨-, hletter⟩ | ⟨-, hdigit⟩) | rfl
    · exact Nat.lt_of_le_of_lt hletter (by decide)
    · exact Nat.lt_of_le_of_lt hdigit (by decide)
    · decide
  have hall : ∀ c : Char, c.toNat < 128 → isNameCharacter c = true → isBoundary (some c) = false :=
    Ascii.forall_ascii (by decide)
  exact hall c hcode hc

theorem IsName.isBoundary_eq_false {name : List Char} (hname : IsName name) :
    ∀ c ∈ name, isBoundary (some c) = false :=
  fun c hmem => isBoundary_of_isNameCharacter (List.all_eq_true.mp hname.2 c hmem)

theorem IsName.not_mem {name : List Char} (hname : IsName name) {c : Char} (hc : isNameCharacter c = false) :
    c ∉ name := by
  intro hmem
  rw [List.all_eq_true.mp hname.2 c hmem] at hc
  cases hc

/-! ### One character after the other -/

/-- The search, one character at a time. -/
def scan (key : List Char) : (previous : Option Char) → List Char → Option (List Char)
  | _, [] => none
  | previous, c :: text =>
    if isBoundary previous && (key ++ ['=']).isPrefixOf (c :: text) then some (readValue (text.drop key.length))
    else scan key (some c) text

variable {key : List Char}

theorem isPrefixOf_append_equals (key rest : List Char) :
    (key ++ ['=']).isPrefixOf (key ++ rest) = (rest.head? == some '=') := by
  rw [Bool.eq_iff_iff, List.isPrefixOf_iff_prefix, List.prefix_append_right_inj, beq_iff_eq]
  cases rest with
  | nil => simp
  | cons c rest => simp [List.cons_prefix_cons, eq_comm]

theorem scan_cons_of_absent {c : Char} {text : List Char} (hkey : key.isPrefixOf (c :: text) = false)
    (previous : Option Char) : scan key previous (c :: text) = scan key (some c) text := by
  have hmark : (key ++ ['=']).isPrefixOf (c :: text) = false := by
    rw [Bool.eq_false_iff] at hkey ⊢
    refine mt (fun hprefix => ?_) hkey
    exact List.isPrefixOf_iff_prefix.mpr ((List.prefix_append key ['=']).trans (List.isPrefixOf_iff_prefix.mp hprefix))
  rw [scan, hmark, Bool.and_false]
  rfl

theorem getLast?_cons_or (c : Char) (skipped : List Char) (previous : Option Char) :
    (c :: skipped).getLast?.or previous = skipped.getLast?.or (some c) := by
  rw [List.getLast?_cons]
  cases skipped.getLast? <;> rfl

theorem scan_of_splitAtFirst? {text skipped rest : List Char} (hsome : key ≠ [])
    (hsplit : Search.splitAtFirst? key text = some (skipped, rest)) (previous : Option Char) :
    scan key previous text = scan key (skipped.getLast?.or previous) (key ++ rest) := by
  induction text generalizing skipped previous with
  | nil =>
    rw [Search.splitAtFirst?, if_neg (mt List.isEmpty_iff.mp hsome)] at hsplit
    cases hsplit
  | cons c text ih =>
    have htext := Search.eq_of_splitAtFirst? hsplit
    rw [Search.splitAtFirst?] at hsplit
    split at hsplit
    · obtain ⟨rfl, -⟩ := Prod.mk.inj (Option.some.inj hsplit)
      rw [htext]
      rfl
    · rename_i hkey
      obtain ⟨⟨before, after⟩, hrest, heq⟩ := Option.map_eq_some_iff.mp hsplit
      obtain ⟨rfl, rfl⟩ := Prod.mk.inj heq
      rw [scan_cons_of_absent (Bool.not_eq_true _ ▸ hkey), ih hrest, getLast?_cons_or]

theorem scan_of_not_found {text : List Char} (hsplit : Search.splitAtFirst? key text = none)
    (previous : Option Char) : scan key previous text = none := by
  induction text generalizing previous with
  | nil => rfl
  | cons c text ih =>
    rw [Search.splitAtFirst?] at hsplit
    split at hsplit
    · cases hsplit
    · rename_i hkey
      rw [scan_cons_of_absent (Bool.not_eq_true _ ▸ hkey), ih (Option.map_eq_none_iff.mp hsplit)]

/-- What counts before the text is whether a name may start it. -/
theorem scan_congr {previous other : Option Char} (hboundary : isBoundary previous = isBoundary other)
    (text : List Char) : scan key previous text = scan key other text := by
  cases text with
  | nil => rfl
  | cons c text => rw [scan, scan, hboundary]

/-- Where nothing is a boundary, the name is not looked for. -/
theorem scan_append_inside {previous inner : Option Char} (hprevious : isBoundary previous = false)
    (hinner : isBoundary inner = false) {skipped : List Char} (hskipped : ∀ c ∈ skipped, isBoundary (some c) = false)
    (text : List Char) : scan key previous (skipped ++ text) = scan key inner text := by
  induction skipped generalizing previous with
  | nil => exact scan_congr (hprevious.trans hinner.symm) text
  | cons c skipped ih =>
    obtain ⟨hc, hrest⟩ := List.forall_mem_cons.mp hskipped
    rw [List.cons_append, scan, hprevious, Bool.false_and, if_neg Bool.false_ne_true, ih hc hrest]

/-- Where the name stands, it counts or the search goes on behind it. -/
theorem scan_key (hkey : IsName key) (previous : Option Char) (rest : List Char) :
    scan key previous (key ++ rest) =
      if isBoundary previous && rest.head? == some '=' then some (readValue rest.tail)
      else scan key key.getLast? rest := by
  have hmark := isPrefixOf_append_equals key rest
  have hvalue : (key ++ rest).drop (key.length + 1) = rest.tail := by
    rw [← List.drop_drop, List.drop_left, List.drop_one]
  have hlast : isBoundary key.getLast? = false := by
    rw [List.getLast?_eq_some_getLast hkey.1]
    exact hkey.isBoundary_eq_false _ (List.getLast_mem _)
  obtain ⟨first, others, hfirst⟩ := List.exists_cons_of_ne_nil hkey.1
  have hothers : scan key (some first) (others ++ rest) = scan key key.getLast? rest := by
    obtain ⟨hinner, hinside⟩ := List.forall_mem_cons.mp (hfirst ▸ hkey.isBoundary_eq_false)
    exact scan_append_inside hinner hlast hinside rest
  have htext : key ++ rest = first :: (others ++ rest) := by
    rw [hfirst]
    rfl
  rw [htext] at hmark hvalue ⊢
  rw [scan, hmark, ← List.drop_succ_cons, hvalue, hothers]

/-- Nothing is missed behind an occurrence that does not count. -/
theorem findFrom_eq_scan (hkey : IsName key) (previous : Option Char) (text : List Char) :
    findFrom key previous text = scan key previous text := by
  fun_induction findFrom key previous text with
  | case1 previous text hsplit => exact (scan_of_not_found hsplit previous).symm
  | case2 previous text skipped rest hsplit hcounts =>
    rw [scan_of_splitAtFirst? hkey.1 hsplit, scan_key hkey, if_pos hcounts]
  | case3 previous text skipped rest hsplit hcounts hempty => exact absurd hempty hkey.1
  | case4 previous text skipped rest hsplit hcounts hempty hlength ih =>
    rw [scan_of_splitAtFirst? hkey.1 hsplit, ih, scan_key hkey, if_neg hcounts]

theorem scan_eq_none_of_no_boundary {text : List Char} (htext : ∀ c ∈ text, isBoundary (some c) = false)
    (hstart : (key ++ ['=']).isPrefixOf text = false) (previous : Option Char) : scan key previous text = none := by
  cases text with
  | nil => rfl
  | cons c text =>
    obtain ⟨hc, hrest⟩ := List.forall_mem_cons.mp htext
    rw [scan, hstart, Bool.and_false, if_neg Bool.false_ne_true, ← List.append_nil text]
    exact scan_append_inside hc hc hrest []

/-! ### Entries -/

/-- The text of a list of entries. -/
def joined (entries : List (List Char)) : List Char := [','].intercalate entries

theorem joined_cons (entry : List Char) (entries : List (List Char)) :
    joined (entry :: entries) = entry ++ entries.flatMap (',' :: ·) := by
  induction entries generalizing entry with
  | nil => simp [joined]
  | cons next entries ih =>
    have hnext := ih next
    rw [joined] at hnext
    rw [joined, List.intercalate_cons_cons, hnext, List.flatMap_cons, List.append_assoc]
    rfl

theorem isPrefixOf_append_stop {marker : List Char} {stop : Char} (hstop : stop ∉ marker) (entry rest : List Char) :
    marker.isPrefixOf (entry ++ stop :: rest) = marker.isPrefixOf entry := by
  rw [Bool.eq_iff_iff, List.isPrefixOf_iff_prefix, List.isPrefixOf_iff_prefix]
  refine ⟨fun hprefix => ?_, fun hprefix => hprefix.trans (List.prefix_append _ _)⟩
  have hfront : entry ++ [stop] <+: entry ++ stop :: rest := ⟨rest, by rw [List.append_assoc]; rfl⟩
  rcases List.prefix_or_prefix_of_prefix hprefix hfront with hshort | hlong
  · rcases List.prefix_concat_iff.mp hshort with rfl | hentry
    · exact absurd (List.mem_append_right _ (List.mem_singleton_self _)) hstop
    · exact hentry
  · exact absurd (hlong.subset (List.mem_append_right _ (List.mem_singleton_self _))) hstop

/-- A character that no name has ends what was searched in vain. -/
theorem scan_append_stop (hkey : IsName key) {stop : Char} (hstop : stop ∉ key ++ ['=']) {previous : Option Char}
    {entry : List Char} (hentry : scan key previous entry = none) (rest : List Char) :
    scan key previous (entry ++ stop :: rest) = scan key (some stop) rest := by
  induction entry generalizing previous with
  | nil =>
    refine scan_cons_of_absent ?_ previous
    obtain ⟨first, others, rfl⟩ := List.exists_cons_of_ne_nil hkey.1
    have hfirst : ¬first = stop := by
      rintro rfl
      exact hstop List.mem_cons_self
    simp [List.isPrefixOf, hfirst]
  | cons c entry ih =>
    rw [scan] at hentry
    split at hentry
    · cases hentry
    · rename_i hnot
      rw [List.cons_append, scan, ← List.cons_append, isPrefixOf_append_stop hstop, if_neg hnot, ih hentry]

theorem scan_append_comma (hkey : IsName key) {previous : Option Char} {entry : List Char}
    (hentry : scan key previous entry = none) (rest : List Char) :
    scan key previous (entry ++ ',' :: rest) = scan key (some ',') rest :=
  scan_append_stop hkey (List.not_mem_append (hkey.not_mem rfl) (by decide)) hentry rest

/-- Entries that were searched in vain are passed over. -/
theorem scan_joined (hkey : IsName key) {before : List (List Char)}
    (hbefore : ∀ entry ∈ before, scan key none entry = none) (entries : List (List Char)) :
    scan key none (joined (before ++ entries)) = scan key none (joined entries) := by
  induction before with
  | nil => rfl
  | cons entry before ih =>
    obtain ⟨hentry, hrest⟩ := List.forall_mem_cons.mp hbefore
    rw [← ih hrest, List.cons_append]
    cases hothers : before ++ entries with
    | nil => rw [joined_cons, List.flatMap_nil, List.append_nil, hentry]; rfl
    | cons next others =>
      -- Behind the comma a name may start, just as at the start of the text.
      have hcomma : isBoundary (some ',') = isBoundary none := rfl
      rw [joined_cons, List.flatMap_cons, List.cons_append, scan_append_comma hkey hentry, scan_congr hcomma,
        joined_cons]

/-- The value is that of the entry with the name, if none before it has the name. -/
theorem findFrom_joined (hkey : IsName key) (value : List Char) {before : List (List Char)}
    (hbefore : ∀ entry ∈ before, scan key none entry = none) (after : List (List Char)) :
    findFrom key none (joined (before ++ (key ++ '=' :: value) :: after)) =
      some (readValue (value ++ after.flatMap (',' :: ·))) := by
  rw [findFrom_eq_scan hkey, scan_joined hkey hbefore, joined_cons, List.append_assoc, scan_key hkey]
  rfl

/-! ### Values -/

theorem readValue_quoted {value : List Char} (hvalue : '"' ∉ value) (rest : List Char) :
    readValue ('"' :: (value ++ '"' :: rest)) = value := by
  have hinner : ∀ c ∈ value, decide (c ≠ '"') = true := fun c hmem => decide_eq_true fun heq => hvalue (heq ▸ hmem)
  exact (Search.takeWhile_append_stop hinner ('"' :: rest) (by rintro _ ⟨⟩; rfl)).1

theorem readValue_unquoted {value : List Char} (hsome : value ≠ [])
    (hvalue : ∀ c ∈ value, c ≠ ',' ∧ c ≠ '"' ∧ Blank.isBlank c = false) (after : List (List Char)) :
    readValue (value ++ after.flatMap (',' :: ·)) = value := by
  have hinner : ∀ c ∈ value, decide (c ≠ ',') = true := fun c hmem => decide_eq_true (hvalue c hmem).1
  have hend : ∀ c ∈ (after.flatMap (',' :: ·)).head?, decide (c ≠ ',') = false := by
    cases after with
    | nil => rintro _ ⟨⟩
    | cons entry after =>
      rintro _ ⟨⟩
      rfl
  have htrim : Blank.trimRight value = value :=
    Blank.trimRight_eq_self fun c hlast => (hvalue c (List.mem_of_getLast? hlast)).2.2
  obtain ⟨c, tail, rfl⟩ := List.exists_cons_of_ne_nil hsome
  have hquote : c ≠ '"' := (hvalue c List.mem_cons_self).2.1
  rw [List.cons_append, readValue, ← List.cons_append, (Search.takeWhile_append_stop hinner _ hend).1, htrim]
  exact fun text heq => hquote (List.cons.inj heq).1

/-- In any order of the entries the value is that of the only entry with the name. -/
theorem findFrom_of_perm (hkey : IsName key) {own value : List Char} (hown : own = key ++ '=' :: value)
    {entries rest : List (List Char)} (hperm : entries.Perm (own :: rest))
    (hrest : ∀ entry ∈ rest, scan key none entry = none) :
    ∃ after : List (List Char),
      findFrom key none (joined entries) = some (readValue (value ++ after.flatMap (',' :: ·))) := by
  subst hown
  obtain ⟨before, after, rfl⟩ := List.append_of_mem (hperm.mem_iff.mpr List.mem_cons_self)
  have hothers : (before ++ after).Perm rest := (List.perm_middle.symm.trans hperm).cons_inv
  refine ⟨after, findFrom_joined hkey value (fun entry hmem => ?_) after⟩
  exact hrest entry (hothers.mem_iff.mp (List.mem_append_left _ hmem))

theorem findFrom_quoted_of_perm (hkey : IsName key) {own value : List Char}
    (hown : own = key ++ '=' :: '"' :: (value ++ ['"'])) (hvalue : '"' ∉ value) {entries rest : List (List Char)}
    (hperm : entries.Perm (own :: rest)) (hrest : ∀ entry ∈ rest, scan key none entry = none) :
    findFrom key none (joined entries) = some value := by
  obtain ⟨after, hfound⟩ := findFrom_of_perm hkey hown hperm hrest
  rw [hfound, List.cons_append, List.append_assoc]
  exact congrArg some (readValue_quoted hvalue _)

theorem findAttribute?_ofList (text : List Char) (name : String) :
    findAttribute? (String.ofList text) name = (findFrom name.toList none text).map String.ofList := by
  rw [findAttribute?, String.toList_ofList]

end ContentProtection.Hls
