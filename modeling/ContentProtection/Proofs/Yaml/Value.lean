import ContentProtection.Yaml.Content
import ContentProtection.Yaml.Value

/-!
# Values of written content

Numbers are read as they are spelled. A mapping of which keys have been left out, in whatever order the others stand, gives the value of a key that is there and the default of one that is not.
-/

namespace ContentProtection.Yaml

/-! ### Numbers -/

namespace Spelling

theorem value?_of_isDigit {c : Char} (hc : c.isDigit = true) :
    (Hex.value? c).filter (· < 10) = some (c.toNat - 48) := by
  have hrange : 48 ≤ c.toNat ∧ c.toNat ≤ 57 := by
    simpa [Char.isDigit, UInt32.le_iff_toNat_le] using hc
  have hdecimal : '0' ≤ c ∧ c ≤ '9' := hrange
  rw [Hex.value?, if_pos hdecimal, Option.filter_some, if_pos (by simp; omega)]

theorem digits?_of_isDigit {text : List Char} (hsome : text ≠ []) (htext : ∀ c ∈ text, c.isDigit = true) :
    digits? 10 text = some (Nat.ofDigitChars 10 text 0) := by
  have hdigits : (text.filterMap fun c => (Hex.value? c).filter (· < 10)) = text.map fun c => c.toNat - 48 := by
    clear hsome
    induction text with
    | nil => rfl
    | cons c text ih =>
      obtain ⟨hc, hothers⟩ := List.forall_mem_cons.mp htext
      rw [List.filterMap_cons, value?_of_isDigit hc, ih hothers]
      rfl
  have hall : (!text.isEmpty && (text.map fun c => c.toNat - 48).length == text.length) = true := by
    simpa using hsome
  rw [digits?, hdigits, if_pos hall, List.foldl_map, Nat.ofDigitChars_eq_foldl]
  rfl

/-- Only zero is written with a zero in front. -/
theorem head?_toDigits {n : Nat} (hn : 0 < n) : (Nat.toDigits 10 n).head? ≠ some '0' := by
  induction n using Nat.strongRecOn with
  | ind n ih =>
    rw [Nat.toDigits_eq_if (by decide)]
    split
    · intro hzero
      have hdigit := Nat.digitChar_eq_zero.mp (Option.some.inj hzero)
      omega
    · rename_i hlarge
      have htens := ih (n / 10) (by omega) (by omega)
      obtain ⟨c, rest, htext⟩ := List.exists_cons_of_ne_nil (Nat.toDigits_ne_nil (n := n / 10) (b := 10))
      rw [htext] at htens ⊢
      exact htens

theorem natural?_toDigits (n : Nat) : natural? (Nat.toDigits 10 n) = some n := by
  have hdigit : ∀ c ∈ Nat.toDigits 10 n, c.isDigit = true := fun c hc =>
    Nat.isDigit_of_mem_toDigits (by decide) (by decide) hc
  have hvalue := digits?_of_isDigit Nat.toDigits_ne_nil hdigit
  rw [Nat.ofDigitChars_ten_toDigits] at hvalue
  rcases Nat.eq_zero_or_pos n with rfl | hn
  · rfl
  · have hzero := head?_toDigits hn
    obtain ⟨c, rest, htext⟩ := List.exists_cons_of_ne_nil (Nat.toDigits_ne_nil (n := n) (b := 10))
    rw [htext] at hzero hvalue hdigit ⊢
    have hfirst := hdigit c List.mem_cons_self
    have hplus : c ≠ '+' := by
      rintro rfl
      cases hfirst
    have hminus : c ≠ '-' := by
      rintro rfl
      cases hfirst
    have hhead : c ≠ '0' := fun heq => hzero (congrArg some heq)
    simp [natural?, dropPlus, based?, hasLeadingZero, hplus, hminus, hhead, hvalue]

end Spelling

/-! ### Fields -/

/-- The entries without those that have one of the given keys, in any order. -/
def IsLeft (entries : List (String × Content)) (removed : List String) (left : List (String × Content)) : Prop :=
  left.Perm (entries.filter fun entry => entry.1 ∉ removed)

/-- The value under a key, or the given one in place of a removed one. -/
def unlessRemoved {α : Type} (removed : List String) (key : String) (value missing : α) : α :=
  if key ∈ removed then missing else value

section Fields

variable {entries left : List (String × Content)} {removed : List String} {key : String}

theorem IsLeft.mem (hleft : IsLeft entries removed left) {entry : String × Content} (hmem : entry ∈ left) :
    entry ∈ entries := (List.mem_filter.mp (hleft.mem_iff.mp hmem)).1

theorem filter_key_of_nodup (hkeys : (entries.map Prod.fst).Nodup) {content : Content}
    (hmem : (key, content) ∈ entries) : entries.filter (·.1 = key) = [(key, content)] := by
  induction entries with
  | nil => cases hmem
  | cons entry entries ih =>
    obtain ⟨hfirst, hothers⟩ := List.nodup_cons.mp hkeys
    rcases List.mem_cons.mp hmem with rfl | hmem
    · have hnone : entries.filter (·.1 = key) = [] := by
        rw [List.filter_eq_nil_iff]
        intro entry hentry heq
        exact hfirst (List.mem_map.mpr ⟨entry, hentry, by simpa using heq⟩)
      rw [List.filter_cons_of_pos (by simp), hnone]
    · have hne : entry.1 ≠ key := by
        rintro rfl
        exact hfirst (List.mem_map.mpr ⟨_, hmem, rfl⟩)
      rw [List.filter_cons_of_neg (by simpa using hne), ih hothers hmem]

/-- A key that stands once has its own entry, unless that has been removed. -/
theorem IsLeft.filter_key (hleft : IsLeft entries removed left) (hkeys : (entries.map Prod.fst).Nodup)
    {content : Content} (hmem : (key, content) ∈ entries) :
    left.filter (·.1 = key) = if key ∈ removed then [] else [(key, content)] := by
  have hperm := hleft.filter (·.1 = key)
  rw [List.filter_filter] at hperm
  split
  · rename_i hremoved
    have hnone : entries.filter (fun entry => decide (entry.1 = key) && decide (entry.1 ∉ removed)) = [] := by
      rw [List.filter_eq_nil_iff]
      rintro entry - heq
      simp only [Bool.and_eq_true, decide_eq_true_eq] at heq
      exact heq.2 (heq.1 ▸ hremoved)
    rw [hnone] at hperm
    exact hperm.eq_nil
  · rename_i hkept
    have hsame : entries.filter (fun entry => decide (entry.1 = key) && decide (entry.1 ∉ removed)) =
        entries.filter (·.1 = key) := by
      refine List.filter_congr fun entry _ => ?_
      by_cases heq : entry.1 = key <;> simp [heq, hkept]
    rw [hsame, filter_key_of_nodup hkeys hmem] at hperm
    exact List.perm_singleton.mp hperm

/-- A field is read from its own entry; a removed one has its default. -/
theorem IsLeft.field? {α : Type} (hleft : IsLeft entries removed left) (hkeys : (entries.map Prod.fst).Nodup)
    {content : Content} (hmem : (key, content) ∈ entries) {read : Node → Option α} {value : α}
    (hread : read content.toNode = some value) (missing : α) :
    field? (left.map fun entry => (entry.1.toList, entry.2.toNode)) key missing read =
      some (unlessRemoved removed key value missing) := by
  have hfound : (left.map fun entry => (entry.1.toList, entry.2.toNode)).filter (·.1 == key.toList) =
      (left.filter (·.1 = key)).map fun entry => (entry.1.toList, entry.2.toNode) := by
    rw [List.filter_map]
    congr 1
    refine List.filter_congr fun entry _ => ?_
    rw [Bool.eq_iff_iff]
    simp [String.toList_inj]
  rw [Yaml.field?, hfound, hleft.filter_key hkeys hmem, unlessRemoved]
  by_cases hremoved : key ∈ removed
  · rw [if_pos hremoved, if_pos hremoved]
    rfl
  · rw [if_neg hremoved, if_neg hremoved]
    exact hread

end Fields

/-- The keys of a mapping are read as the texts they are. -/
theorem Document.entries?_mapping (document : Document) (entries : List (String × Content)) :
    document.entries? (Content.mapping entries).toNode =
      some (entries.map fun entry => (entry.1.toList, entry.2.toNode)) := by
  change (Content.entryNodes entries).mapM _ = _
  induction entries with
  | nil => rfl
  | cons entry entries ih =>
    rw [Content.entryNodes, List.mapM_cons, ih]
    rfl

end ContentProtection.Yaml
