import ContentProtection.Proofs.Text.Ascii
import ContentProtection.Text.Blank

/-!
# Trimming

What has no blanks at its ends stays as it is, and what is not blank all over leaves something. Trimming takes blanks away from both ends and nothing else, and it does not depend on the case of letters what is blank.
-/

namespace ContentProtection.Blank

theorem trimRight_eq_self {text : List Char} (hlast : ∀ c ∈ text.getLast?, isBlank c = false) :
    trimRight text = text := by
  have hreverse : text.reverse.dropWhile isBlank = text.reverse := by
    cases hrev : text.reverse with
    | nil => rfl
    | cons c rest =>
      have hc : isBlank c = false := hlast c (by rw [← List.head?_reverse, hrev]; rfl)
      rw [List.dropWhile_cons_of_neg (by rw [hc]; exact Bool.false_ne_true)]
  rw [trimRight, hreverse, List.reverse_reverse]

theorem trim_eq_self {text : List Char} (htext : ∀ c ∈ text, isBlank c = false) : trim text = text := by
  have hleft : trimLeft text = text := by
    cases text with
    | nil => rfl
    | cons c rest =>
      rw [trimLeft, List.dropWhile_cons_of_neg (by rw [htext c List.mem_cons_self]; exact Bool.false_ne_true)]
  rw [trim, hleft, trimRight_eq_self fun c hmem => htext c (List.mem_of_getLast? hmem)]

theorem trim_ne_nil {text : List Char} {c : Char} (hmem : c ∈ text) (hc : isBlank c = false) : trim text ≠ [] := by
  have hdropped {text : List Char} (hmem : c ∈ text) : c ∈ text.dropWhile isBlank := by
    rw [← List.takeWhile_append_dropWhile (p := isBlank) (l := text)] at hmem
    rcases List.mem_append.mp hmem with hblank | hkept
    · cases hc.symm.trans (List.all_eq_true.mp List.all_takeWhile c hblank)
    · exact hkept
  have hright : c ∈ (trimLeft text).reverse.dropWhile isBlank := hdropped (List.mem_reverse.mpr (hdropped hmem))
  exact List.ne_nil_of_mem (List.mem_reverse.mpr hright)

theorem trim_append {before text after : List Char} (hbefore : ∀ c ∈ before, isBlank c = true)
    (htext : ∀ c ∈ text, isBlank c = false) (hafter : ∀ c ∈ after, isBlank c = true) :
    trim (before ++ text ++ after) = text := by
  have hleft : trimLeft (before ++ text ++ after) = text ++ if text = [] then [] else after := by
    rw [trimLeft, List.append_assoc, List.dropWhile_append_of_pos hbefore]
    cases text with
    | nil =>
      have hnothing : (after ++ []).dropWhile isBlank = [] := List.dropWhile_append_of_pos hafter
      rwa [List.append_nil] at hnothing
    | cons c text =>
      rw [List.cons_append, List.dropWhile_cons_of_neg (by rw [htext c List.mem_cons_self]; exact Bool.false_ne_true),
        if_neg (List.cons_ne_nil c text)]
      rfl
  have hright (after : List Char) (hafter : ∀ c ∈ after, isBlank c = true) :
      trimRight (text ++ after) = trimRight text := by
    rw [trimRight, trimRight, List.reverse_append,
      List.dropWhile_append_of_pos fun c hmem => hafter c (List.mem_reverse.mp hmem)]
  rw [trim, hleft, hright _ (by split <;> simp_all),
    trimRight_eq_self fun c hmem => htext c (List.mem_of_getLast? hmem)]

theorem eq_append_trim (text : List Char) :
    ∃ before after, text = before ++ trim text ++ after ∧ (∀ c ∈ before, isBlank c = true) ∧
      ∀ c ∈ after, isBlank c = true := by
  have hright : trimRight (trimLeft text) ++ ((trimLeft text).reverse.takeWhile isBlank).reverse = trimLeft text := by
    rw [trimRight, ← List.reverse_append, List.takeWhile_append_dropWhile, List.reverse_reverse]
  refine ⟨text.takeWhile isBlank, ((trimLeft text).reverse.takeWhile isBlank).reverse, ?_,
    List.all_eq_true.mp List.all_takeWhile,
    fun c hmem => List.all_eq_true.mp List.all_takeWhile c (List.mem_reverse.mp hmem)⟩
  rw [trim, List.append_assoc, hright, trimLeft, List.takeWhile_append_dropWhile]

theorem isBlank_toLower (c : Char) : isBlank c.toLower = isBlank c := by
  rcases Nat.lt_or_ge c.toNat 128 with hascii | hlarge
  · have hall : ∀ c : Char, c.toNat < 128 → isBlank c.toLower = isBlank c := Ascii.forall_ascii (by decide)
    exact hall c hascii
  · rw [Ascii.toLower_of_not_ascii hlarge]

end ContentProtection.Blank
