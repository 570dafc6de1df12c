import ContentProtection.Search

/-!
# What searching finds

A marker is found exactly when it stands somewhere in the list, and it is found where it first stands. A marker behind some items can also be found from within these items on, when they end with the start of the marker and the marker overlaps itself. A stretch of items of one sort ends before the first item of another sort.
-/

namespace ContentProtection.Search

theorem takeWhile_append_stop {α : Type} {p : α → Bool} {stretch : List α} (hstretch : ∀ item ∈ stretch, p item = true)
    (rest : List α) (hrest : ∀ item ∈ rest.head?, p item = false) :
    (stretch ++ rest).takeWhile p = stretch ∧ (stretch ++ rest).dropWhile p = rest := by
  have hstop : rest.takeWhile p = [] ∧ rest.dropWhile p = rest := by
    cases rest with
    | nil => exact ⟨rfl, rfl⟩
    | cons item rest => simp [hrest item rfl]
  rw [List.takeWhile_append_of_pos hstretch, List.dropWhile_append_of_pos hstretch, hstop.1, hstop.2, List.append_nil]
  exact ⟨rfl, rfl⟩

/-- From the items in front on, the marker stands in them or goes on over their end, where it then stands again. -/
theorem infix_or_overlap {α : Type} {marker front rest : List α} {start : Nat} (hstart : start < front.length)
    (hmarker : marker <+: (front ++ (marker ++ rest)).drop start) :
    marker <:+: front ∨
      ∃ count, 0 < count ∧ count < marker.length ∧ marker.take count <:+ front ∧ marker.drop count <+: marker := by
  obtain ⟨tail, htail⟩ : ∃ tail, tail = front.drop start := ⟨_, rfl⟩
  have hsuffix : tail <:+ front := htail ▸ List.drop_suffix start front
  have hlength : 0 < tail.length := by
    rw [htail, List.length_drop]
    omega
  rw [List.drop_append_of_le_length (Nat.le_of_lt hstart), ← htail] at hmarker
  rcases List.prefix_or_prefix_of_prefix hmarker (List.prefix_append tail _) with hinside | ⟨more, rfl⟩
  · exact .inl (hinside.isInfix.trans hsuffix.isInfix)
  · by_cases hmore : more = []
    · rw [hmore, List.append_nil]
      exact .inl hsuffix.isInfix
    · have hover : 0 < more.length := List.length_pos_iff.mpr hmore
      refine .inr ⟨tail.length, hlength, by rw [List.length_append]; omega, ?_, ?_⟩
      · rwa [List.take_left]
      · rw [List.drop_left]
        rw [List.prefix_append_right_inj] at hmarker
        refine List.prefix_of_prefix_length_le hmarker (List.prefix_append _ rest) ?_
        rw [List.length_append]
        omega

variable {α : Type} [BEq α] [LawfulBEq α]

theorem not_earlier_of_splitAtFirst? {marker list before after : List α}
    (hsplit : splitAtFirst? marker list = some (before, after)) :
    ∀ start < before.length, ¬marker <+: list.drop start := by
  induction list generalizing before with
  | nil =>
    rw [splitAtFirst?] at hsplit
    split at hsplit
    · obtain ⟨rfl, -⟩ := Prod.mk.inj (Option.some.inj hsplit)
      exact fun start hstart => absurd hstart (Nat.not_lt_zero start)
    · cases hsplit
  | cons item rest ih =>
    rw [splitAtFirst?] at hsplit
    split at hsplit
    · obtain ⟨rfl, -⟩ := Prod.mk.inj (Option.some.inj hsplit)
      exact fun start hstart => absurd hstart (Nat.not_lt_zero start)
    · rename_i hmarker
      obtain ⟨⟨skipped, behind⟩, hrest, heq⟩ := Option.map_eq_some_iff.mp hsplit
      obtain ⟨rfl, rfl⟩ := Prod.mk.inj heq
      intro start hstart
      cases start with
      | zero => exact mt List.isPrefixOf_iff_prefix.mpr hmarker
      | succ start => exact ih hrest start (Nat.lt_of_succ_lt_succ hstart)

theorem splitAtFirst?_of_not_earlier {marker before after : List α}
    (hfirst : ∀ start < before.length, ¬marker <+: (before ++ (marker ++ after)).drop start) :
    splitAtFirst? marker (before ++ (marker ++ after)) = some (before, after) := by
  induction before with
  | nil =>
    have hmarker : marker.isPrefixOf (marker ++ after) = true := List.isPrefixOf_iff_prefix.mpr (List.prefix_append _ _)
    rw [List.nil_append]
    cases hlist : marker ++ after with
    | nil =>
      obtain ⟨rfl, rfl⟩ := List.append_eq_nil_iff.mp hlist
      rfl
    | cons item rest => rw [splitAtFirst?, ← hlist, if_pos hmarker, List.drop_left]
  | cons item before ih =>
    have hmarker : ¬marker.isPrefixOf (item :: (before ++ (marker ++ after))) = true :=
      mt List.isPrefixOf_iff_prefix.mp (hfirst 0 (Nat.succ_pos _))
    rw [List.cons_append, splitAtFirst?, if_neg hmarker,
      ih fun start hstart => hfirst (start + 1) (Nat.succ_lt_succ hstart)]
    rfl

/-- The split is at the one place where the marker first stands. -/
theorem splitAtFirst?_eq_some_iff {marker list before after : List α} :
    splitAtFirst? marker list = some (before, after) ↔
      list = before ++ (marker ++ after) ∧ ∀ start < before.length, ¬marker <+: list.drop start := by
  constructor
  · intro hsplit
    refine ⟨?_, not_earlier_of_splitAtFirst? hsplit⟩
    rw [eq_of_splitAtFirst? hsplit, List.append_assoc]
  · rintro ⟨rfl, hfirst⟩
    exact splitAtFirst?_of_not_earlier hfirst

theorem splitAtFirst?_append (marker before after : List α) :
    ∃ parts, splitAtFirst? marker (before ++ (marker ++ after)) = some parts := by
  induction before with
  | nil =>
    cases hlist : marker ++ after with
    | nil =>
      have hmarker : marker = [] := (List.append_eq_nil_iff.mp hlist).1
      exact ⟨_, by rw [List.nil_append, splitAtFirst?, hmarker]; rfl⟩
    | cons item rest =>
      have hmarker : marker.isPrefixOf (item :: rest) = true := by
        rw [List.isPrefixOf_iff_prefix, ← hlist]
        exact List.prefix_append _ _
      exact ⟨_, by rw [List.nil_append, splitAtFirst?, if_pos hmarker]⟩
  | cons item before ih =>
    obtain ⟨parts, hparts⟩ := ih
    rw [List.cons_append, splitAtFirst?, hparts]
    split
    · exact ⟨_, rfl⟩
    · exact ⟨_, rfl⟩

theorem occurs_iff {marker list : List α} :
    occurs marker list = true ↔ ∃ before after, list = before ++ marker ++ after := by
  rw [occurs, Option.isSome_iff_exists]
  constructor
  · rintro ⟨⟨before, after⟩, hsplit⟩
    exact ⟨before, after, eq_of_splitAtFirst? hsplit⟩
  · rintro ⟨before, after, rfl⟩
    rw [List.append_assoc]
    exact splitAtFirst?_append marker before after

theorem splitAtFirst?_singleton {item : α} {before : List α} (hbefore : item ∉ before) (after : List α) :
    splitAtFirst? [item] (before ++ item :: after) = some (before, after) := by
  induction before with
  | nil => simp [splitAtFirst?]
  | cons first before ih =>
    obtain ⟨hfirst, hrest⟩ := not_or.mp (mt List.mem_cons.mpr hbefore)
    have hother : [item].isPrefixOf (first :: (before ++ item :: after)) = false := by
      simp [List.isPrefixOf, hfirst]
    rw [List.cons_append, splitAtFirst?, hother, ih hrest]
    rfl

theorem eq_append_of_dropMarker? {marker list rest : List α} (hdrop : dropMarker? marker list = some rest) :
    list = marker ++ rest := by
  rw [dropMarker?, Option.ite_none_right_eq_some] at hdrop
  obtain ⟨hmarker, hrest⟩ := hdrop
  obtain ⟨rest, rfl⟩ := List.isPrefixOf_iff_prefix.mp hmarker
  rw [← Option.some.inj hrest, List.drop_left]

theorem dropMarker?_append (marker rest : List α) : dropMarker? marker (marker ++ rest) = some rest := by
  have hprefix : marker.isPrefixOf (marker ++ rest) = true := List.isPrefixOf_iff_prefix.mpr (List.prefix_append _ _)
  rw [dropMarker?, if_pos hprefix, List.drop_left]

end ContentProtection.Search
