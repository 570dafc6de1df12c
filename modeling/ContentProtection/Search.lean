/-!
# Searching a list for a marker
-/

namespace ContentProtection.Search

variable {α : Type} [BEq α]

/-- What stands before and after the first occurrence of `marker`. -/
def splitAtFirst? (marker : List α) : List α → Option (List α × List α)
  | [] => if marker.isEmpty then some ([], []) else none
  | item :: rest =>
    if marker.isPrefixOf (item :: rest) then some ([], (item :: rest).drop marker.length)
    else (splitAtFirst? marker rest).map fun (before, after) => (item :: before, after)

/-- Whether `marker` occurs at some offset. -/
def occurs (marker list : List α) : Bool := (splitAtFirst? marker list).isSome

/-- The rest of a list that starts with `marker`. -/
def dropMarker? (marker list : List α) : Option (List α) :=
  if marker.isPrefixOf list then some (list.drop marker.length) else none

/-- The parts around the first occurrence make up the list. -/
theorem eq_of_splitAtFirst? [LawfulBEq α] {marker list before after : List α}
    (hsplit : splitAtFirst? marker list = some (before, after)) : list = before ++ marker ++ after := by
  induction list generalizing before after with
  | nil =>
    simp only [splitAtFirst?, List.isEmpty_iff, Option.ite_none_right_eq_some, Option.some.injEq,
      Prod.mk.injEq] at hsplit
    obtain ⟨rfl, rfl, rfl⟩ := hsplit
    rfl
  | cons item rest ih =>
    unfold splitAtFirst? at hsplit
    split at hsplit
    · rename_i hmarker
      obtain ⟨tail, htail⟩ := List.isPrefixOf_iff_prefix.1 hmarker
      simp only [Option.some.injEq, Prod.mk.injEq] at hsplit
      rw [← hsplit.1, ← hsplit.2, ← htail]
      simp
    · obtain ⟨⟨head, tail⟩, hrest, heq⟩ := Option.map_eq_some_iff.1 hsplit
      simp only [Prod.mk.injEq] at heq
      rw [← heq.1, ← heq.2, ih hrest]
      simp

theorem length_of_splitAtFirst? [LawfulBEq α] {marker list before after : List α}
    (hsplit : splitAtFirst? marker list = some (before, after)) : after.length ≤ list.length := by
  rw [eq_of_splitAtFirst? hsplit, List.length_append]
  exact Nat.le_add_left _ _

end ContentProtection.Search
