import ContentProtection.Challenge
import ContentProtection.Proofs.Search
import ContentProtection.Proofs.Text.Utf8

/-!
# Challenges come apart at the first marker

A challenge has a token exactly when a text that is not empty stands in front of the first marker and something stands behind it. The marker ends with the byte that it starts with and overlaps itself nowhere else, so a token can bring the first marker forward in two ways only: it holds a marker, or it ends with all of one but the last byte.
-/

namespace ContentProtection.Challenge

/-- A token, the first marker there is, and a body. -/
structure Parts (payload : Bytes) (token : String) (body : Bytes) : Prop where
  eq : payload = Utf8.encode token.toList ++ (marker ++ body)
  token_ne : token ≠ ""
  body_ne : body ≠ []
  first : ∀ start < (Utf8.encode token.toList).length, ¬marker <+: payload.drop start

variable {payload body : Bytes} {token : String}

theorem Parts.lengths_pos (hparts : Parts payload token body) :
    0 < (Utf8.encode token.toList).length ∧ 0 < body.length := by
  refine ⟨List.length_pos_iff.mpr fun hempty => hparts.token_ne ?_, List.length_pos_iff.mpr hparts.body_ne⟩
  exact String.toList_eq_nil_iff.mp (Utf8.encode_eq_nil_iff.mp hempty)

theorem Parts.split_eq (hparts : Parts payload token body) : split payload = (some token, body) := by
  have hfirst : Search.splitAtFirst? marker payload = some (Utf8.encode token.toList, body) :=
    Search.splitAtFirst?_eq_some_iff.mpr ⟨hparts.eq, hparts.first⟩
  have htoken : (Utf8.encode token.toList).isEmpty = false :=
    List.isEmpty_eq_false_iff.mpr (List.length_pos_iff.mp hparts.lengths_pos.1)
  have hbody : body.isEmpty = false := List.isEmpty_eq_false_iff.mpr hparts.body_ne
  rw [split, hfirst]
  simp only [htoken, hbody, Bool.or_self, Bool.false_eq_true, if_false, Utf8.decode?_encode, String.ofList_toList]

theorem parts_of_split_eq (hsplit : split payload = (some token, body)) : Parts payload token body := by
  rw [split] at hsplit
  split at hsplit
  · rename_i front rest hfirst
    obtain ⟨hpayload, hearlier⟩ := Search.splitAtFirst?_eq_some_iff.mp hfirst
    split at hsplit
    · cases hsplit
    · rename_i hsome
      rw [Bool.or_eq_true, List.isEmpty_iff, List.isEmpty_iff, not_or] at hsome
      split at hsplit
      · rename_i text htext
        obtain ⟨htoken, rfl⟩ := Prod.mk.inj hsplit
        obtain rfl := Option.some.inj htoken
        obtain rfl := Utf8.decode?_eq_some_iff.mp htext
        rw [← String.toList_ofList (l := text)] at hpayload hearlier hsome
        refine ⟨hpayload, ?_, hsome.2, hearlier⟩
        rintro hempty
        rw [hempty] at hsome
        exact hsome.1 rfl
      · cases hsplit
  · cases hsplit

theorem no_token_or_split (payload : Bytes) :
    split payload = (none, payload) ∨ ∃ token body, split payload = (some token, body) := by
  rw [split]
  split
  · split
    · exact .inl rfl
    · split
      · exact .inr ⟨_, _, rfl⟩
      · exact .inl rfl
  · exact .inl rfl

/-- Of the ends of the marker only its last byte starts the marker. -/
theorem overlap_of_marker : ∀ count < marker.length, 0 < count → marker.drop count <+: marker → count = 5 := by decide

theorem parts_of_token (hpayload : payload = Utf8.encode token.toList ++ (marker ++ body)) (htoken : token ≠ "")
    (hbody : body ≠ []) (hinside : ¬marker <:+: Utf8.encode token.toList)
    (hend : ¬marker.dropLast <:+ Utf8.encode token.toList) : Parts payload token body := by
  refine ⟨hpayload, htoken, hbody, fun start hstart hmarker => ?_⟩
  rw [hpayload] at hmarker
  rcases Search.infix_or_overlap hstart hmarker with hinfix | ⟨count, hsome, hless, hfront, hoverlap⟩
  · exact hinside hinfix
  · obtain rfl := overlap_of_marker count hless hsome hoverlap
    exact hend hfront

/-- A challenge is split where the marker first stands, if a text stands in front of it and anything behind it, and otherwise it has no token. Every token that neither holds the marker nor runs into it comes back from the challenge that it was put in front of. -/
theorem split_at_first_marker (payload : Bytes) :
    (∀ token body, split payload = (some token, body) ↔ Parts payload token body) ∧
      ((∀ token body, ¬Parts payload token body) → split payload = (none, payload)) ∧
      ∀ token body, payload = Utf8.encode token.toList ++ (marker ++ body) → token ≠ "" → body ≠ [] →
        ¬marker <:+: Utf8.encode token.toList → ¬marker.dropLast <:+ Utf8.encode token.toList →
        split payload = (some token, body) := by
  refine ⟨fun token body => ⟨parts_of_split_eq, Parts.split_eq⟩, fun hnone => ?_, ?_⟩
  · rcases no_token_or_split payload with hwhole | ⟨token, body, hsplit⟩
    · exact hwhole
    · exact absurd (parts_of_split_eq hsplit) (hnone token body)
  · intro token body hpayload htoken hbody hinside hend
    exact (parts_of_token hpayload htoken hbody hinside hend).split_eq

/-- A token may end with a part of the marker and a body may hold markers. When all but the last byte of a marker stands in front of one, the split is there, and bytes that are no text are no token. -/
theorem split_at_first_marker_after_part_of_it :
    split (Utf8.encode "é:Typ:Type::Type:x:Type:".toList) = (some "é:Typ", Utf8.encode ":Type:x:Type:".toList) ∧
      split (Utf8.encode "1:Type:Type:x".toList) = (some "1", Utf8.encode "Type:x".toList) ∧
      split (0xFF :: (marker ++ [1])) = (none, 0xFF :: (marker ++ [1])) := by
  refine ⟨?_, ?_, ?_⟩
  · exact (split_at_first_marker _).2.2 "é:Typ" _ (by decide) (by decide) (by decide) (by decide) (by decide)
  · exact ((split_at_first_marker _).1 "1" _).mpr ⟨by decide, by decide, by decide, by decide⟩
  · refine (split_at_first_marker _).2.1 fun token body hparts => ?_
    obtain ⟨htoken, hbody⟩ := hparts.lengths_pos
    have hwhole : (0xFF :: (marker ++ [1])).length = 1 + (marker.length + 1) := rfl
    have hlength := congrArg List.length hparts.eq
    rw [hwhole, List.length_append, List.length_append] at hlength
    have hone : [0xFF].length = (Utf8.encode token.toList).length := by
      rw [List.length_singleton]
      omega
    have hbyte : [0xFF] = Utf8.encode token.toList := List.append_inj_left hparts.eq hone
    have hread : Utf8.decode? [0xFF] = some token.toList := Utf8.decode?_eq_some_iff.mpr hbyte
    have hunread : Utf8.decode? [0xFF] = none := by decide
    rw [hunread] at hread
    cases hread

end ContentProtection.Challenge
