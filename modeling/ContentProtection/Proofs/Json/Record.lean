import ContentProtection.Json.Record
import ContentProtection.Proofs.Json.Text
import Mathlib.Data.List.Forall2

/-!
# Fields of records

The fields that a record written as an object has, however its names are written. A name that stands once gives its field and a name that does not stand gives none; what other members hold does not matter.
-/

namespace ContentProtection.Json

/-- Members of an object, by what their names stand for. -/
abbrev Members := List (List Char × Value)

/-- An object with these members, in their order. -/
def Value.HasMembers (json : Value) (members : Members) : Prop :=
  ∃ written, json = .object written ∧
    List.Forall₂ (fun member entry => TextWritten member.1 entry.1 ∧ entry.2 = member.2) members written

/-- Whether exactly one member has the name, and which value it has. -/
def Members.Hold (members : Members) (name : List Char) (value : Value) : Prop :=
  ∃ before after, members = before ++ (name, value) :: after ∧ ∀ member ∈ before ++ after, member.1 ≠ name

def Members.Lack (members : Members) (name : List Char) : Prop := ∀ member ∈ members, member.1 ≠ name

variable {members : Members} {name : List Char} {value : Value}

theorem Members.Lack.filter_eq_nil (hlack : members.Lack name) :
    members.filter (fun member => member.1 = name) = [] :=
  List.filter_eq_nil_iff.mpr fun member hmem => by simpa using hlack member hmem

theorem Members.Lack.field? (hlack : members.Lack name) : Json.field? members name = some none := by
  rw [Json.field?, hlack.filter_eq_nil]

theorem Members.Hold.field? (hhold : members.Hold name value) : Json.field? members name = some (some value) := by
  obtain ⟨before, after, rfl, hothers⟩ := hhold
  have hbefore : Members.Lack before name := fun member hmem => hothers member (List.mem_append_left _ hmem)
  have hafter : Members.Lack after name := fun member hmem => hothers member (List.mem_append_right _ hmem)
  have hfilter : (before ++ (name, value) :: after).filter (fun member => member.1 = name) = [(name, value)] := by
    rw [List.filter_append, hbefore.filter_eq_nil, List.nil_append, List.filter_cons_of_pos (by simp),
      hafter.filter_eq_nil]
  rw [Json.field?, hfilter]

/-- The names of all members are decoded before any field is looked up. -/
theorem Value.HasMembers.fields? {json : Value} (hjson : json.HasMembers members) (names : List (List Char)) :
    json.fields? names = names.mapM (Json.field? members) := by
  obtain ⟨written, rfl, hwritten⟩ := hjson
  have hdecoded : written.mapM (fun entry => (decode? entry.1).map fun name => (name, entry.2)) = some members := by
    induction hwritten with
    | nil => rfl
    | @cons member entry members written hfirst _ ih =>
      obtain ⟨name, value⟩ := member
      obtain ⟨key, _⟩ := entry
      obtain ⟨hname, rfl⟩ : TextWritten name key ∧ _ = value := hfirst
      rw [List.mapM_cons, ih]
      dsimp only
      rw [hname.decode?]
      rfl
  rw [Value.fields?, hdecoded]
  rfl

end ContentProtection.Json
