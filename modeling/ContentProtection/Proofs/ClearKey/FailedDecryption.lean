import ContentProtection.Proofs.ClearKey.Decryption

/-!
# Decryption that fails

All that can go wrong before the cipher starts leaves the payload alone. What is left is a layout that runs past the end of the payload. That is seen range by range, so the ranges of the subsamples before the first one that runs past the end have been decrypted by then and stay so; the rest of the payload is as it was.
-/

namespace ContentProtection

namespace Sample

/-- The subsamples before the first one that runs past the end of a payload. -/
def fitting : (length : Nat) → List Subsample → List Subsample
  | _, [] => []
  | length, subsample :: rest =>
    if length < subsample.clearBytes + subsample.encryptedBytes then []
    else subsample :: fitting (length - (subsample.clearBytes + subsample.encryptedBytes)) rest

/-- The positions of the encrypted bytes before the first subsample that runs past the end. -/
def Encryption.fittingPositions (encryption : Encryption) (length : Nat) : List Nat :=
  encryptedFrom 0 (fitting length encryption.subsamples)

theorem covered_fitting_le (length : Nat) (subsamples : List Subsample) :
    covered (fitting length subsamples) ≤ length := by
  induction subsamples generalizing length with
  | nil => exact Nat.zero_le length
  | cons subsample rest ih =>
    rw [fitting]
    split
    · exact Nat.zero_le length
    · rename_i hroom
      have hrest := ih (length - (subsample.clearBytes + subsample.encryptedBytes))
      rw [covered_cons]
      omega

end Sample

namespace Keystream

/-- What is added changes nothing only where the keystream is zero. -/
theorem AddedAt.eq_iff {keystream : Nat → UInt8} {positions : List Nat} {before after : Bytes}
    (hadded : AddedAt keystream positions before after) :
    after = before ↔ ∀ rank < positions.length, keystream rank = 0 := by
  constructor
  · rintro rfl rank hrank
    have hposition := List.getElem?_eq_getElem hrank
    have hinside := hadded.inside _ (List.getElem_mem hrank)
    have hsame := hadded.encrypted rank _ hposition
    rw [List.getElem?_eq_getElem hinside, Option.map_some, Option.some.injEq] at hsame
    exact ((UInt8.xor_right_inj _).mp (UInt8.xor_zero.trans hsame)).symm
  · intro hzero
    apply List.ext_getElem?
    intro position
    by_cases hposition : position ∈ positions
    · obtain ⟨rank, hrank⟩ := List.mem_iff_getElem?.mp hposition
      have hlt := (List.getElem?_eq_some_iff.mp hrank).1
      rw [hadded.encrypted rank position hrank, hzero rank hlt]
      simp
    · exact hadded.clear position hposition

end Keystream

namespace ClearKey

open Sample (covered covered_cons covered_fitting_le fitting)
open ContentProtection.Session (Fault)
open Keystream (AddedAt byteAt)

/-- Ranges are decrypted up to the first subsample that runs past the end. -/
theorem decryptRanges_eq_fitting (stream : Bytes) (subsamples : List Sample.Subsample) (payload : Bytes) :
    decryptRanges stream subsamples payload =
      ((decryptRanges stream (fitting payload.length subsamples) payload).1,
        decide (covered subsamples ≤ payload.length)) := by
  induction subsamples generalizing stream payload with
  | nil => simp [decryptRanges, fitting, covered]
  | cons subsample rest ih =>
    rw [decryptRanges, fitting, covered_cons]
    split
    · rename_i hpast
      have hnot : ¬subsample.clearBytes + subsample.encryptedBytes + covered rest ≤ payload.length := by omega
      rw [decide_eq_false hnot]
      rfl
    · rename_i hroom
      have hrest : covered rest ≤ payload.length - (subsample.clearBytes + subsample.encryptedBytes) ↔
          subsample.clearBytes + subsample.encryptedBytes + covered rest ≤ payload.length := by omega
      rw [decryptRanges, if_neg hroom, ih, List.length_drop]
      simp only [hrest]

namespace Session

/-- The session starts its cipher for the sample. -/
structure Deciphers (session : Session) (encryption : Sample.Encryption) (key : ContentKey) : Prop where
  key_eq : session.key = some key
  open_eq : session.violatesOutput = false
  scheme_eq : encryption.scheme = .cenc
  named : ∀ keyId, session.keyId = some keyId → encryption.keyId = [] ∨ encryption.keyId = keyId.bytes
  ivLength : encryption.iv.length = 8 ∨ encryption.iv.length = 16

theorem named_of_not_namesOtherKey {session : Session} {encryption : Sample.Encryption}
    (hsame : session.namesOtherKey encryption = false) {keyId : Uuid} (hkeyId : session.keyId = some keyId) :
    encryption.keyId = [] ∨ encryption.keyId = keyId.bytes := by
  rw [namesOtherKey, hkeyId] at hsame
  by_cases hnone : encryption.keyId = []
  · exact .inl hnone
  · simpa [hnone] using hsame

theorem ivLength_of_firstCounter? {iv : Bytes} {counter : Nat} (hcounter : Keystream.firstCounter? iv = some counter) :
    iv.length = 8 ∨ iv.length = 16 := by
  rw [Keystream.firstCounter?] at hcounter
  split_ifs at hcounter with hshort hlong
  · exact .inl hshort
  · exact .inr hlong

/-- Before the cipher starts, every fault leaves the payload as it is. -/
theorem fails_or_deciphers (session : Session) (encryption : Sample.Encryption) (payload : Bytes) :
    (∃ fault, session.decrypt encryption payload = (.error fault, payload)) ∨
      ∃ key, session.Deciphers encryption key := by
  unfold decrypt
  split
  · exact .inl ⟨_, rfl⟩
  · rename_i hopen
    cases hkey : session.key with
    | none => exact .inl ⟨_, rfl⟩
    | some key =>
      dsimp only
      split
      · exact .inl ⟨_, rfl⟩
      · rename_i hplain
        simp only [Bool.or_eq_true, decide_eq_true_eq, not_or, not_not] at hplain
        cases hcounter : Keystream.firstCounter? encryption.iv with
        | none => exact .inl ⟨_, rfl⟩
        | some counter =>
          exact .inr ⟨key, hkey, Bool.eq_false_of_not_eq_true hopen, hplain.1,
            fun _ => named_of_not_namesOtherKey (Bool.eq_false_of_not_eq_true hplain.2),
            ivLength_of_firstCounter? hcounter⟩

/-- Once the cipher has started, only the layout can fail. -/
theorem Deciphers.changes {session : Session} {encryption : Sample.Encryption} {key : ContentKey}
    (hdeciphers : session.Deciphers encryption key) {payload after : Bytes} {fault : Fault}
    (hfails : session.decrypt encryption payload = (.error fault, after)) :
    fault = unusable ∧ payload.length < covered encryption.subsamples ∧
      AddedAt (byteAt key.bytes encryption.iv) (encryption.fittingPositions payload.length) payload after := by
  obtain ⟨hkey, hopen, hscheme, hnamed, hiv⟩ := hdeciphers
  rw [decrypt_eq_decryptFrom hkey hopen hscheme hnamed hiv, decryptFrom] at hfails
  obtain ⟨decrypted, hdecrypted, hadded⟩ :=
    decryptRanges_of_covered (covered_fitting_le payload.length encryption.subsamples)
      fun _ hindex => Keystream.getElem?_bytes key.length_eq encryption.iv hindex
  rw [decryptRanges_eq_fitting, hdecrypted] at hfails
  by_cases hfits : covered encryption.subsamples ≤ payload.length
  · rw [decide_eq_true hfits] at hfails
    split at hfails <;> cases hfails
  · rw [decide_eq_false hfits] at hfails
    split at hfails
    · cases hfails
    · cases hfails
      exact ⟨rfl, Nat.not_le.mp hfits, hadded⟩

/-- A failing decryption leaves the payload as it was unless the cipher has started. Then it is the layout that fails: the ranges before the first subsample that runs past the end have been decrypted, so that the payload is as it was only if the keystream is zero there. -/
theorem failed_decrypt_changes_fitting_ranges (session : Session) (encryption : Sample.Encryption)
    (payload after : Bytes) (fault : Fault) (hfails : session.decrypt encryption payload = (.error fault, after)) :
    (after = payload ∧ ∀ key, ¬session.Deciphers encryption key) ∨
      ∃ key, session.Deciphers encryption key ∧ fault = unusable ∧ payload.length < covered encryption.subsamples ∧
        AddedAt (byteAt key.bytes encryption.iv) (encryption.fittingPositions payload.length) payload after ∧
        (after = payload ↔
          ∀ rank < (encryption.fittingPositions payload.length).length, byteAt key.bytes encryption.iv rank = 0) := by
  by_cases hstarts : ∃ key, session.Deciphers encryption key
  · obtain ⟨key, hdeciphers⟩ := hstarts
    obtain ⟨hfault, hpast, hadded⟩ := hdeciphers.changes hfails
    exact .inr ⟨key, hdeciphers, hfault, hpast, hadded, hadded.eq_iff⟩
  · rcases session.fails_or_deciphers encryption payload with ⟨fault', hkept⟩ | hdeciphers
    · rw [hkept] at hfails
      exact .inl ⟨(Prod.mk.inj hfails).2.symm, not_exists.mp hstarts⟩
    · exact absurd hdeciphers hstarts

/-- Two subsamples fit, one of them without encrypted bytes; the third one runs past the end. -/
theorem failed_decrypt_changes_fitting_ranges_of_long_layout :
    let session : Session :=
      { helper := Helper.ofInfo (.ofSystem .clearKey) {}, keyId := some Uuid.zero
        key := some ⟨List.replicate 16 42, rfl⟩ }
    let encryption : Sample.Encryption :=
      { iv := List.replicate 8 1, keyId := Uuid.zero.bytes, subsamples := [⟨1, 2⟩, ⟨1, 0⟩, ⟨0, 3⟩, ⟨0, 1⟩] }
    let payload : Bytes := [1, 2, 3, 4, 5, 6]
    ∃ after, session.decrypt encryption payload = (.error unusable, after) ∧
      encryption.fittingPositions payload.length = [1, 2] ∧
      ((after = payload ∧ ∀ key, ¬session.Deciphers encryption key) ∨
        ∃ key, session.Deciphers encryption key ∧ unusable = unusable ∧
          payload.length < covered encryption.subsamples ∧
          AddedAt (byteAt key.bytes encryption.iv) (encryption.fittingPositions payload.length) payload after ∧
          (after = payload ↔ ∀ rank < (encryption.fittingPositions payload.length).length,
            byteAt key.bytes encryption.iv rank = 0)) := by
  intro session encryption payload
  have hfails : session.decrypt encryption payload = (.error unusable, (session.decrypt encryption payload).2) := rfl
  exact ⟨_, hfails, rfl, failed_decrypt_changes_fitting_ranges session encryption payload _ _ hfails⟩

/-- The second subsample runs past the end, after the only byte of the first one has been decrypted. -/
theorem failed_decrypt_changes_first_range :
    let session : Session :=
      { helper := Helper.ofInfo (.ofSystem .clearKey) {}, keyId := some Uuid.zero
        key := some ⟨List.replicate 16 42, rfl⟩ }
    let encryption : Sample.Encryption := { iv := List.replicate 16 1, subsamples := [⟨0, 1⟩, ⟨0, 2⟩] }
    session.decrypt encryption [7, 8] = (.error unusable, [255, 8]) := by
  decide +kernel

end Session

end ClearKey

end ContentProtection
