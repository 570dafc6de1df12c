import ContentProtection.ClearKey.Session
import ContentProtection.Helper.Systems
import ContentProtection.Proofs.Cipher.Keystream

/-!
# Clear key decryption by positions

Which bytes of a payload are encrypted is a list of positions, in order. Decryption adds byte `rank` of the keystream to the byte at the position of that rank and leaves every other byte alone, so ranges may split blocks anywhere and a second decryption undoes the first. `decryptRanges` cuts the payload up instead; the two agree as long as the ranges fit.
-/

namespace ContentProtection

namespace Sample

/-- The positions of the encrypted bytes, in order, when the first subsample begins at `start`. -/
def encryptedFrom : (start : Nat) → List Subsample → List Nat
  | _, [] => []
  | start, subsample :: rest =>
    List.range' (start + subsample.clearBytes) subsample.encryptedBytes
      ++ encryptedFrom (start + (subsample.clearBytes + subsample.encryptedBytes)) rest

/-- The positions of the encrypted bytes of a payload; without subsamples they are all. -/
def Encryption.encryptedPositions (encryption : Encryption) (length : Nat) : List Nat :=
  if encryption.subsamples = [] then List.range length else encryptedFrom 0 encryption.subsamples

/-- The number of bytes that subsamples cover. -/
def covered (subsamples : List Subsample) : Nat :=
  (subsamples.map fun subsample => subsample.clearBytes + subsample.encryptedBytes).sum

theorem covered_cons (subsample : Subsample) (rest : List Subsample) :
    covered (subsample :: rest) = subsample.clearBytes + subsample.encryptedBytes + covered rest := by
  rw [covered, List.map_cons, List.sum_cons]
  rfl

theorem encryptedFrom_eq_map (start : Nat) (subsamples : List Subsample) :
    encryptedFrom start subsamples = (encryptedFrom 0 subsamples).map (start + ·) := by
  induction subsamples generalizing start with
  | nil => rfl
  | cons subsample rest ih =>
    rw [encryptedFrom, encryptedFrom, ih, ih (0 + _), List.map_append, List.map_map, List.map_add_range']
    simp only [Nat.zero_add, Function.comp_def, Nat.add_assoc]

end Sample

namespace Keystream

/-- A keystream has been added at the given positions, one byte for each in their order, and nowhere else. -/
structure AddedAt (keystream : Nat → UInt8) (positions : List Nat) (before after : Bytes) : Prop where
  inside : ∀ position ∈ positions, position < before.length
  length_eq : after.length = before.length
  encrypted : ∀ rank position, positions[rank]? = some position →
    after[position]? = before[position]?.map (· ^^^ keystream rank)
  clear : ∀ position, position ∉ positions → after[position]? = before[position]?

theorem AddedAt.twice {keystream : Nat → UInt8} {positions : List Nat} {first second third : Bytes}
    (hfirst : AddedAt keystream positions first second) (hsecond : AddedAt keystream positions second third) :
    third = first := by
  apply List.ext_getElem?
  intro position
  by_cases hposition : position ∈ positions
  · obtain ⟨rank, hrank⟩ := List.mem_iff_getElem?.mp hposition
    have hundone : (fun byte => byte ^^^ keystream rank) ∘ (fun byte => byte ^^^ keystream rank) = id := by
      funext byte
      show byte ^^^ keystream rank ^^^ keystream rank = byte
      rw [UInt8.xor_assoc, UInt8.xor_self, UInt8.xor_zero]
    rw [hsecond.encrypted rank position hrank, hfirst.encrypted rank position hrank, Option.map_map, hundone,
      Option.map_id, id]
  · rw [hsecond.clear position hposition, hfirst.clear position hposition]

theorem AddedAt.nowhere (keystream : Nat → UInt8) (data : Bytes) : AddedAt keystream [] data data where
  inside := by simp
  length_eq := rfl
  encrypted := by simp
  clear _ _ := rfl

/-- Two texts one after the other: the second one goes on in the keystream where the first one stopped. -/
theorem AddedAt.append {keystream : Nat → UInt8} {left right : List Nat} {before after before' after' : Bytes}
    (hleft : AddedAt keystream left before after)
    (hright : AddedAt (fun rank => keystream (left.length + rank)) right before' after') :
    AddedAt keystream (left ++ right.map (before.length + ·)) (before ++ before') (after ++ after') where
  inside position hposition := by
    rw [List.mem_append, List.mem_map] at hposition
    rw [List.length_append]
    rcases hposition with hposition | ⟨position, hposition, rfl⟩
    · have := hleft.inside position hposition
      omega
    · have := hright.inside position hposition
      omega
  length_eq := by rw [List.length_append, List.length_append, hleft.length_eq, hright.length_eq]
  encrypted rank position hrank := by
    by_cases hearlier : rank < left.length
    · rw [List.getElem?_append_left hearlier] at hrank
      have hinside := hleft.inside position (List.mem_of_getElem? hrank)
      rw [List.getElem?_append_left (by rw [hleft.length_eq]; exact hinside), List.getElem?_append_left hinside]
      exact hleft.encrypted rank position hrank
    · rw [List.getElem?_append_right (by omega), List.getElem?_map, Option.map_eq_some_iff] at hrank
      obtain ⟨position, hrank, rfl⟩ := hrank
      have hadded := hright.encrypted _ position hrank
      rw [Nat.add_sub_cancel' (by omega)] at hadded
      rw [List.getElem?_append_right (by rw [hleft.length_eq]; omega), List.getElem?_append_right (by omega),
        hleft.length_eq, Nat.add_sub_cancel_left]
      exact hadded
  clear position hposition := by
    rw [List.mem_append, List.mem_map, not_or] at hposition
    obtain ⟨houtside, houtside'⟩ := hposition
    by_cases hearlier : position < before.length
    · rw [List.getElem?_append_left (by rw [hleft.length_eq]; exact hearlier), List.getElem?_append_left hearlier]
      exact hleft.clear position houtside
    · rw [List.getElem?_append_right (by rw [hleft.length_eq]; omega), List.getElem?_append_right (by omega),
        hleft.length_eq]
      apply hright.clear
      intro hmem
      exact houtside' ⟨_, hmem, by omega⟩

/-- Adding a keystream that is long enough adds it everywhere. -/
theorem addedAt_apply {keystream : Nat → UInt8} {stream data : Bytes}
    (hstream : ∀ index < data.length, stream[index]? = some (keystream index)) :
    AddedAt keystream (List.range data.length) data (apply stream data) where
  inside _ hposition := List.mem_range.mp hposition
  length_eq := by
    rw [apply, List.length_zipWith, Nat.min_eq_left]
    cases hlength : data.length with
    | zero => exact Nat.zero_le _
    | succ last => exact (List.getElem?_eq_some_iff.mp (hstream last (by omega))).1
  encrypted rank position hrank := by
    obtain ⟨hlt, rfl⟩ := List.getElem?_eq_some_iff.mp hrank
    rw [List.length_range] at hlt
    rw [List.getElem_range, apply, List.getElem?_zipWith, hstream rank hlt, List.getElem?_eq_getElem hlt]
    rfl
  clear position hposition := by
    rw [List.mem_range, Nat.not_lt] at hposition
    rw [apply, List.getElem?_zipWith, List.getElem?_eq_none hposition]

end Keystream

namespace ClearKey

open Sample (Subsample covered encryptedFrom encryptedFrom_eq_map covered_cons)
open Keystream (AddedAt)

/-! ### Ranges -/

theorem encryptedFrom_cons (clearBytes encryptedBytes : Nat) (rest : List Subsample) :
    encryptedFrom 0 (⟨clearBytes, encryptedBytes⟩ :: rest) =
      (List.range encryptedBytes ++ (encryptedFrom 0 rest).map (encryptedBytes + ·)).map (clearBytes + ·) := by
  rw [encryptedFrom, encryptedFrom_eq_map (0 + _), List.map_append, List.map_map, List.range_eq_range',
    List.map_add_range']
  simp only [Nat.zero_add, Nat.add_zero, Function.comp_def, Nat.add_assoc]

theorem decryptRanges_of_covered {stream : Bytes} {keystream : Nat → UInt8} {subsamples : List Subsample}
    {payload : Bytes} (hfits : covered subsamples ≤ payload.length)
    (hstream : ∀ index < payload.length, stream[index]? = some (keystream index)) :
    ∃ decrypted, decryptRanges stream subsamples payload = (decrypted, true) ∧
      AddedAt keystream (encryptedFrom 0 subsamples) payload decrypted := by
  induction subsamples generalizing stream keystream payload with
  | nil => exact ⟨payload, rfl, AddedAt.nowhere keystream payload⟩
  | cons subsample rest ih =>
    obtain ⟨clearBytes, encryptedBytes⟩ := subsample
    rw [covered_cons] at hfits
    dsimp only at hfits
    -- The payload in three parts: clear bytes, encrypted bytes and what the later subsamples see.
    let front := payload.take clearBytes
    let range := (payload.drop clearBytes).take encryptedBytes
    let behind := payload.drop (clearBytes + encryptedBytes)
    have hfront : front.length = clearBytes := List.length_take_of_le (by omega)
    have hrange : range.length = encryptedBytes := List.length_take_of_le (by rw [List.length_drop]; omega)
    have hbehind : behind.length = payload.length - (clearBytes + encryptedBytes) := List.length_drop
    have hpayload : front ++ (range ++ behind) = payload := by
      rw [show behind = (payload.drop clearBytes).drop encryptedBytes from List.drop_drop.symm,
        List.take_append_drop, List.take_append_drop]
    have hfitsBehind : covered rest ≤ behind.length := by omega
    have hstreamBehind : ∀ index < behind.length,
        (stream.drop encryptedBytes)[index]? = some (keystream (encryptedBytes + index)) := by
      intro index hindex
      rw [List.getElem?_drop]
      exact hstream _ (by omega)
    obtain ⟨decrypted, hdecrypted, hadded⟩ := ih hfitsBehind hstreamBehind
    have hhere : AddedAt keystream (List.range encryptedBytes) range (Keystream.apply stream range) := by
      rw [← hrange]
      exact Keystream.addedAt_apply fun index hindex => hstream index (by omega)
    have hrest := hhere.append (by rw [List.length_range]; exact hadded)
    have hall := (AddedAt.nowhere keystream front).append (by simpa only [List.length_nil, Nat.zero_add] using hrest)
    rw [hpayload, hfront, hrange, List.nil_append, ← encryptedFrom_cons] at hall
    refine ⟨_, ?_, hall⟩
    rw [decryptRanges, if_neg (by dsimp only; omega)]
    simp only [hdecrypted, behind, front, range, List.append_assoc]

/-! ### Payloads -/

theorem decryptFrom_of_covered (key : ContentKey) (iv : Bytes) {encryption : Sample.Encryption} {payload : Bytes}
    (hfits : covered encryption.subsamples ≤ payload.length) :
    ∃ decrypted, decryptFrom key (Keystream.counterOf iv) encryption.subsamples payload = (.ok (), decrypted) ∧
      AddedAt (Keystream.byteAt key.bytes iv) (encryption.encryptedPositions payload.length) payload decrypted := by
  have hstream : ∀ index < payload.length,
      (Keystream.bytes key.bytes (Keystream.counterOf iv) payload.length)[index]?
        = some (Keystream.byteAt key.bytes iv index) :=
    fun _ hindex => Keystream.getElem?_bytes key.length_eq iv hindex
  rw [Sample.Encryption.encryptedPositions]
  by_cases hwhole : encryption.subsamples = []
  · rw [if_pos hwhole, hwhole]
    exact ⟨_, rfl, Keystream.addedAt_apply hstream⟩
  · obtain ⟨decrypted, hdecrypted, hadded⟩ := decryptRanges_of_covered hfits hstream
    have hsome : encryption.subsamples.isEmpty = false := List.isEmpty_eq_false_iff.mpr hwhole
    rw [if_neg hwhole]
    refine ⟨decrypted, ?_, hadded⟩
    simp only [decryptFrom, hsome, hdecrypted, Bool.false_eq_true, if_false]

namespace Session

/-- With an open output and a key for the sample, only the cipher is left of decryption. -/
theorem decrypt_eq_decryptFrom {session : Session} {key : ContentKey} {encryption : Sample.Encryption}
    (hkey : session.key = some key) (hopen : session.violatesOutput = false) (hscheme : encryption.scheme = .cenc)
    (hnamed : ∀ keyId, session.keyId = some keyId → encryption.keyId = [] ∨ encryption.keyId = keyId.bytes)
    (hiv : encryption.iv.length = 8 ∨ encryption.iv.length = 16) (payload : Bytes) :
    session.decrypt encryption payload =
      decryptFrom key (Keystream.counterOf encryption.iv) encryption.subsamples payload := by
  have hother : session.namesOtherKey encryption = false := by
    rw [namesOtherKey]
    cases hkeyId : session.keyId with
    | none => rfl
    | some keyId =>
      rcases hnamed keyId hkeyId with hnone | hsame
      · simp [hnone]
      · simp [hsame]
  simp [decrypt, hopen, hkey, hscheme, hother, Keystream.firstCounter?_eq_counterOf hiv]

/-- Decryption of a sample that the payload covers adds the keystream at the encrypted positions, and a second decryption takes it away again. -/
theorem decrypt_adds_keystream (session : Session) (key : ContentKey) (encryption : Sample.Encryption) (payload : Bytes)
    (hkey : session.key = some key) (hopen : session.violatesOutput = false) (hscheme : encryption.scheme = .cenc)
    (hnamed : ∀ keyId, session.keyId = some keyId → encryption.keyId = [] ∨ encryption.keyId = keyId.bytes)
    (hiv : encryption.iv.length = 8 ∨ encryption.iv.length = 16)
    (hfits : covered encryption.subsamples ≤ payload.length) :
    ∃ decrypted, session.decrypt encryption payload = (.ok (), decrypted) ∧
      AddedAt (Keystream.byteAt key.bytes encryption.iv) (encryption.encryptedPositions payload.length)
        payload decrypted ∧
      session.decrypt encryption decrypted = (.ok (), payload) := by
  have hdecrypt := decrypt_eq_decryptFrom hkey hopen hscheme hnamed hiv
  obtain ⟨decrypted, hfirst, hadded⟩ := decryptFrom_of_covered key encryption.iv hfits
  have hlength := hadded.length_eq
  have hfitsAgain : covered encryption.subsamples ≤ decrypted.length := by
    rw [hlength]
    exact hfits
  obtain ⟨restored, hsecond, hagain⟩ := decryptFrom_of_covered key encryption.iv hfitsAgain
  rw [hlength] at hagain
  refine ⟨decrypted, by rw [hdecrypt, hfirst], hadded, ?_⟩
  rw [hdecrypt, hsecond, hadded.twice hagain]

/-- Ranges that split blocks, an empty one among them, with a counter that wraps after its first block. -/
theorem decrypt_adds_keystream_across_ranges :
    let key : ContentKey := ⟨List.replicate 16 42, rfl⟩
    let session : Session :=
      { helper := Helper.ofInfo (.ofSystem .clearKey) {}, keyId := some Uuid.zero, key := some key }
    let encryption : Sample.Encryption :=
      { iv := List.replicate 16 255, keyId := Uuid.zero.bytes, subsamples := [⟨3, 10⟩, ⟨0, 0⟩, ⟨5, 20⟩] }
    let payload : Bytes := List.replicate 41 7
    session.key = some key ∧ session.violatesOutput = false ∧ encryption.scheme = .cenc ∧
      (∀ keyId, session.keyId = some keyId → encryption.keyId = [] ∨ encryption.keyId = keyId.bytes) ∧
      (encryption.iv.length = 8 ∨ encryption.iv.length = 16) ∧ covered encryption.subsamples ≤ payload.length ∧
      ∃ decrypted, session.decrypt encryption payload = (.ok (), decrypted) ∧
        AddedAt (Keystream.byteAt key.bytes encryption.iv) (encryption.encryptedPositions payload.length)
          payload decrypted ∧
        session.decrypt encryption decrypted = (.ok (), payload) := by
  intro key session encryption payload
  have hnamed : ∀ keyId, session.keyId = some keyId → encryption.keyId = [] ∨ encryption.keyId = keyId.bytes := by
    rintro keyId ⟨⟩
    exact Or.inr rfl
  have hiv : encryption.iv.length = 8 ∨ encryption.iv.length = 16 := Or.inr rfl
  have hfits : covered encryption.subsamples ≤ payload.length := by decide
  exact ⟨rfl, rfl, rfl, hnamed, hiv, hfits,
    decrypt_adds_keystream session key encryption payload rfl rfl rfl hnamed hiv hfits⟩

end Session

end ClearKey

end ContentProtection
