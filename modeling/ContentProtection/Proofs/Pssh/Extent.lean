import ContentProtection.Proofs.Pssh.Grammar

/-!
# How far a box is read

A box declares its size, and its parts say where they end. Reading holds both against the data and never against each other: the parts may end before the declared end, at it or behind it. Up to the later of the two ends the data decides what is read, and what comes after it never does. So data can be cut at the declared end exactly when the parts end by then; cut before its parts end, it holds no box any more.
-/

namespace ContentProtection.Pssh

theorem ofBox?_of_isPrefix {start bytes : Bytes} {size : Nat} {pssh : Pssh} (hform : BoxStart size start)
    (hfits : pssh.Fits) (hparts : start ++ pssh.body <+: bytes) (hdeclared : size ≤ bytes.length) :
    ofBox? bytes = some pssh := by
  obtain ⟨rest, rfl⟩ := hparts
  exact ofBox?_eq_some_iff.mpr ⟨hfits, start, rest, hform.mono hdeclared, rfl⟩

/-- Where data that has been cut still holds a box, it is the same one, with all of its parts. -/
theorem parts_le_length {front more trailing : Bytes} {size : Nat} {pssh other : Pssh}
    (hbox : ofBox? (front ++ more) = some pssh)
    (hstart : readBoxStart? (front ++ more) = some (size, pssh.body ++ trailing)) (hother : ofBox? front = some other) :
    more.length ≤ trailing.length := by
  obtain ⟨hfits, _, start, rest, -, hroom, hform, rfl⟩ := parts_of_ofBox? hother
  have hwhole : start ++ other.body ++ rest ++ more = start ++ (other.body ++ (rest ++ more)) := by
    simp only [List.append_assoc]
  have hlength : (start ++ other.body ++ rest).length ≤ (start ++ (other.body ++ (rest ++ more))).length := by
    rw [← hwhole]
    exact (List.prefix_append _ more).length_le
  rw [hwhole] at hbox hstart
  have hform' : BoxStart (start ++ (other.body ++ (rest ++ more))).length start :=
    hform.mono (Nat.le_trans hroom hlength)
  have hagain := ofBox?_eq_some_iff.mpr ⟨hfits, start, rest ++ more, hform', (List.append_assoc ..).symm⟩
  obtain rfl := Option.some.inj (hbox.symm.trans hagain)
  -- Size and type are read in one way only, so the same bytes follow the parts.
  obtain ⟨_, hread, -⟩ := hform'.readBoxStart?
  have hrest := List.append_cancel_left (Prod.mk.inj (Option.some.inj (hstart.symm.trans hread))).2
  rw [hrest, List.length_append]
  exact Nat.le_add_left _ _

/-- A box that is read lies in the data with its parts and its declared size. Nothing after both ends matters. Up to the declared end alone, the data holds the box if its parts end by then, and otherwise it holds none. -/
theorem read_up_to_both_ends (bytes : Bytes) (pssh : Pssh) (hbox : ofBox? bytes = some pssh) :
    ∃ size start trailing,
      readBoxStart? bytes = some (size, pssh.body ++ trailing) ∧ size ≤ bytes.length ∧
      bytes = start ++ pssh.body ++ trailing ∧
      (∀ others, ofBox? (bytes.take (max size (start ++ pssh.body).length) ++ others) = some pssh) ∧
      ofBox? (bytes.take size) = if (start ++ pssh.body).length ≤ size then some pssh else none := by
  obtain ⟨hfits, size, start, trailing, hstart, hroom, hform, hbytes⟩ := parts_of_ofBox? hbox
  have hparts : start ++ pssh.body <+: bytes := ⟨trailing, hbytes.symm⟩
  have hheld (room : Nat) (others : Bytes) (hdeclared : size ≤ room) (hend : (start ++ pssh.body).length ≤ room)
      (hle : room ≤ bytes.length) : ofBox? (bytes.take room ++ others) = some pssh := by
    refine ofBox?_of_isPrefix hform hfits ((List.prefix_take_iff.mpr ⟨hparts, hend⟩).trans (List.prefix_append ..)) ?_
    rw [List.length_append, List.length_take_of_le hle]
    exact Nat.le_add_right_of_le hdeclared
  refine ⟨size, start, trailing, hstart, hroom, hbytes, fun others => ?_, ?_⟩
  · exact hheld _ others (Nat.le_max_left ..) (Nat.le_max_right ..) (Nat.max_le.mpr ⟨hroom, hparts.length_le⟩)
  · split
    · rename_i hend
      have hcut := hheld size [] le_rfl hend hroom
      rwa [List.append_nil] at hcut
    · rename_i hend
      cases hcut : ofBox? (bytes.take size) with
      | none => rfl
      | some other =>
        rw [← List.take_append_drop size bytes] at hbox hstart
        have hle := parts_le_length hbox hstart hcut
        have hlength := congrArg List.length hbytes
        rw [List.length_append] at hlength
        rw [List.length_drop] at hle
        omega

/-- A box with a size of 64 bits, with room left behind its parts and with another box after it. -/
theorem read_up_to_both_ends_of_padded_box :
    let header : Pssh := ⟨1, 0, ProtectionSystem.clearKey.uuid, [Uuid.zero], [7, 8]⟩
    let bytes : Bytes :=
      Bytes.ofNatBE 4 1 ++ boxType ++ Bytes.ofNatBE 8 63 ++ header.body ++ [0] ++ (wrap .widevine [1]).toBytes
    ofBox? bytes = some header ∧
    ∃ size start trailing,
      readBoxStart? bytes = some (size, header.body ++ trailing) ∧ size ≤ bytes.length ∧
      bytes = start ++ header.body ++ trailing ∧
      (∀ others, ofBox? (bytes.take (max size (start ++ header.body).length) ++ others) = some header) ∧
      ofBox? (bytes.take size) = if (start ++ header.body).length ≤ size then some header else none := by
  intro header bytes
  have hbox : ofBox? bytes = some header := by decide
  exact ⟨hbox, read_up_to_both_ends bytes header hbox⟩

/-- The declared size ends behind the system id. Data up to there is no box, and what comes after it says how much init data there is. -/
theorem box_read_behind_declared_end :
    let header : Pssh := wrap .widevine [7]
    let bytes : Bytes := Bytes.ofNatBE 4 28 ++ boxType ++ header.body
    readBoxStart? bytes = some (28, header.body) ∧ ofBox? bytes = some header ∧ parse true bytes = .ok header ∧
    ofBox? (bytes.take 28) = none ∧ ofBox? (bytes.take 28 ++ [0, 0, 0, 0]) = some (wrap .widevine []) := by
  intro header bytes
  have hbox : ofBox? bytes = some header := by decide
  exact ⟨by decide, hbox, parse_of_ofBox? hbox true, by decide, by decide⟩

end ContentProtection.Pssh
