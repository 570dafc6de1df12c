import ContentProtection.PlayReady.Object
import ContentProtection.Proofs.Bytes

/-!
# PlayReady objects read back

A record is read from where it stands, whatever follows it, so the header of an object is found by reading one record after another. An object of any other length than it states is refused before its records are read.
-/

namespace ContentProtection.PlayReady

/-! ### Records -/

/-- A record whose type and length two bytes can hold. -/
def Record.Fits (record : Record) : Prop := record.type < 65536 ∧ record.payload.length < 65536

instance (record : Record) : Decidable record.Fits := inferInstanceAs (Decidable (_ ∧ _))

theorem readRecord?_encode {record : Record} (hfits : record.Fits) (rest : Bytes) :
    readRecord? (record.encode ++ rest) = some (record, rest) := by
  obtain ⟨htype, hpayload⟩ := hfits
  have htypeRead : (Bytes.ofNatLE 2 record.type).toNatLE = record.type := by
    rw [Bytes.toNatLE_ofNatLE]
    exact Nat.mod_eq_of_lt htype
  have hlengthRead : (Bytes.ofNatLE 2 record.payload.length).toNatLE = record.payload.length := by
    rw [Bytes.toNatLE_ofNatLE]
    exact Nat.mod_eq_of_lt hpayload
  rw [readRecord?, Record.encode, List.append_assoc, List.append_assoc,
    Bytes.split?_append (Bytes.length_ofNatLE 2 record.type)]
  simp [Bytes.split?_append (Bytes.length_ofNatLE 2 record.payload.length), htypeRead, hlengthRead,
    Bytes.split?_append (rfl : record.payload.length = record.payload.length)]

theorem findHeader_header {payload : Bytes} (hpayload : payload.length < 65536) (count : Nat) (rest : Bytes) :
    findHeader (count + 1) (Record.encode ⟨headerType, payload⟩ ++ rest) = .ok payload := by
  have hread : readRecord? (Record.encode ⟨headerType, payload⟩ ++ rest) = some (⟨headerType, payload⟩, rest) :=
    readRecord?_encode ⟨show headerType < 65536 by decide, hpayload⟩ rest
  rw [findHeader, hread]
  exact if_pos rfl

/-- Records of other types are passed over, each by its own length. -/
theorem findHeader_append {before : List Record} (hfits : ∀ record ∈ before, record.Fits)
    (hothers : ∀ record ∈ before, record.type ≠ headerType) (count : Nat) (rest : Bytes) :
    findHeader (before.length + count) (before.flatMap Record.encode ++ rest) = findHeader count rest := by
  induction before with
  | nil => rw [List.length_nil, Nat.zero_add, List.flatMap_nil, List.nil_append]
  | cons record before ih =>
    rw [List.length_cons, Nat.add_right_comm, List.flatMap_cons, List.append_assoc, findHeader,
      readRecord?_encode (hfits record List.mem_cons_self)]
    dsimp only
    rw [if_neg (hothers record List.mem_cons_self)]
    exact ih (fun other hmem => hfits other (.tail _ hmem)) fun other hmem => hothers other (.tail _ hmem)

/-! ### Objects -/

theorem length_encode (records : List Record) :
    (encode records).length = (records.flatMap Record.encode).length + 6 := by
  rw [encode]
  simp only [List.length_append, Bytes.length_ofNatLE]
  omega

theorem length_le_length_encode (records : List Record) : 4 * records.length + 6 ≤ (encode records).length := by
  rw [length_encode, Nat.add_le_add_iff_right]
  induction records with
  | nil => exact Nat.zero_le _
  | cons record records ih =>
    rw [List.flatMap_cons, List.length_append, Record.encode]
    simp only [List.length_append, List.length_cons, Bytes.length_ofNatLE]
    omega

/-- An object states its length first. -/
theorem encode_eq_append (records : List Record) :
    encode records = Bytes.ofNatLE 4 (encode records).length ++
      (Bytes.ofNatLE 2 records.length ++ records.flatMap Record.encode) := by
  rw [length_encode, encode, List.append_assoc]

theorem headerPayload_of_other_length {stated : Nat} (hstated : stated < 2 ^ 32) {rest : Bytes}
    (hlong : 2 ≤ rest.length) (hother : rest.length + 4 ≠ stated) :
    headerPayload (Bytes.ofNatLE 4 stated ++ rest) = .error .lengthMismatch := by
  have hwidth := Bytes.length_ofNatLE 4 stated
  have hlength : (Bytes.ofNatLE 4 stated ++ rest).length = rest.length + 4 := by
    rw [List.length_append, hwidth, Nat.add_comm]
  have hread : (Bytes.ofNatLE 4 stated).toNatLE = stated := by
    rw [Bytes.toNatLE_ofNatLE]
    exact Nat.mod_eq_of_lt hstated
  rw [headerPayload, hlength, List.take_left' hwidth, hread, if_neg (by omega), if_pos hother.symm]

theorem headerPayload_encode {records : List Record} (hcount : records.length < 65536)
    (hsize : (encode records).length < 2 ^ 32) :
    headerPayload (encode records) = findHeader records.length (records.flatMap Record.encode) := by
  have hlong := length_le_length_encode records
  have hstated : (Bytes.ofNatLE 4 (encode records).length).toNatLE = (encode records).length := by
    rw [Bytes.toNatLE_ofNatLE]
    exact Nat.mod_eq_of_lt hsize
  have hcounted : (Bytes.ofNatLE 2 records.length).toNatLE = records.length := by
    rw [Bytes.toNatLE_ofNatLE]
    exact Nat.mod_eq_of_lt hcount
  have htake : (encode records).take 4 = Bytes.ofNatLE 4 (encode records).length := by
    conv_lhs => rw [encode_eq_append]
    exact List.take_left' (Bytes.length_ofNatLE 4 _)
  have hdrop : (encode records).drop 4 = Bytes.ofNatLE 2 records.length ++ records.flatMap Record.encode := by
    conv_lhs => rw [encode_eq_append]
    exact List.drop_left' (Bytes.length_ofNatLE 4 _)
  rw [headerPayload, if_neg (by omega), htake, hstated, if_neg (not_not_intro rfl), show 6 = 4 + 2 from rfl,
    ← List.drop_drop, hdrop, List.take_left' (Bytes.length_ofNatLE 2 _), List.drop_left' (Bytes.length_ofNatLE 2 _),
    hcounted]

/-! ### Objects with one record -/

/-- The object that holds nothing but a header. -/
def objectOf (payload : Bytes) : Bytes := encode [⟨headerType, payload⟩]

theorem encode_header (payload : Bytes) :
    Record.encode ⟨headerType, payload⟩ = 1 :: 0 :: (Bytes.ofNatLE 2 payload.length ++ payload) := by
  have htype : Bytes.ofNatLE 2 headerType = [1, 0] := by decide
  rw [Record.encode, htype, List.append_assoc]
  rfl

/-- The length, the number of records and the type of the one there is, the length of its payload, and the payload. -/
theorem objectOf_eq (payload : Bytes) :
    objectOf payload =
      Bytes.ofNatLE 4 (payload.length + 10) ++ 1 :: 0 :: 1 :: 0 :: (Bytes.ofNatLE 2 payload.length ++ payload) := by
  have hbody : [(⟨headerType, payload⟩ : Record)].flatMap Record.encode =
      1 :: 0 :: (Bytes.ofNatLE 2 payload.length ++ payload) := by
    rw [List.flatMap_singleton, encode_header]
  have hlength : (1 :: 0 :: (Bytes.ofNatLE 2 payload.length ++ payload)).length + 6 = payload.length + 10 := by
    simp only [List.length_cons, List.length_append, Bytes.length_ofNatLE]
    omega
  have hcount : Bytes.ofNatLE 2 [(⟨headerType, payload⟩ : Record)].length = [1, 0] := by
    rw [List.length_singleton]
    decide
  rw [objectOf, encode, hbody, hlength, List.append_assoc, hcount]
  rfl

theorem length_objectOf (payload : Bytes) : (objectOf payload).length = payload.length + 10 := by
  rw [objectOf_eq]
  simp only [List.length_append, List.length_cons, Bytes.length_ofNatLE]
  omega

theorem objectOf_eq_append (payload : Bytes) : ∃ start, objectOf payload = start ++ payload :=
  ⟨Bytes.ofNatLE 4 (payload.length + 10) ++ 1 :: 0 :: 1 :: 0 :: Bytes.ofNatLE 2 payload.length, by
    rw [objectOf_eq, List.append_assoc]
    rfl⟩

theorem headerPayload_objectOf {payload : Bytes} (hpayload : payload.length < 65536) :
    headerPayload (objectOf payload) = .ok payload := by
  have hsize : (objectOf payload).length < 2 ^ 32 := by
    rw [length_objectOf]
    omega
  have hcount : [(⟨headerType, payload⟩ : Record)].length < 65536 := by
    rw [List.length_singleton]
    decide
  rw [objectOf, headerPayload_encode hcount hsize, List.flatMap_singleton,
    ← List.append_nil (Record.encode ⟨headerType, payload⟩)]
  exact findHeader_header hpayload 0 []

end ContentProtection.PlayReady
