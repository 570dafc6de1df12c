import ContentProtection.Proofs.PlayReady.Header
import ContentProtection.Proofs.PlayReady.Object

/-!
# The header among the records of an object

An object with any records is read as the header that stands first in it. The records before it are passed over, whatever they hold, and those behind it are never reached. Without a header there is nothing to read, and an object that has lost its end or has more behind it does not have the length that it states.
-/

namespace ContentProtection.PlayReady

variable {records before after : List Record} {header : Record}

theorem ofObject_of_header (hfits : ∀ record ∈ records, record.Fits) (hcount : records.length < 65536)
    (hsize : (encode records).length < 2 ^ 32) (hrecords : records = before ++ header :: after)
    (hbefore : ∀ record ∈ before, record.type ≠ headerType) (hheader : header.type = headerType) :
    Header.ofObject (encode records) = Header.ofPayload header.payload := by
  have hwhole : header = ⟨headerType, header.payload⟩ := by rw [← hheader]
  have hpayload : header.payload.length < 65536 :=
    (hfits header (hrecords ▸ List.mem_append_right _ List.mem_cons_self)).2
  have hpassed : ∀ record ∈ before, record.Fits := fun record hmem =>
    hfits record (hrecords ▸ List.mem_append_left _ hmem)
  have hfound : headerPayload (encode records) = .ok header.payload := by
    rw [headerPayload_encode hcount hsize, hrecords, List.length_append, List.flatMap_append,
      findHeader_append hpassed hbefore, List.flatMap_cons, hwhole]
    exact findHeader_header hpayload after.length _
  rw [Header.ofObject, hfound]
  rfl

theorem ofObject_of_no_header (hfits : ∀ record ∈ records, record.Fits) (hcount : records.length < 65536)
    (hsize : (encode records).length < 2 ^ 32) (hnone : ∀ record ∈ records, record.type ≠ headerType) :
    Header.ofObject (encode records) = .error .noHeader := by
  have hpassed := findHeader_append hfits hnone 0 []
  rw [Nat.add_zero, List.append_nil] at hpassed
  rw [Header.ofObject, headerPayload_encode hcount hsize, hpassed]
  rfl

/-- An object that has lost its last byte, which is one of the number of records when there are none. -/
theorem ofObject_dropLast (hsize : (encode records).length < 2 ^ 32) :
    Header.ofObject (encode records).dropLast =
      .error (if records.isEmpty then .tooShort else .lengthMismatch) := by
  have hlong := length_le_length_encode records
  cases records with
  | nil => rfl
  | cons record records =>
    let rest := Bytes.ofNatLE 2 (record :: records).length ++ (record :: records).flatMap Record.encode
    have hobject : encode (record :: records) = Bytes.ofNatLE 4 (encode (record :: records)).length ++ rest :=
      encode_eq_append _
    have hlength := congrArg List.length hobject
    rw [List.length_append, Bytes.length_ofNatLE] at hlength
    rw [List.length_cons] at hlong
    have hrest : rest ≠ [] := List.ne_nil_of_length_pos (by omega)
    have hdropped : (encode (record :: records)).dropLast =
        Bytes.ofNatLE 4 (encode (record :: records)).length ++ rest.dropLast := by
      conv_lhs => rw [hobject]
      exact List.dropLast_append_of_ne_nil hrest
    have hshorter : rest.dropLast.length = rest.length - 1 := List.length_dropLast
    rw [Header.ofObject, hdropped, headerPayload_of_other_length hsize (by omega) (by omega)]
    rfl

theorem ofObject_append (hsize : (encode records).length < 2 ^ 32) {more : Bytes} (hmore : more ≠ []) :
    Header.ofObject (encode records ++ more) = .error .lengthMismatch := by
  have hmore := List.length_pos_iff.mpr hmore
  let rest := Bytes.ofNatLE 2 records.length ++ records.flatMap Record.encode
  have hobject : encode records = Bytes.ofNatLE 4 (encode records).length ++ rest := encode_eq_append records
  have hlength := congrArg List.length hobject
  rw [List.length_append, Bytes.length_ofNatLE] at hlength
  have hlong := length_le_length_encode records
  have happended : encode records ++ more = Bytes.ofNatLE 4 (encode records).length ++ (rest ++ more) := by
    conv_lhs => rw [hobject]
    exact List.append_assoc _ _ _
  have hlonger : (rest ++ more).length = rest.length + more.length := List.length_append
  rw [Header.ofObject, happended, headerPayload_of_other_length hsize (by omega) (by omega)]
  rfl

/-- A byte behind the text, which is half a unit, is not looked at. -/
theorem ofPayload_of_text {payload odd : Bytes} {text : List Char} (hodd : odd.length ≤ 1)
    (hpayload : payload = Utf16.encode text ++ odd) : Header.ofPayload payload = Header.ofText text := by
  have hread : Utf16.decode? payload = some text := Utf16.decode?_eq_some_iff.mpr ⟨odd, hodd, hpayload⟩
  rw [Header.ofPayload, hread]

theorem ofPayload_of_no_text {payload : Bytes}
    (hnone : ∀ text odd, odd.length ≤ 1 → payload ≠ Utf16.encode text ++ odd) :
    Header.ofPayload payload = .error .notText := by
  have hread : Utf16.decode? payload = none := by
    refine Option.eq_none_iff_forall_not_mem.mpr fun text htext => ?_
    obtain ⟨odd, hodd, hpayload⟩ := Utf16.decode?_eq_some_iff.mp htext
    exact hnone text odd hodd hpayload
  rw [Header.ofPayload, hread]

/-- An object is read as the text of its first header, with or without a byte behind the text, whatever else it holds. It cannot be read when it has no header, when the header is no text, and when it is cut or goes on. -/
theorem header_of_first_record (hcount : records.length ≤ 65535) (hfits : ∀ record ∈ records, record.Fits)
    (hsize : (encode records).length < 2 ^ 32) :
    (∀ before header after, records = before ++ header :: after → (∀ record ∈ before, record.type ≠ headerType) →
        header.type = headerType →
        (∀ text odd, odd.length ≤ 1 → header.payload = Utf16.encode text ++ odd →
            Header.ofObject (encode records) = Header.ofText text) ∧
          ((∀ text odd, odd.length ≤ 1 → header.payload ≠ Utf16.encode text ++ odd) →
            Header.ofObject (encode records) = .error .notText)) ∧
      ((∀ record ∈ records, record.type ≠ headerType) → Header.ofObject (encode records) = .error .noHeader) ∧
      Header.ofObject (encode records).dropLast =
        .error (if records.isEmpty then .tooShort else .lengthMismatch) ∧
      ∀ more ≠ [], Header.ofObject (encode records ++ more) = .error .lengthMismatch := by
  have hcount : records.length < 65536 := Nat.lt_succ_of_le hcount
  refine ⟨fun before header after hrecords hbefore hheader => ?_, ofObject_of_no_header hfits hcount hsize,
    ofObject_dropLast hsize, fun more hmore => ofObject_append hsize hmore⟩
  rw [ofObject_of_header hfits hcount hsize hrecords hbefore hheader]
  exact ⟨fun text odd => ofPayload_of_text, ofPayload_of_no_text⟩

/-- A store in front may hold an object itself, and a header behind the first one no text at all. -/
theorem header_of_first_record_behind_store :
    let text := writeHeader true "4.1.0.0".toList [Uuid.zero] none
    let records : List Record :=
      [⟨2, encode [⟨headerType, []⟩]⟩, ⟨headerType, Utf16.encode text ++ [0]⟩, ⟨headerType, [0, 0xD8]⟩]
    Header.ofObject (encode records) = .ok ⟨[Uuid.zero], none⟩ ∧
      Header.ofObject (encode records).dropLast = .error .lengthMismatch ∧
      Header.ofObject (encode records ++ encode records) = .error .lengthMismatch := by
  intro text records
  have hfits : ∀ record ∈ records, record.Fits := by decide +kernel
  obtain ⟨hheaders, -, hcut, hmore⟩ := header_of_first_record (by decide) hfits (by decide +kernel)
  have hfirst : records =
      [⟨2, encode [⟨headerType, []⟩]⟩] ++ ⟨headerType, Utf16.encode text ++ [0]⟩ :: records.drop 2 := rfl
  refine ⟨?_, hcut, hmore _ (by decide)⟩
  rw [(hheaders _ _ _ hfirst (by decide) rfl).1 text [0] (Nat.le_refl 1) rfl]
  exact ofText_writeHeader true (by decide) (List.cons_ne_nil _ _) nofun

end ContentProtection.PlayReady
