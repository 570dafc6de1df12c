import ContentProtection.Proofs.Helper
import ContentProtection.Proofs.PlayReady.Header
import ContentProtection.Proofs.PlayReady.Object
import ContentProtection.Proofs.Pssh.Recognition

/-!
# PlayReady objects are recognised

A PlayReady object is neither a box nor Widevine data, whatever bytes its lengths give. It has no box type in the place of one. And it is no run of fields: in text that is written two bytes a character a field would be a key and a length of 0, so one field after another would stand there up to the first `>`, which is no key.
-/

namespace ContentProtection.Pssh

open Widevine.ProtectionData (FieldRun)

/-! ### Text is no run of fields -/

theorem not_fieldRun_encode {text : List Char} (htext : ∀ c ∈ text, c.toNat < 128) (more : List Char) :
    ¬FieldRun (Utf16.encode (text ++ '>' :: more)) := by
  intro hrun
  induction text with
  | nil =>
    rw [List.nil_append, Utf16.encode_cons_of_ascii (by decide)] at hrun
    exact absurd hrun.key (by decide)
  | cons c text ih =>
    rw [List.cons_append, Utf16.encode_cons_of_ascii (htext c List.mem_cons_self)] at hrun
    rcases hrun.second with ⟨-, hrest⟩ | ⟨hlarge, -⟩
    · exact ih (fun other hmem => htext other (.tail _ hmem)) hrest
    · exact absurd hlarge (by decide)

/-- The text is no run of fields from any byte before the mark on: its second bytes are no keys. -/
theorem not_fieldRun_drop_encode {text : List Char} (htext : ∀ c ∈ text, c.toNat < 128) (more : List Char) {count : Nat}
    (hcount : count ≤ 2 * text.length + 1) : ¬FieldRun ((Utf16.encode (text ++ '>' :: more)).drop count) := by
  induction text generalizing count with
  | nil =>
    match count with
    | 0 => exact not_fieldRun_encode htext more
    | 1 =>
      rw [List.nil_append, Utf16.encode_cons_of_ascii (by decide)]
      exact fun hrun => absurd hrun.key (by decide)
  | cons c text ih =>
    match count with
    | 0 => exact not_fieldRun_encode htext more
    | 1 =>
      rw [List.cons_append, Utf16.encode_cons_of_ascii (htext c List.mem_cons_self)]
      exact fun hrun => absurd hrun.key (by decide)
    | count + 2 =>
      rw [List.cons_append, Utf16.encode_cons_of_ascii (htext c List.mem_cons_self)]
      exact ih (fun other hmem => htext other (.tail _ hmem)) (by rw [List.length_cons] at hcount; omega)

/-! ### Objects -/

theorem ofBox?_objectOf (payload : Bytes) : ofBox? (PlayReady.objectOf payload) = none := by
  let type : Bytes := [1, 0, 1, 0]
  have htype : Bytes.split? 4 (1 :: 0 :: 1 :: 0 :: (Bytes.ofNatLE 2 payload.length ++ payload)) =
      some (type, Bytes.ofNatLE 2 payload.length ++ payload) :=
    Bytes.split?_append (show type.length = 4 by rfl) _
  have hother : type ≠ boxType := by decide
  rw [ofBox?, readBoxStart?, PlayReady.objectOf_eq, Bytes.split?_append (Bytes.length_ofNatLE 4 _)]
  simp [htype, hother]

/-- The first byte of the total length would be a key, and the second one the length of a value that ends before the mark. -/
theorem not_fieldRun_objectOf {text : List Char} (htext : ∀ c ∈ text, c.toNat < 128) (hlong : 60 ≤ text.length)
    {more : List Char} (hsize : (Utf16.encode (text ++ '>' :: more)).length < 65536) :
    ¬FieldRun (PlayReady.objectOf (Utf16.encode (text ++ '>' :: more))) := by
  have hrest (count : Nat) (hcount : count < 120) : ¬FieldRun ((Utf16.encode (text ++ '>' :: more)).drop count) :=
    not_fieldRun_drop_encode htext more (by omega)
  generalize Utf16.encode (text ++ '>' :: more) = payload at hsize hrest ⊢
  obtain ⟨total, htotal⟩ : ∃ total, total = payload.length + 10 := ⟨_, rfl⟩
  have hobject : PlayReady.objectOf payload =
      UInt8.ofNat total :: UInt8.ofNat (total / 256) :: UInt8.ofNat (total / 256 / 256) ::
        UInt8.ofNat (total / 256 / 256 / 256) :: 1 :: 0 :: 1 :: 0 ::
          UInt8.ofNat payload.length :: UInt8.ofNat (payload.length / 256) :: payload := by
    rw [PlayReady.objectOf_eq, htotal]
    rfl
  have hbyte (value : Nat) : (UInt8.ofNat value).toNat = value % 256 := UInt8.toNat_ofNat'
  rw [hobject]
  intro hrun
  have hkey := hrun.key
  rw [hbyte] at hkey
  rcases hrun.second with ⟨hsmall, hnext⟩ | ⟨-, hhead⟩
  · rw [UInt8.lt_iff_toNat_lt, hbyte] at hsmall
    rw [hbyte] at hnext
    have hsmall : total / 256 % 256 < 128 := hsmall
    obtain ⟨count, hcount⟩ : ∃ count, count = total / 256 % 256 := ⟨_, rfl⟩
    rw [← hcount] at hsmall hnext
    match count with
    -- The next key would be a byte of one of the two lengths, and these differ by ten.
    | 0 | 1 | 6 | 7 =>
      have hother := hnext.key
      rw [hbyte] at hother
      omega
    | 2 | 3 | 4 | 5 => exact absurd hnext.key (by decide)
    | count + 8 => exact hrest count (by omega) hnext
  · have hzero : total / 256 / 256 = 0 := by omega
    rw [hzero] at hhead
    exact hhead rfl

theorem occurs_headerEndTag (before : List Char) :
    Search.occurs headerEndTag (PlayReady.objectOf (Utf16.encode (before ++ "</WRMHEADER>".toList))) = true := by
  obtain ⟨start, hobject⟩ := PlayReady.objectOf_eq_append (Utf16.encode (before ++ "</WRMHEADER>".toList))
  refine Search.occurs_iff.mpr ⟨start ++ Utf16.encode before, [], ?_⟩
  rw [hobject, Utf16.encode_append, List.append_nil, ← List.append_assoc]
  rfl

/-- An object with a header is recognised as PlayReady's, and its key ids and license server are those of the header. -/
theorem playReady_object_read_as_written (short : Bool) {version : List Char} (hversion : version ∈ PlayReady.versions)
    {keyIds : List Uuid} (hsome : keyIds ≠ []) {licenseUrl? : Option (List Char)}
    (hurl : ∀ url ∈ licenseUrl?, url ≠ [] ∧ ∀ c ∈ url, PlayReady.isUrlCharacter c = true)
    (hsize : (Utf16.encode (PlayReady.writeHeader short version keyIds licenseUrl?)).length < 65536) :
    let object := PlayReady.objectOf (Utf16.encode (PlayReady.writeHeader short version keyIds licenseUrl?))
    ofBox? object = none ∧ Widevine.ProtectionData.isCanonical object = false ∧
      Helper.ReadsAs .playReady object (wrap .playReady object)
        { initData := object, keyIds, licenseUrl := licenseUrl?.map String.ofList } := by
  intro object
  have hbox : ofBox? object = none := ofBox?_objectOf _
  have hother : Widevine.ProtectionData.isCanonical object = false := by
    obtain ⟨text, more, htext, hascii, hlong⟩ := PlayReady.writeHeader_eq_append short hversion hsome licenseUrl?
    rw [Bool.eq_false_iff]
    intro hcanonical
    refine not_fieldRun_objectOf hascii hlong (htext ▸ hsize) ?_
    rw [← htext]
    exact .of_isCanonical hcanonical
  have htag : Search.occurs headerEndTag object = true := by
    obtain ⟨before, htext⟩ := PlayReady.writeHeader_endTag short version keyIds licenseUrl?
    show Search.occurs headerEndTag (PlayReady.objectOf _) = true
    rw [htext]
    exact occurs_headerEndTag before
  have hbytes : object ≠ [] := by
    have hlength : object.length = _ + 10 := PlayReady.length_objectOf _
    exact List.ne_nil_of_length_pos (by omega)
  have hheader : PlayReady.Header.ofObject object = .ok ⟨keyIds, licenseUrl?.map String.ofList⟩ := by
    rw [PlayReady.Header.ofObject, PlayReady.headerPayload_objectOf hsize]
    show PlayReady.Header.ofPayload _ = _
    rw [PlayReady.Header.ofPayload, Utf16.decode?_encode]
    exact PlayReady.ofText_writeHeader short hversion hsome hurl
  refine ⟨hbox, hother, Helper.readsAs_playReady (fun strict => ?_) hheader⟩
  have hrecognised : recognise? object = some .playReady := by
    rw [recognise?, hother, if_neg Bool.false_ne_true, if_pos htag]
  rw [parse_of_no_box hbytes hbox, hrecognised]

/-- The length of an object can start with the key of a field. -/
theorem playReady_object_read_behind_field_key :
    let keyIds := ProtectionSystem.all.map ProtectionSystem.uuid
    let url := "https://pr.example.com/rights".toList
    let object := PlayReady.objectOf (Utf16.encode (PlayReady.writeHeader true "4.1.0.0".toList keyIds (some url)))
    (Utf16.encode (PlayReady.writeHeader true "4.1.0.0".toList keyIds (some url))).length < 65536 ∧
      object.take 2 = [0x0a, 2] ∧ ofBox? object = none ∧ Widevine.ProtectionData.isCanonical object = false ∧
      Helper.ReadsAs .playReady object (wrap .playReady object)
        { initData := object, keyIds, licenseUrl := some "https://pr.example.com/rights" } := by
  intro keyIds url object
  have hurl : ∀ given ∈ some url, given ≠ [] ∧ ∀ c ∈ given, PlayReady.isUrlCharacter c = true := by
    rintro _ ⟨⟩
    exact ⟨by decide, List.all_eq_true.mp (by decide)⟩
  have hsize : (Utf16.encode (PlayReady.writeHeader true "4.1.0.0".toList keyIds (some url))).length < 65536 := by
    decide +kernel
  exact ⟨hsize, by decide +kernel,
    playReady_object_read_as_written true (by decide) (by decide) hurl hsize⟩

end ContentProtection.Pssh
