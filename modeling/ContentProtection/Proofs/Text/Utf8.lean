import ContentProtection.Text.Utf8

/-!
# UTF-8 reads back

Every text has one form in UTF-8, and no other bytes are read as it.
-/

namespace ContentProtection.Utf8

theorem toByteArray_encode (text : List Char) : (⟨(encode text).toArray⟩ : ByteArray) = text.utf8Encode :=
  ByteArray.ext List.data_toByteArray.symm

theorem decode?_encode (text : List Char) : decode? (encode text) = some text := by
  rw [decode?, toByteArray_encode, List.utf8Decode?_utf8Encode]
  rfl

theorem decode?_eq_some_iff {bytes : Bytes} {text : List Char} : decode? bytes = some text ↔ bytes = encode text := by
  constructor
  · intro hdecode
    obtain ⟨characters, hcharacters, rfl⟩ := Option.map_eq_some_iff.mp hdecode
    have hsome : (ByteArray.utf8Decode? ⟨bytes.toArray⟩).isSome = true := by
      rw [hcharacters]
      rfl
    have hget : (ByteArray.utf8Decode? ⟨bytes.toArray⟩).get hsome = characters :=
      Option.get_of_eq_some hsome hcharacters
    have hencode := ByteArray.utf8Encode_get_utf8Decode? (h := hsome)
    rw [hget, ← toByteArray_encode] at hencode
    exact (congrArg (fun array : ByteArray => array.data.toList) hencode).symm
  · rintro rfl
    exact decode?_encode text

theorem encode_eq_nil_iff {text : List Char} : encode text = [] ↔ text = [] := by
  constructor
  · intro hempty
    have hdecode := decode?_encode text
    rw [hempty] at hdecode
    exact Option.some.inj (hdecode.symm.trans (decode?_encode []))
  · rintro rfl
    rfl

end ContentProtection.Utf8
