import ContentProtection.Bytes

/-!
# UTF-8

Text as bytes and back. Decoding is strict: overlong forms, surrogates and values above U+10FFFF are refused, so a byte string has at most one reading.
-/

namespace ContentProtection.Utf8

def encode (text : List Char) : Bytes := text.flatMap String.utf8EncodeChar

def decode? (bytes : Bytes) : Option (List Char) :=
  (ByteArray.utf8Decode? ⟨bytes.toArray⟩).map Array.toList

end ContentProtection.Utf8
