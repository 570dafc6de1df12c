import ContentProtection.Cipher.Aes

/-!
# Counter mode

The keystream is the encryption of a counter that starts at the IV and goes up by one for each block, as a 128-bit integer that wraps. Encrypting and decrypting both add the keystream to the data.
-/

namespace ContentProtection.Keystream

/-- The first counter: an IV of eight bytes is the high half of it. Other lengths than eight and sixteen are refused. -/
def firstCounter? (iv : Bytes) : Option Nat :=
  if iv.length = 8 then some (Bytes.toNatBE (iv ++ List.replicate 8 0))
  else if iv.length = 16 then some (Bytes.toNatBE iv)
  else none

/-- The keystream block for a counter. -/
def block (key : Bytes) (counter : Nat) : Bytes := Aes.encryptBlock key (Bytes.ofNatBE 16 counter)

def blocks (key : Bytes) (counter count : Nat) : Bytes :=
  (List.range count).flatMap fun index => block key (counter + index)

/-- The first `length` bytes of the keystream. -/
def bytes (key : Bytes) (counter length : Nat) : Bytes := (blocks key counter ((length + 15) / 16)).take length

/-- The sum of data and keystream. -/
def apply (keystream data : Bytes) : Bytes := List.zipWith (· ^^^ ·) data keystream

end ContentProtection.Keystream
