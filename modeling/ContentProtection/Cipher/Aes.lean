import ContentProtection.Bytes

/-!
# AES with 128-bit keys

The block cipher on lists of sixteen bytes, column by column: substitution, row shift, column mixing and the round key, ten rounds. Bytes are polynomials over the field of two elements modulo `x^8 + x^4 + x^3 + x + 1`.
-/

namespace ContentProtection.Aes

/-! ### The byte field -/

/-- The product with `x`. -/
def double (byte : UInt8) : UInt8 := (byte <<< 1) ^^^ (if 128 ≤ byte then 0x1b else 0)

/-- The product of two bytes; `count` bits of the second one are looked at, lowest first. -/
def multiplyBits : (count : Nat) → UInt8 → UInt8 → UInt8
  | 0, _, _ => 0
  | count + 1, a, b => (if b &&& 1 = 1 then a else 0) ^^^ multiplyBits count (double a) (b >>> 1)

def multiply (a b : UInt8) : UInt8 := multiplyBits 8 a b

/-- The multiplicative inverse, which is the power of 254; zero stays zero. -/
def inverse (byte : UInt8) : UInt8 :=
  let square (b : UInt8) := multiply b b
  let power3 := multiply (square byte) byte
  let power15 := multiply (square (square power3)) power3
  let power63 := multiply (square (square power15)) power3
  square (multiply (square power63) byte)

def rotateLeft (byte : UInt8) (count : UInt8) : UInt8 := (byte <<< count) ||| (byte >>> (8 - count))

def substituteByte (byte : UInt8) : UInt8 :=
  let i := inverse byte
  i ^^^ rotateLeft i 1 ^^^ rotateLeft i 2 ^^^ rotateLeft i 3 ^^^ rotateLeft i 4 ^^^ 0x63

/-- `substituteByte` of every byte. -/
def substitutionTable : Array UInt8 := Array.ofFn fun index : Fin 256 => substituteByte (UInt8.ofNat index.val)

def substitute (byte : UInt8) : UInt8 := substitutionTable.getD byte.toNat 0

/-! ### Rounds -/

def addBlocks (a b : Bytes) : Bytes := List.zipWith (· ^^^ ·) a b

/-- Row `r` moves `r` columns to the left. -/
def shiftRows (block : Bytes) : Bytes :=
  [0, 5, 10, 15, 4, 9, 14, 3, 8, 13, 2, 7, 12, 1, 6, 11].map fun index => block.getD index 0

def mixColumn (a b c d : UInt8) : Bytes :=
  let triple (byte : UInt8) := double byte ^^^ byte
  [double a ^^^ triple b ^^^ c ^^^ d, a ^^^ double b ^^^ triple c ^^^ d,
    a ^^^ b ^^^ double c ^^^ triple d, triple a ^^^ b ^^^ c ^^^ double d]

def mixColumns : Bytes → Bytes
  | a :: b :: c :: d :: rest => mixColumn a b c d ++ mixColumns rest
  | _ => []

/-- The round key after `key`, for a round with the given constant. -/
def nextRoundKey (constant : UInt8) (key : Bytes) : Bytes :=
  let rotated := [key.getD 13 0, key.getD 14 0, key.getD 15 0, key.getD 12 0].map substitute
  let word0 := addBlocks (key.take 4) (addBlocks rotated [constant, 0, 0, 0])
  let word1 := addBlocks ((key.drop 4).take 4) word0
  let word2 := addBlocks ((key.drop 8).take 4) word1
  let word3 := addBlocks (key.drop 12) word2
  word0 ++ word1 ++ word2 ++ word3

/-- The remaining rounds, of which the last mixes no columns. -/
def rounds : (count : Nat) → (constant : UInt8) → (key block : Bytes) → Bytes
  | 0, _, _, block => block
  | 1, constant, key, block => addBlocks (shiftRows (block.map substitute)) (nextRoundKey constant key)
  | count + 2, constant, key, block =>
    let roundKey := nextRoundKey constant key
    rounds (count + 1) (double constant) roundKey
      (addBlocks (mixColumns (shiftRows (block.map substitute))) roundKey)

/-- The encryption of a block. -/
def encryptBlock (key block : Bytes) : Bytes := rounds 10 1 key (addBlocks block key)

/-- The example that the cipher was published with. -/
example :
    encryptBlock
        [0x00, 0x01, 0x02, 0x03, 0x04, 0x05, 0x06, 0x07, 0x08, 0x09, 0x0a, 0x0b, 0x0c, 0x0d, 0x0e, 0x0f]
        [0x00, 0x11, 0x22, 0x33, 0x44, 0x55, 0x66, 0x77, 0x88, 0x99, 0xaa, 0xbb, 0xcc, 0xdd, 0xee, 0xff] =
      [0x69, 0xc4, 0xe0, 0xd8, 0x6a, 0x7b, 0x04, 0x30, 0xd8, 0xcd, 0xb7, 0x80, 0x70, 0xb4, 0xc5, 0x5a] := by
  decide +kernel

end ContentProtection.Aes
