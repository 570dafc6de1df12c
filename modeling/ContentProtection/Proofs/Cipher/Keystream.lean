import ContentProtection.Cipher.Keystream
import ContentProtection.Proofs.Bytes

/-!
# The keystream byte by byte

Every block of the keystream has sixteen bytes, so byte `index` of the keystream is byte `index % 16` of the encryption of the counter block `index / 16` after the IV. `byteAt` says so without a length; the prefixes that decryption works with agree with it.
-/

namespace ContentProtection

namespace Aes

theorem length_addBlocks {a b : Bytes} (hlength : a.length = b.length) : (addBlocks a b).length = b.length := by
  rw [addBlocks, List.length_zipWith, hlength, Nat.min_self]

theorem length_nextRoundKey (constant : UInt8) {key : Bytes} (hkey : key.length = 16) :
    (nextRoundKey constant key).length = 16 := by
  simp [nextRoundKey, addBlocks, hkey]

theorem length_mixColumns_shiftRows (block : Bytes) : (mixColumns (shiftRows block)).length = 16 := by
  simp [shiftRows, mixColumns, mixColumn]

theorem length_rounds (count : Nat) (constant : UInt8) {key block : Bytes} (hkey : key.length = 16)
    (hblock : block.length = 16) : (rounds count constant key block).length = 16 := by
  induction count generalizing constant key block with
  | zero => exact hblock
  | succ count ih =>
    have hround := length_nextRoundKey constant hkey
    cases count with
    | zero =>
      rw [rounds, length_addBlocks]
      · exact hround
      · rw [hround, shiftRows, List.length_map]
        rfl
    | succ count =>
      apply ih (double constant) hround
      rw [length_addBlocks]
      · exact hround
      · rw [hround, length_mixColumns_shiftRows]

theorem length_encryptBlock {key block : Bytes} (hkey : key.length = 16) (hblock : block.length = 16) :
    (encryptBlock key block).length = 16 := by
  apply length_rounds 10 1 hkey
  rw [length_addBlocks (hblock.trans hkey.symm), hkey]

end Aes

namespace Keystream

/-- The counter block that an IV stands for. A shorter IV is its high end, with zero bytes below. -/
def counterOf (iv : Bytes) : Nat := Bytes.toNatBE (iv ++ List.replicate (16 - iv.length) 0)

/-- Byte `index` of the keystream of a key and an IV. -/
def byteAt (key iv : Bytes) (index : Nat) : UInt8 :=
  (Aes.encryptBlock key (Bytes.ofNatBE 16 ((counterOf iv + index / 16) % 2 ^ 128))).getD (index % 16) 0

theorem firstCounter?_eq_counterOf {iv : Bytes} (hiv : iv.length = 8 ∨ iv.length = 16) :
    firstCounter? iv = some (counterOf iv) := by
  rcases hiv with hiv | hiv <;> simp [firstCounter?, counterOf, hiv]

theorem length_block {key : Bytes} (hkey : key.length = 16) (counter : Nat) : (block key counter).length = 16 :=
  Aes.length_encryptBlock hkey (Bytes.length_ofNatBE 16 counter)

/-- Counters wrap at 128 bits, because a counter block has no room for more. -/
theorem block_mod (key : Bytes) (counter : Nat) : block key (counter % 2 ^ 128) = block key counter := by
  rw [block, block, show 2 ^ 128 = 256 ^ 16 by norm_num, Bytes.ofNatBE_mod]

theorem blocks_succ (key : Bytes) (counter count : Nat) :
    blocks key counter (count + 1) = blocks key counter count ++ block key (counter + count) := by
  rw [blocks, blocks, List.range_succ, List.flatMap_append, List.flatMap_singleton]

theorem length_blocks {key : Bytes} (hkey : key.length = 16) (counter count : Nat) :
    (blocks key counter count).length = 16 * count := by
  induction count with
  | zero => rfl
  | succ count ih =>
    rw [blocks_succ, List.length_append, ih, length_block hkey]
    rfl

theorem getElem?_blocks {key : Bytes} (hkey : key.length = 16) (counter : Nat) {count index : Nat}
    (hindex : index < 16 * count) :
    (blocks key counter count)[index]? = (block key (counter + index / 16))[index % 16]? := by
  induction count with
  | zero => omega
  | succ count ih =>
    have hlength := length_blocks hkey counter count
    rw [blocks_succ]
    by_cases hearlier : index < 16 * count
    · rw [List.getElem?_append_left (by omega)]
      exact ih hearlier
    · rw [List.getElem?_append_right (by omega), hlength]
      have hquotient : index / 16 = count := by omega
      have hremainder : index % 16 = index - 16 * count := by omega
      rw [hquotient, hremainder]

theorem getElem?_bytes {key : Bytes} (hkey : key.length = 16) (iv : Bytes) {length index : Nat}
    (hindex : index < length) :
    (bytes key (counterOf iv) length)[index]? = some (byteAt key iv index) := by
  have hblock := length_block hkey ((counterOf iv + index / 16) % 2 ^ 128)
  rw [bytes, List.getElem?_take_of_lt hindex, getElem?_blocks hkey _ (by omega), ← block_mod, byteAt]
  rw [block] at hblock ⊢
  rw [List.getD_eq_getElem?_getD, List.getElem?_eq_getElem (by omega), Option.getD_some]

end Keystream

end ContentProtection
