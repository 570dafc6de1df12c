import ContentProtection.Bytes

/-!
# Encrypted samples

How a sample of common encryption is encrypted. Its subsamples split it into clear and encrypted ranges; a sample without subsamples is encrypted as a whole.
-/

namespace ContentProtection.Sample

inductive Scheme
  /-- AES in counter mode. -/
  | cenc
  /-- AES in block chaining mode, with a pattern. -/
  | cbcs
  deriving DecidableEq, Repr

/-- How many blocks are encrypted and how many left out, in turn. -/
structure Pattern where
  cryptBlocks : Nat
  skipBlocks : Nat
  deriving DecidableEq, Repr

structure Subsample where
  clearBytes : Nat
  encryptedBytes : Nat
  deriving DecidableEq, Repr

structure Encryption where
  iv : Bytes := []
  /-- Empty when the sample does not name its key. -/
  keyId : Bytes := []
  scheme : Scheme := .cenc
  pattern : Option Pattern := none
  subsamples : List Subsample := []
  deriving DecidableEq, Repr

end ContentProtection.Sample
