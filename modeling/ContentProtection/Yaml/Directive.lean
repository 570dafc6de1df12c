import ContentProtection.Yaml.Property
import ContentProtection.Yaml.Scalar.Block

/-!
# Directives

Lines before a document that name the version of the language or give a tag handle its meaning.
-/

namespace ContentProtection.Yaml

inductive Directive
  | version (major minor : Nat)
  | tagHandle (handle : List Char) (meaning : Bytes)
  deriving DecidableEq, Repr

namespace Directive

/-- Reads a number of one to nine digits. -/
def readNumber (text : List Char) : Option (Nat × List Char) :=
  let digits := text.takeWhile Char.isDigit
  if digits.isEmpty || digits.length > 9 then none
  else some (digits.foldl (fun number digit => 10 * number + (digit.toNat - 48)) 0, text.dropWhile Char.isDigit)

def readVersion (text : List Char) : Option (Directive × List Char) := do
  match ← readNumber text with
  | (major, '.' :: rest) =>
    let (minor, rest) ← readNumber rest
    pure (version major minor, rest)
  | _ => none

def readMeaning (text : List Char) : Option (Directive × List Char) := do
  let (handle, rest) ← readHandle text
  if handle.getLast? == some '!' && rest.head?.any isBlank then
    let (meaning, rest) ← readTagText isLongTagCharacter (rest.dropWhile isBlank)
    if !meaning.isEmpty && endsWord rest then some (tagHandle handle meaning, rest) else none
  else none

/-- Reads a directive from behind its percent sign, with the line it stands on. -/
def read (text : List Char) : Option (Directive × List Char) := do
  let (name, rest) := readName text
  if !endsWord rest then none
  let rest := rest.dropWhile isBlank
  let (directive, rest) ←
    if name = "YAML".toList then readVersion rest
    else if name = "TAG".toList then readMeaning rest
    else none
  let rest ← Block.skipToLineEnd? rest
  pure (directive, Block.skipBreak rest)

end Directive

end ContentProtection.Yaml
