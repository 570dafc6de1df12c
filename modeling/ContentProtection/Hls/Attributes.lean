import ContentProtection.Search
import ContentProtection.Text.Blank

/-!
# HLS attribute lists

Finding the value of a named attribute in the text of a tag. An occurrence of the name counts when it stands at the start or after a comma, a colon or a blank, and is followed by `=`. A quoted value runs to the next quote, any other to the next comma, without the blanks at its end.

The search looks for the name alone and knows nothing of where values begin and end, so a quoted value that itself holds an attribute can be found.
-/

namespace ContentProtection.Hls

/-- Whether a name may stand after this character, or at the start of the text. -/
def isBoundary : Option Char → Bool
  | none => true
  | some c => c == ',' || c == ':' || Blank.isBlank c

/-- The value that stands at the start of the text after `=`. -/
def readValue : List Char → List Char
  | '"' :: text => text.takeWhile (· ≠ '"')
  | text => Blank.trimRight (text.takeWhile (· ≠ ','))

/-- Looks for the attribute in `text`, which follows the character `previous`. Behind an occurrence of the name that does not count the search goes on; an empty name is only looked for at the start. -/
def findFrom (key : List Char) (previous : Option Char) (text : List Char) : Option (List Char) :=
  match hsplit : Search.splitAtFirst? key text with
  | none => none
  | some (skipped, rest) =>
    if isBoundary (skipped.getLast?.or previous) && rest.head? == some '=' then some (readValue rest.tail)
    else if hempty : key = [] then none
    else
      have : rest.length < text.length := by
        have := List.length_pos_iff.2 hempty
        rw [Search.eq_of_splitAtFirst? hsplit]
        simp only [List.length_append]
        omega
      findFrom key key.getLast? rest
termination_by text.length

def findAttribute? (attributes key : String) : Option String :=
  (findFrom key.toList none attributes.toList).map String.ofList

end ContentProtection.Hls
