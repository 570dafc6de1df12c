import ContentProtection.Configuration.Text
import ContentProtection.Error
import ContentProtection.Text.Utf8

/-!
# Configuration files

A file that cannot be read fails with the system's fault, as does one that is not in UTF-8.
-/

namespace ContentProtection.Configuration

def ofText (text : List Char) : Except Error Configuration :=
  match ofText? text with
  | some configuration => .ok configuration
  | none => .error .configuration

/-- The configuration in a file with the given contents. -/
def ofFile : Except SystemFault Bytes → Except Error Configuration
  | .error fault => .error (.io fault)
  | .ok bytes =>
    match Utf8.decode? bytes with
    | some text => ofText text
    | none => .error (.io .notUtf8)

end ContentProtection.Configuration
