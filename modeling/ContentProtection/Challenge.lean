import ContentProtection.Search
import ContentProtection.Text.Utf8

/-!
# Challenges

A content decryption module may put a message type in front of a challenge: a token, the marker `:Type:` and the body for the license server. The first marker counts. It needs a token of valid UTF-8 before it and a body after it; otherwise the whole challenge is the body.
-/

namespace ContentProtection.Challenge

/-- The bytes of `:Type:`. -/
def marker : Bytes := [58, 84, 121, 112, 101, 58]

inductive Kind
  | licenseRequest
  | licenseRenewal
  | licenseRelease
  | individualization
  | other (token : String)
  deriving DecidableEq, Repr

/-- A challenge without a token asks for a license. -/
def Kind.ofToken : Option String → Kind
  | none => .licenseRequest
  | some token =>
    if token = "0" then .licenseRequest
    else if token = "1" then .licenseRenewal
    else if token = "2" then .licenseRelease
    else if token = "3" ∨ token = "individualization-request" then .individualization
    else .other token

/-- The token of a challenge, if it has one, and its body. -/
def split (payload : Bytes) : Option String × Bytes :=
  match Search.splitAtFirst? marker payload with
  | some (token, body) =>
    if token.isEmpty || body.isEmpty then (none, payload)
    else match Utf8.decode? token with
      | some text => (some (String.ofList text), body)
      | none => (none, payload)
  | none => (none, payload)

def kind (payload : Bytes) : Kind := Kind.ofToken (split payload).1

def body (payload : Bytes) : Bytes := (split payload).2

end ContentProtection.Challenge
