import ContentProtection.OutputLink
import ContentProtection.Termination

/-!
# Configurations

How sessions are made and how long they wait. Every field has a default.
-/

namespace ContentProtection

/-- What serves sessions. -/
inductive Backend
  /-- A content decryption module. -/
  | native
  /-- Clear keys, for every system. -/
  | clearKey
  /-- Nothing; payloads stay as they are. -/
  | unprotected
  deriving DecidableEq, Repr

namespace Backend

def all : List Backend := [native, clearKey, unprotected]

def name : Backend → String
  | native => "ocdm"
  | clearKey => "clear_key"
  | unprotected => "null"

def ofName? (name : List Char) : Option Backend := all.find? fun backend => backend.name.toList = name

end Backend

structure Configuration where
  /-- How long to wait for a challenge; zero waits forever. -/
  keyRequestTimeoutMs : UInt64 := 5000
  /-- How long to wait for the key status after a license; zero waits forever. -/
  licenseTimeoutMs : UInt64 := 5000
  outputProtection : Bool := true
  backend : Backend := .native
  /-- Whether clear keys are served without a module also when the backend is native. -/
  nativeClearKey : Bool := true
  platform : OutputLink := {}
  termination : Termination.Settings := {}
  deriving DecidableEq, Repr

namespace Configuration

def keyRequestTimeout (configuration : Configuration) : Duration :=
  Duration.ofMilliseconds configuration.keyRequestTimeoutMs.toNat

def licenseTimeout (configuration : Configuration) : Duration :=
  Duration.ofMilliseconds configuration.licenseTimeoutMs.toNat

end Configuration

end ContentProtection
