import ContentProtection.ClearKey.Session
import ContentProtection.Configuration.Basic
import ContentProtection.Native.Operations
import ContentProtection.Session.Unprotected

/-!
# Contexts

What a player sets up once: the configuration and the collaborators of its sessions. A context makes the session that the configuration asks for, and takes one through the whole key exchange.
-/

namespace ContentProtection

structure Context where
  configuration : Configuration
  /-- Whether there is a content decryption module. -/
  hasModule : Bool := false
  hasSideChannel : Bool := false
  /-- What the platform says about the output when sessions are made, if not what is configured. -/
  outputLink? : Option OutputLink := none

namespace Context

open Session (Contract Operation ask)

/-- A session of any kind. -/
inductive AnySession
  | native (session : Native.Session)
  | clearKey (session : ClearKey.Session)
  | unprotected (session : Session.Unprotected)

def outputLink (context : Context) : OutputLink := context.outputLink?.getD context.configuration.platform

def nativeSession (context : Context) (helper : Helper) : Native.Session :=
  { Native.Session.ofSetting
      { helper, outputLink := context.outputLink, hasSideChannel := context.hasSideChannel } with
    outputProtection := context.configuration.outputProtection }

def clearKeySession (context : Context) (helper : Helper) : ClearKey.Session :=
  { ClearKey.Session.ofHelper helper context.outputLink with
    outputProtection := context.configuration.outputProtection }

/-- Whether sessions of a helper decrypt on their own. -/
def servesClearKey (context : Context) (helper : Helper) : Bool :=
  match context.configuration.backend with
  | .clearKey => true
  | .native => helper.kind.system = .clearKey && context.configuration.nativeClearKey
  | .unprotected => false

/-- A new session for a helper. -/
def createSession (context : Context) (helper : Helper) : Except Error AnySession :=
  if context.configuration.backend = .unprotected then .ok (.unprotected { keySystem := helper.keySystem })
  else if context.servesClearKey helper then .ok (.clearKey (context.clearKeySession helper))
  else if context.hasModule then .ok (.native (context.nativeSession helper))
  else .error (.noModule helper.keySystem)

variable {σ : Type} [Contract σ]

/-- Gives the session up because of an error. -/
def abandon (error : Error) : Operation σ (Except Error Unit) := do
  Contract.release
  return .error error

/-- Gets the license for a key request and has the session process it. -/
def exchange (context : Context) (request : Session.KeyRequest) : Operation σ (Except Error Unit) := do
  match ← ask (.fetchLicense request) with
  | .error error => abandon error
  | .ok license =>
    match ← Contract.process license context.configuration.licenseTimeout with
    | .error fault => abandon (.session fault)
    | .ok () => return .ok ()

/-- Takes a new session through the key exchange, after which it is ready. A session that could not be made ready is given up. -/
def acquireLicense (context : Context) (helper : Helper) : Operation σ (Except Error Unit) := do
  if Contract.state (← get) = .ready then return .ok ()
  Contract.generate helper.contents.initData none
  let session ← get
  let state := Contract.state session
  if state = .error ∨ state = .emptySessionId then
    return ← abandon (.other s!"{Contract.keySystem session} session creation failed ({state.name})")
  match ← Contract.keyRequest context.configuration.keyRequestTimeout with
  | none => abandon (.keyRequestTimeout context.configuration.keyRequestTimeout)
  | some request => context.exchange request

end Context

end ContentProtection
