import ContentProtection.Cipher.Keystream
import ContentProtection.ClearKey.KeySet
import ContentProtection.OutputLink
import ContentProtection.Session.Contract

/-!
# Clear key sessions

Sessions that decrypt on their own, with a key from a JSON license. Nothing is asked of a content decryption module, so an operation is a function of the session, but for waiting.
-/

namespace ContentProtection.ClearKey

open ContentProtection.Session (Fault KeyRequest)

structure Session where
  helper : Helper
  /-- What the platform says about the output at the moment. -/
  outputLink : OutputLink := {}
  state : KeyState := .init
  keyId : Option Uuid := none
  key : Option ContentKey := none
  securityManager : Option Int := none
  outputProtection : Bool := true
  stateChanged : Latch := {}

/-- The fault for anything the session cannot do with a license or a sample. -/
def unusable : Fault := .status KeyStatus.internalError.code

/-! ### Decrypting ranges -/

/-- Adds the keystream to the encrypted ranges of a payload, one range after the other. When a range does not fit, the ranges before it stay decrypted and the second value is false. -/
def decryptRanges : (keystream : Bytes) → List Sample.Subsample → (payload : Bytes) → Bytes × Bool
  | _, [], payload => (payload, true)
  | keystream, subsample :: rest, payload =>
    if payload.length < subsample.clearBytes + subsample.encryptedBytes then (payload, false)
    else
      let encrypted := (payload.drop subsample.clearBytes).take subsample.encryptedBytes
      let (remaining, fits) := decryptRanges (keystream.drop subsample.encryptedBytes) rest
        (payload.drop (subsample.clearBytes + subsample.encryptedBytes))
      (payload.take subsample.clearBytes ++ Keystream.apply keystream encrypted ++ remaining, fits)

/-- Decrypts a payload with the keystream that starts at a counter. -/
def decryptFrom (key : ContentKey) (counter : Nat) (subsamples : List Sample.Subsample) (payload : Bytes) :
    Except Fault Unit × Bytes :=
  let keystream := Keystream.bytes key.bytes counter payload.length
  if subsamples.isEmpty then (.ok (), Keystream.apply keystream payload)
  else match decryptRanges keystream subsamples payload with
    | (decrypted, true) => (.ok (), decrypted)
    | (decrypted, false) => (.error unusable, decrypted)

namespace Session

def ofHelper (helper : Helper) (outputLink : OutputLink) : Session := { helper, outputLink }

def violatesOutput (session : Session) : Bool :=
  session.outputProtection && session.outputLink.violates session.helper.info.hdcp22Required

/-- The first key id of the helper or, when it has none, of the init data. -/
def keyIdFor? (session : Session) (initData : Bytes) : Option Uuid :=
  session.helper.contents.keyIds.head?.or
    ((Pssh.parse true initData).toOption.bind fun pssh => pssh.keyIds.toOption.bind List.head?)

def generate (session : Session) (initData : Bytes) : Session :=
  let keyId := session.keyIdFor? initData
  { session with key := none, keyId, state := if keyId.isSome then .init else .error }

def keyRequest (session : Session) : Option KeyRequest × Session :=
  match session.keyId with
  | none => (none, { session with state := .error })
  | some keyId =>
    (some
      { challenge := ⟨requestFor keyId⟩
        url := session.helper.contents.licenseUrl.getD ""
        kind := .licenseRequest },
      { session with state := .pending })

/-- Takes the key from a license. A license without a usable key leaves the earlier key in place. -/
def process (session : Session) (license : Option LicenseData) : Except Fault Unit × Session :=
  let session := { session with stateChanged := session.stateChanged.signal }
  match license.bind fun license => (KeySet.parse? license.bytes).bind (·.select? session.keyId) with
  | some key => (.ok (), { session with key := some key, state := .ready })
  | none => (.error unusable, { session with state := .error })

/-- Whether a sample names another key than the session's. -/
def namesOtherKey (session : Session) (encryption : Sample.Encryption) : Bool :=
  match session.keyId with
  | some keyId => !encryption.keyId.isEmpty && encryption.keyId != keyId.bytes
  | none => false

def decrypt (session : Session) (encryption : Sample.Encryption) (payload : Bytes) : Except Fault Unit × Bytes :=
  if session.violatesOutput then (.error .hdcpCompliance, payload)
  else match session.key with
    | none => (.error .noSession, payload)
    | some key =>
      if encryption.scheme ≠ .cenc || session.namesOtherKey encryption then (.error unusable, payload)
      else match Keystream.firstCounter? encryption.iv with
        | none => (.error unusable, payload)
        | some counter => decryptFrom key counter encryption.subsamples payload

def clear (session : Session) : Session := { session with key := none, state := .init }

end Session

/-- Waits once for a state change, if the session is not in the state. -/
def waitForState (state : KeyState) (timeout : Duration) : ContentProtection.Session.Operation Session Bool := do
  if (← get).state = state then return true
  if !(← get).stateChanged.isSignalled then ContentProtection.Session.ask (.wait .stateChanged timeout)
  modify fun session => { session with stateChanged := session.stateChanged.reset }
  return (← get).state = state

instance : ContentProtection.Session.Contract Session where
  keySystem session := session.helper.keySystem
  state := Session.state
  outputProtection := Session.outputProtection
  setOutputProtection session enabled := { session with outputProtection := enabled }
  securityManager := Session.securityManager
  setSecurityManager session handle := { session with securityManager := handle }
  generate initData _ := modify (Session.generate · initData)
  keyRequest _ := modifyGet Session.keyRequest
  process license _ := modifyGet (Session.process · license)
  decrypt encryption payload := fun session => .done session (session.decrypt encryption payload)
  waitForState := waitForState
  clear := modify Session.clear
  release := pure ()

end ContentProtection.ClearKey
