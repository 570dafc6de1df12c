import ContentProtection.Native.Session

/-!
# Operations on native sessions

The key exchange and decryption. The state goes from `init` to `pending` when a key request is handed out and to `ready` or `error` when its license was processed.
-/

namespace ContentProtection.Native

open ContentProtection.Session (Request Signal KeyRequest Fault ask)

/-! ### Making a native session -/

/-- Has the module create a system, unless it did before. -/
def ensureSystem : Operation Bool := do
  if (← get).hasSystem then return true
  let created ← ask (.createSystem (← get).keySystem)
  modify fun session => { session with hasSystem := created }
  return created

/-- Numbers a session that the module has constructed. -/
def numberConstructed : Operation Nat :=
  modifyGet fun session => (session.constructed + 1, { session with constructed := session.constructed + 1 })

def construct (initData : Bytes) (customData : Option Bytes) : Operation Unit := do
  match ← ask (.construct initData customData) with
  | .error _ => setState .error
  | .ok id =>
    let number ← numberConstructed
    if id.isEmpty then
      ask (.close number)
      setState .emptySessionId
    else modify fun session => { session with opened := some number }

/-- Makes a native session in place of the open one. Nothing that was signalled about the earlier exchange counts for the new one. -/
def generate (initData : Bytes) (customData : Option Bytes) : Operation Unit := do
  lock
  if ← ensureSystem then
    closeOpened
    modify Session.forgetExchange
    construct initData customData
  else setState .error
  unlock

/-! ### The key exchange -/

/-- Takes the pending challenge. -/
def takeChallenge : Operation PendingChallenge :=
  modifyGet fun session => (session.challenge, { session with challenge := {} })

/-- Hands out the pending challenge, waiting for one. The state is `error` until there is one. -/
def keyRequest (timeout : Duration) : Operation (Option KeyRequest) := do
  setState .error
  if !(← await .challengeReady timeout) then return none
  let challenge ← takeChallenge
  if challenge.payload.isEmpty then return none
  setState .pending
  return some
    { challenge := ⟨Challenge.body challenge.payload⟩
      url := challenge.url
      kind := Challenge.kind challenge.payload }

/-- Feeds a license to the open session; without one it is lost. A refused update shows in the key status. -/
def feedLicense (license : LicenseData) : Operation Unit := do
  let some number ← openSession | return ()
  let _ ← ask (.update number license.bytes)

/-- The status of the last updated key. It is asked for now when the update came while that was not possible. -/
def resolveKeyStatus : Operation (Option KeyStatus) := do
  let opened ← openSession
  let key := (← get).key
  match key.status, opened with
  | none, some number =>
    if key.keyId.isEmpty then return none
    let status ← ask (.queryStatus number key.keyId)
    modify fun session => { session with key := { session.key with status := some status } }
    return some status
  | status, _ => return status

/-- What a key status means for the exchange. -/
def outcome : Option KeyStatus → Except Fault Unit
  | some .usable => .ok ()
  | some .outputRestricted => .error .outputProtection
  | some .outputRestrictedHdcp22 => .error .hdcpCompliance
  | some status => .error (.status status.code)
  | none => .error .timeout

/-- Processes a license, or none when the module obtains the key itself. -/
def process (license : Option LicenseData) (timeout : Duration) : Operation (Except Fault Unit) := do
  if let some license := license then feedLicense license
  let _ ← await .keyStatusReady timeout
  let status ← resolveKeyStatus
  let result := outcome status
  setState (if result.isOk then .ready else .error)
  if status = some .hardwareError then ask (.hardwareError (← get).keySystem)
  signal .stateChanged
  return result

/-! ### Decrypting -/

/-- Decrypts by way of a memory system. -/
def decryptThrough (memory : MemoryId) (number : Nat) (encryption : Sample.Encryption) (payload : Bytes) :
    Operation (Except Fault Unit × Bytes) := do
  match ← ask (.encode memory payload) with
  | none => return (.error .memorySystem, payload)
  | some encoded =>
    match ← ask (.decrypt number encryption encoded) with
    | (.error status, _) =>
      ask (.terminateEarly memory)
      return (.error (.status status), payload)
    | (.ok (), decrypted) =>
      match ← ask (.decode memory decrypted payload) with
      | (true, buffer) => return (.ok (), buffer)
      | (false, buffer) => return (.error .memorySystem, buffer)

def decryptOpened (number : Nat) (encryption : Sample.Encryption) (payload : Bytes) :
    Operation (Except Fault Unit × Bytes) := do
  match (← get).memory with
  | some memory => decryptThrough memory number encryption payload
  | none =>
    match ← ask (.decrypt number encryption payload) with
    | (.ok (), buffer) => return (.ok (), buffer)
    | (.error status, buffer) => return (.error (.status status), buffer)

/-- Decrypts a payload. Output protection is looked at before anything else. -/
def decrypt (encryption : Sample.Encryption) (payload : Bytes) : Operation (Except Fault Unit × Bytes) := do
  if (← get).violatesOutput then return (.error .hdcpCompliance, payload)
  lock
  let result ← match (← get).opened with
    | none => pure (.error .noSession, payload)
    | some number => decryptOpened number encryption payload
  unlock
  return result

/-! ### State and handles -/

def waitForState (state : KeyState) (timeout : Duration) : Operation Bool := do
  if (← get).state = state then return true
  let _ ← await .stateChanged timeout
  return (← get).state = state

/-- Closes the native session and forgets the key. -/
def clear : Operation Unit := do
  lock
  closeOpened
  modify fun session => { session with key := {}, state := .init }
  unlock

/-- Sets the memory system for decryption. -/
def setMemory (memory : Option MemoryId) : Operation Unit := do
  awaitUnlocked
  modify fun session => { session with memory }

def retain : Operation Unit := modify fun session => { session with handles := session.handles + 1 }

/-- Gives up one handle; the last one takes the native session with it. -/
def release : Operation Unit := do
  let handles := (← get).handles - 1
  modify fun session => { session with handles }
  if handles = 0 then closeOpened

instance : ContentProtection.Session.Contract Session where
  keySystem := Session.keySystem
  state := Session.state
  outputProtection := Session.outputProtection
  setOutputProtection session enabled := { session with outputProtection := enabled }
  securityManager := Session.securityManager
  setSecurityManager session handle := { session with securityManager := handle }
  generate := generate
  keyRequest := keyRequest
  process := process
  decrypt := decrypt
  waitForState := waitForState
  clear := clear
  release := release

end ContentProtection.Native
