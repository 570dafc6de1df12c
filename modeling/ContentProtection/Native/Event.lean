import ContentProtection.Native.Operations

/-!
# Events of native sessions

What a content decryption module reports on its own. An event does nothing once the last handle of the session is gone.
-/

namespace ContentProtection.Native

open ContentProtection.Session (ask)

inductive Event
  | challenge (url : String) (payload : Bytes)
  /-- The status of one key has changed. -/
  | keyUpdate (keyId : Bytes)
  | error (message : String)
  /-- All keys of the current license have been updated. -/
  | keysUpdated
  deriving DecidableEq, Repr

/-- Device provisioning goes to the side channel; every other challenge waits for a key request in place of the one before. A renewal is announced as well, once it can be taken. -/
def onChallenge (url : String) (payload : Bytes) : Operation Unit := do
  let hasSideChannel := (← get).setting.hasSideChannel
  if Challenge.kind payload = .individualization then
    if hasSideChannel then ask (.individualize (Challenge.body payload))
  else
    modify fun session => { session with challenge := { payload, url } }
    signal .challengeReady
    if Challenge.kind payload = .licenseRenewal && hasSideChannel then ask .renew

/-- Asks for the key's status, unless the session lock is held or no session is open yet; then the status stays open. -/
def onKeyUpdate (keyId : Bytes) : Operation Unit := do
  let session ← get
  match if session.isLocked then none else session.opened with
  | none => modify fun session => { session with key := { keyId } }
  | some number =>
    let status ← ask (.queryStatus number keyId)
    modify fun session => { session with key := { keyId, status := some status } }

def handle : Event → Operation Unit
  | .challenge url payload => onChallenge url payload
  | .keyUpdate keyId => onKeyUpdate keyId
  | .error _ => pure ()
  | .keysUpdated => signal .keyStatusReady

/-- Handles an event under a handle of its own. -/
def deliver (event : Event) : Operation Unit := do
  if (← get).handles = 0 then return ()
  retain
  handle event
  release

end ContentProtection.Native
