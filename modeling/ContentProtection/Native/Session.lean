import ContentProtection.OutputLink
import ContentProtection.Session.Contract

/-!
# Native sessions

A session that a content decryption module serves. The module reports challenges and key statuses by events, which may come at any time; operations wait for them at three independent latches.

At most one native session is open. Making one and decrypting hold the session lock; an event that comes meanwhile does not wait for it. The owner may hold several handles, and an event holds one while it is handled; when the last handle goes, the native session is closed.
-/

namespace ContentProtection.Native

/-- What a session is made with. Of this only the output link may change later. -/
structure Setting where
  helper : Helper
  outputLink : OutputLink := {}
  hasSideChannel : Bool := false

/-- A challenge that no key request has taken yet; the payload is empty when there is none. -/
structure PendingChallenge where
  payload : Bytes := []
  url : String := ""
  deriving DecidableEq, Repr

/-- The id of the last updated key and its status, once that was found out. -/
structure KeyMaterial where
  keyId : Bytes := []
  status : Option KeyStatus := none
  deriving DecidableEq, Repr

structure Session where
  setting : Setting
  /-- Whether the module has a system for the key system. -/
  hasSystem : Bool := false
  /-- The number of the open native session. -/
  opened : Option Nat := none
  /-- How many native sessions have been constructed. -/
  constructed : Nat := 0
  memory : Option MemoryId := none
  isLocked : Bool := false
  state : KeyState := .init
  challenge : PendingChallenge := {}
  key : KeyMaterial := {}
  securityManager : Option Int := none
  outputProtection : Bool := true
  /-- What the platform says about the output at the moment. -/
  outputLink : OutputLink := setting.outputLink
  challengeReady : Latch := {}
  keyStatusReady : Latch := {}
  stateChanged : Latch := {}
  handles : Nat := 1

abbrev Operation (α : Type) := ContentProtection.Session.Operation Session α

open ContentProtection.Session (Request Signal KeyRequest Fault ask)

namespace Session

/-- A new session with one handle. -/
def ofSetting (setting : Setting) : Session := { setting, memory := setting.helper.kind.memory }

def keySystem (session : Session) : String := session.setting.helper.keySystem

def latch (session : Session) : Signal → Latch
  | .challengeReady => session.challengeReady
  | .keyStatusReady => session.keyStatusReady
  | .stateChanged => session.stateChanged

def setLatch (session : Session) (latch : Latch) : Signal → Session
  | .challengeReady => { session with challengeReady := latch }
  | .keyStatusReady => { session with keyStatusReady := latch }
  | .stateChanged => { session with stateChanged := latch }

/-- Whether decrypting must be refused for the sake of output protection. -/
def violatesOutput (session : Session) : Bool :=
  session.outputProtection && session.outputLink.violates session.setting.helper.info.hdcp22Required

/-- Forgets the key and what was signalled about the exchange before. A challenge that was not taken stays, but nothing signals it any more. -/
def forgetExchange (session : Session) : Session :=
  { session with
    key := {}
    challengeReady := session.challengeReady.reset
    keyStatusReady := session.keyStatusReady.reset }

end Session

/-! ### Steps of operations -/

def setState (state : KeyState) : Operation Unit := modify fun session => { session with state }

def signal (which : Signal) : Operation Unit := modify fun session => session.setLatch (session.latch which).signal which

/-- Takes a signal if there is one. -/
def takeSignal (which : Signal) : Operation Bool :=
  modifyGet fun session =>
    let (taken, latch) := (session.latch which).take
    (taken, session.setLatch latch which)

/-- Takes a signal, waiting for it if it is not there yet. False when the timeout is over. -/
def await (which : Signal) (timeout : Duration) : Operation Bool := do
  if ← takeSignal which then return true
  ask (.wait which timeout)
  takeSignal which

/-- Waits until no operation holds the session lock. -/
def awaitUnlocked : Operation Unit := do
  if (← get).isLocked then ask .waitForLock

def lock : Operation Unit := do
  awaitUnlocked
  modify fun session => { session with isLocked := true }

def unlock : Operation Unit := modify fun session => { session with isLocked := false }

/-- The number of the open session, as seen by an operation that does not hold the lock. -/
def openSession : Operation (Option Nat) := do
  awaitUnlocked
  return (← get).opened

/-- Closes the open session, if there is one. -/
def closeOpened : Operation Unit := do
  let some number := (← get).opened | return ()
  modify fun session => { session with opened := none }
  ask (.close number)

end ContentProtection.Native
