/-!
# Key exchange states
-/

namespace ContentProtection

/-- Where a session stands in its key exchange: from `init` to `pending` once a key request is out, then to `ready` or `error`. Only clearing the session brings it back to `init`. -/
inductive KeyState
  | init
  | pending
  | ready
  | error
  | closed
  /-- The native session came back without an id. -/
  | emptySessionId
  deriving DecidableEq, Repr

namespace KeyState

def all : List KeyState := [init, pending, ready, error, closed, emptySessionId]

def name : KeyState → String
  | init => "KEY_INIT"
  | pending => "KEY_PENDING"
  | ready => "KEY_READY"
  | error => "KEY_ERROR"
  | closed => "KEY_CLOSED"
  | emptySessionId => "KEY_ERROR_EMPTY_SESSION_ID"

end KeyState

end ContentProtection
