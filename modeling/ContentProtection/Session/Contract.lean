import ContentProtection.Challenge
import ContentProtection.Duration
import ContentProtection.Error
import ContentProtection.Helper.Basic
import ContentProtection.Interaction
import ContentProtection.Key.State
import ContentProtection.Key.Status
import ContentProtection.Latch
import ContentProtection.License.Data
import ContentProtection.Sample

/-!
# The session contract

A session serves one protected stream: it is made from init data, hands out a key request, takes the license and then decrypts. `Request` lists all that any session may ask of its collaborators; `Contract` lists what every session can do.

A timeout of zero waits forever.
-/

namespace ContentProtection.Session

/-- A request to a license server. -/
structure KeyRequest where
  challenge : LicenseData
  /-- The address of the server; empty when it is not known. -/
  url : String
  kind : Challenge.Kind
  deriving DecidableEq, Repr

/-- What operations wait for. -/
inductive Signal
  | challengeReady
  | keyStatusReady
  | stateChanged
  deriving DecidableEq, Repr

/-- Native sessions are numbered in the order of their construction, from 1. -/
inductive Request
  | createSystem (keySystem : String)
  | construct (initData : Bytes) (customData : Option Bytes)
  | update (session : Nat) (response : Bytes)
  | queryStatus (session : Nat) (keyId : Bytes)
  | decrypt (session : Nat) (encryption : Sample.Encryption) (payload : Bytes)
  | close (session : Nat)
  /-- Asks a memory system for the transport form of a payload. -/
  | encode (memory : MemoryId) (payload : Bytes)
  /-- Asks a memory system to bring decrypted data back into a buffer. -/
  | decode (memory : MemoryId) (data buffer : Bytes)
  | terminateEarly (memory : MemoryId)
  /-- Tells the side channel about a device provisioning message. -/
  | individualize (body : Bytes)
  /-- Tells the side channel that the license should be renewed. -/
  | renew
  | hardwareError (keySystem : String)
  | fetchLicense (request : KeyRequest)
  /-- Waits until the latch is signalled or the timeout is over. -/
  | wait (signal : Signal) (timeout : Duration)
  /-- Waits until the native session is not in use by another operation. -/
  | waitForLock
  deriving DecidableEq

/-- The replies. Integers are status codes of failed calls; the native decrypt also gives the buffer as it leaves it, as does `decode` with its success. -/
def Reply : Request → Type
  | .createSystem _ => Bool
  | .construct _ _ => Except Int String
  | .update _ _ => Except Int Unit
  | .queryStatus _ _ => KeyStatus
  | .decrypt _ _ _ => Except Int Unit × Bytes
  | .encode _ _ => Option Bytes
  | .decode _ _ _ => Bool × Bytes
  | .fetchLicense _ => Except Error (Option LicenseData)
  | .close _ | .terminateEarly _ | .individualize _ | .renew | .hardwareError _ | .wait _ _ | .waitForLock => Unit

abbrev collaborators : Interface := ⟨Request, Reply⟩

abbrev Operation (σ α : Type) := Program collaborators σ α

def ask {σ : Type} (request : Request) : Operation σ (Reply request) := fun state => .ask state request .done

/-- What every session can do, whatever serves it. -/
class Contract (σ : Type) where
  keySystem : σ → String
  state : σ → KeyState
  outputProtection : σ → Bool
  setOutputProtection : σ → Bool → σ
  /-- The handle of an external security manager, which the session only keeps. -/
  securityManager : σ → Option Int
  setSecurityManager : σ → Option Int → σ
  /-- Makes the session from init data. Failures show in the state. -/
  generate : Bytes → Option Bytes → Operation σ Unit
  keyRequest : Duration → Operation σ (Option KeyRequest)
  /-- Takes the license, or none when the key is obtained in another way, and waits for the key status. -/
  process : Option LicenseData → Duration → Operation σ (Except Fault Unit)
  /-- Decrypts a payload; the second value is the payload afterwards, also after a fault. -/
  decrypt : Sample.Encryption → Bytes → Operation σ (Except Fault Unit × Bytes)
  /-- Whether the session is in a state, after waiting once for a change if it is not. -/
  waitForState : KeyState → Duration → Operation σ Bool
  /-- Ends the session's native part and goes back to the initial state. -/
  clear : Operation σ Unit
  /-- Gives up a handle of the session. -/
  release : Operation σ Unit

end ContentProtection.Session
