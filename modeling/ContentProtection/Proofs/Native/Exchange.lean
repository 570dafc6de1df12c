import ContentProtection.Proofs.Native.Custody

/-!
# What a license settles

What processing a license may promise when it returns. The status that decides it can come from an event during the update, from a query of its own or from an earlier exchange, and whatever runs meanwhile can take it away again; so the promise is about the marks at the end: the native session that is open then has answered for the key that was updated last.
-/

namespace ContentProtection.Native

open ContentProtection.Session (Fault ask)

/-- The licenses that an activity has fed to native sessions itself. -/
def updates (asked : List Asked) : List (Nat × Bytes) :=
  asked.filterMap fun each =>
    match each.request with
    | .update number license => some (number, license)
    | _ => none

/-- The sessions as they were when an activity reported an error of the hardware itself. -/
def hardwareErrors (asked : List Asked) : List Session :=
  asked.filterMap fun each =>
    match each.request with
    | .hardwareError _ => some each.session
    | _ => none

/-- What is made of a key status, if there is one. -/
inductive Decides : Option KeyStatus → Except Fault Unit → Prop
  | usable : Decides (some .usable) (.ok ())
  | outputRestricted : Decides (some .outputRestricted) (.error .outputProtection)
  | outputRestrictedHdcp22 : Decides (some .outputRestrictedHdcp22) (.error .hdcpCompliance)
  | unusable (status : KeyStatus) (husable : status ≠ .usable) (hrestricted : status ≠ .outputRestricted)
      (hrestrictedHdcp22 : status ≠ .outputRestrictedHdcp22) : Decides (some status) (.error (.status status.code))
  | unknown : Decides none (.error .timeout)

theorem decides_outcome (status : Option KeyStatus) : Decides status (outcome status) := by
  cases status with
  | none => exact .unknown
  | some status => cases status <;> constructor <;> decide

/-- The status that is found out for the last updated key. There is none without a native session to ask or without a key to ask for. -/
def Resolved (opened : Option Nat) (marks : List Mark) : Option KeyStatus → Prop
  | some status => Answered opened marks status
  | none => opened = none ∨ (lastKey? marks).getD [] = []

/-- What has been settled when the processing of a license returns. An error of the hardware is reported with the state at error already. -/
structure Settled (asked : List Asked) (result : Except Fault Unit) (session : Session) (history : History) : Prop where
  decided : ∃ status, Resolved session.opened history.marks status ∧ Decides status result ∧
    (status = some .hardwareError → ∃ reported, hardwareErrors asked = [reported] ∧ reported.state = .error) ∧
    (status ≠ some .hardwareError → hardwareErrors asked = [])
  state_eq : session.state = if result.isOk then .ready else .error
  signalled : session.stateChanged.isSignalled = true

/-- The license goes to the native session that was open at the beginning, if there was one. -/
structure Processed (license : Option LicenseData) (entry : Session) (asked : List Asked) (result : Except Fault Unit)
    (session : Session) (history : History) : Prop extends Settled asked result session history where
  updates_eq : updates asked =
    match license, entry.opened with
    | some license, some number => [(number, license.bytes)]
    | _, _ => []

/-- What is left of processing once the license was fed. -/
def settle (timeout : Duration) : Operation (Except Fault Unit) := do
  let _ ← await .keyStatusReady timeout
  let status ← resolveKeyStatus
  setState (if (outcome status).isOk then .ready else .error)
  if status = some .hardwareError then ask (.hardwareError (← get).keySystem)
  signal .stateChanged
  return outcome status

theorem process_none (timeout : Duration) : process none timeout = settle timeout := rfl

theorem process_some (license : LicenseData) (timeout : Duration) :
    process (some license) timeout = (do feedLicense license; settle timeout) := rfl

/-- The outline for every activity: custody is kept at every moment, and a license that was processed is reported as it should be. -/
def custody : Outline where
  Holds pinned session history := Custody pinned session.holding history.marks
  Rely pinned before after := Undisturbed pinned before.holding after.holding
  Report record session history :=
    match record with
    | ⟨.call (.process license _), entry, asked, result⟩ => Processed license entry asked result session history
    | _ => True
  rely_refl pinned session := .refl pinned session.holding
  rely_trans := .trans

end ContentProtection.Native
