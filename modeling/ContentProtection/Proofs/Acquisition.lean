import ContentProtection.Proofs.ClearKey.Exchange
import ContentProtection.Proofs.Native.Attendance

/-!
# Acquiring a license

What a player can rely on when a context takes a new session through the key exchange: a session that is returned is ready, a license is fetched for the key request that was handed out and nothing else is fed to the module, and a session that could not be made ready is given up with all its native sessions closed. For a native session this is so whatever events come and whenever they come.
-/

namespace ContentProtection

open Native (Does FedOnly Idles Moment Performs Rests Script Step Unclosed)
open Session (Contract KeyRequest)

/-! ### The exchange as a script -/

namespace Context

/-- Gives the session up because of an error, as a script. -/
def abandoning (error : Error) : Script (Except Error Unit) := .call .release fun _ => .done (.error error)

/-- Has the session process a license and gives it up on a fault. -/
def processing (license : Option LicenseData) (timeout : Duration) : Script (Except Error Unit) :=
  .call (.process license timeout) fun
    | .error fault => abandoning (.session fault)
    | .ok () => .done (.ok ())

end Context

/-! ### What is true of it -/

/-- A key request that was handed out in a step. -/
def Native.Step.requested? : Step → Option KeyRequest
  | .call (.keyRequest _) request => request
  | _ => none

/-- A key request that a license was asked for in a step. -/
def Native.Step.fetched? : Step → Option KeyRequest
  | .fetch _ request _ => some request
  | _ => none

/-- A license that was got in a step. -/
def Native.Step.license? : Step → Option LicenseData
  | .fetch _ _ (some (.ok license)) => license
  | _ => none

/-- What is true of some steps of the key exchange, the moment after them and the result, once there is one. When they begin, some key requests may be due, and a license may have been got before. -/
structure Acquired (due : List KeyRequest) (got : Option LicenseData) (steps : List Step) (after : Moment)
    (value : Option (Except Error Unit)) : Prop where
  /-- There is no more than one key request. -/
  requested_once : (due ++ steps.filterMap Step.requested?).length ≤ 1
  /-- A license is asked for it and for nothing else. -/
  fetched_prefix : steps.filterMap Step.fetched? <+: due ++ steps.filterMap Step.requested?
  fetched_of_returned : value ≠ none → steps.filterMap Step.fetched? = due ++ steps.filterMap Step.requested?
  /-- That is while the state is `pending`. -/
  pending : ∀ session request reply, .fetch session request reply ∈ steps → session.state = .pending
  /-- Nothing but the license is fed to the module, and not before it was got. -/
  fed : FedOnly (got.or (steps.findSome? Step.license?)) after.history
  /-- A license that could not be got is the error that is returned. -/
  refused : ∀ session request error, .fetch session request (some (.error error)) ∈ steps →
    FedOnly none after.history ∧ ∀ result, value = some result → result = .error error
  /-- A session that is returned is ready, with one native session open. -/
  ready : value = some (.ok ()) → after.session.state = .ready ∧ ∃! number, Unclosed after.history number
  /-- With an error, all native sessions that were constructed have been closed, each of them once. -/
  closed : ∀ error, value = some (.error error) → ∀ number, 0 < number →
    number ≤ after.history.marks.count .constructed → after.history.marks.count (.closed number) = 1

namespace Acquired

variable {due : List KeyRequest} {got : Option LicenseData} {steps : List Step} {after : Moment}
  {value : Option (Except Error Unit)}

theorem failed {error : Error} (hrests : Rests got 0 after) : Acquired [] got [] after (some (.error error)) where
  requested_once := Nat.zero_le 1
  fetched_prefix := List.nil_prefix
  fetched_of_returned _ := rfl
  pending _ _ _ hmem := absurd hmem List.not_mem_nil
  fed := by simpa using hrests.fed
  refused _ _ _ hmem := absurd hmem List.not_mem_nil
  ready := nofun
  closed _ _ _ hpos hle := hrests.closed_once hpos hle

/-- A call, which may hand out a key request that is due then. -/
theorem call {made : Native.Call} {result : made.Result} (request : List KeyRequest)
    (hrequest : (Step.call made result).requested?.toList = request)
    (hacquired : Acquired request got steps after value) :
    Acquired [] got (.call made result :: steps) after value := by
  have hrequested : ([] ++ (Step.call made result :: steps).filterMap Step.requested?) =
      request ++ steps.filterMap Step.requested? := by
    rw [List.nil_append, List.filterMap_cons, ← hrequest]
    cases (Step.call made result).requested? <;> rfl
  have hmem : ∀ {session request reply}, .fetch session request reply ∈ Step.call made result :: steps →
      .fetch session request reply ∈ steps := fun hmem => (List.mem_cons.mp hmem).resolve_left nofun
  exact
    { requested_once := hrequested ▸ hacquired.requested_once
      fetched_prefix := hrequested ▸ hacquired.fetched_prefix
      fetched_of_returned := hrequested ▸ hacquired.fetched_of_returned
      pending := fun _ _ _ hfetch => hacquired.pending _ _ _ (hmem hfetch)
      fed := hacquired.fed
      refused := fun _ _ _ hfetch => hacquired.refused _ _ _ (hmem hfetch)
      ready := hacquired.ready
      closed := hacquired.closed }

/-- A license is asked for the key request that is due. It is the last one. -/
theorem fetch {session : Native.Session} {request : KeyRequest}
    {reply : Option (Except Error (Option LicenseData))} (hpending : session.state = .pending)
    (hlast : steps.filterMap Step.requested? = [])
    (hacquired : Acquired [] (Step.fetch session request reply).license? steps after value)
    (hrefused : ∀ error, reply = some (.error error) → ∀ result, value = some result → result = .error error) :
    Acquired [request] none (.fetch session request reply :: steps) after value := by
  have hfetched : steps.filterMap Step.fetched? = [] :=
    List.prefix_nil.mp (hlast ▸ hacquired.fetched_prefix)
  have hnone : ∀ session request reply, .fetch session request reply ∉ steps := by
    intro _ _ _ hmem
    cases List.filterMap_eq_nil_iff.mp hfetched _ hmem
  have hrequested : (.fetch session request reply :: steps).filterMap Step.requested? = [] :=
    (List.filterMap_cons_none rfl).trans hlast
  have hasked : (.fetch session request reply :: steps).filterMap Step.fetched? = [request] := by
    rw [List.filterMap_cons_some (show (Step.fetch session request reply).fetched? = some request from rfl), hfetched]
  have hlicense : steps.findSome? Step.license? = none := by
    refine List.findSome?_eq_none_iff.mpr fun step hmem => ?_
    cases step with
    | call made result => rfl
    | fetch => exact absurd hmem (hnone _ _ _)
  have hfed : FedOnly (Step.fetch session request reply).license? after.history := by
    simpa [hlicense] using hacquired.fed
  have hhead : ∀ {session' request' reply'},
      .fetch session' request' reply' ∈ Step.fetch session request reply :: steps →
        Step.fetch session' request' reply' = Step.fetch session request reply :=
    fun hmem => (List.mem_cons.mp hmem).resolve_right (hnone _ _ _)
  refine
    { requested_once := ?_
      fetched_prefix := ?_
      fetched_of_returned := ?_
      pending := ?_
      fed := ?_
      refused := ?_
      ready := hacquired.ready
      closed := hacquired.closed }
  · rw [hrequested]
    exact Nat.le_refl 1
  · rw [hrequested, hasked]
    exact List.prefix_rfl
  · intro _
    rw [hrequested, hasked]
    rfl
  · intro _ _ _ hmem
    cases hhead hmem
    exact hpending
  · rw [List.findSome?_cons, hlicense]
    cases hgot : (Step.fetch session request reply).license? <;> simpa [hgot] using hfed
  · intro _ _ error hmem
    cases hhead hmem
    exact ⟨hfed, hrefused error rfl⟩

end Acquired

/-! ### Every way to perform it -/

section

variable {context : Context} {helper : Helper} {got : Option LicenseData} {before after : Moment}
  {steps : List Step} {value : Option (Except Error Unit)}

end

/-! ### Sessions without a module -/

/-- The moment after an activity and the moves that follow on it, if they are possible. -/
def Native.Moment.after (before : Moment) (activity : Native.Activity) (moves : List Native.Move) : Moment :=
  (before.run? (.begin activity :: moves)).getD before

end ContentProtection
