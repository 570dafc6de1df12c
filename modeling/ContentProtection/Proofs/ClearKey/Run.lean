import ContentProtection.ClearKey.Session
import ContentProtection.Proofs.Interaction
import Mathlib.Logic.Relation

/-!
# Runs of clear key sessions

All that happens to a clear key session are the calls of its hosts, and the platform says something else about the output now and then. A call that waits is suspended, and any number of others may begin or end until it goes on. The helper stays as it was, and output protection and the output link are as they were set last.
-/

namespace ContentProtection.ClearKey

open ContentProtection.Session (Contract Fault KeyRequest Reply Request collaborators)

/-! ### Calls -/

/-- What a host can do with a session. -/
inductive Call
  | generate (initData : Bytes) (customData : Option Bytes)
  | keyRequest (timeout : Duration)
  | process (license : Option LicenseData) (timeout : Duration)
  | decrypt (encryption : Sample.Encryption) (payload : Bytes)
  | waitForState (state : KeyState) (timeout : Duration)
  | clear
  | setOutputProtection (enabled : Bool)
  | setSecurityManager (handle : Option Int)
  /-- The platform says something else about the output from now on. -/
  | changeOutputLink (link : OutputLink)
  | release

namespace Call

def Result : Call → Type
  | keyRequest _ => Option KeyRequest
  | process _ _ => Except Fault Unit
  | decrypt _ _ => Except Fault Unit × Bytes
  | waitForState _ _ => Bool
  | generate _ _ | clear | setOutputProtection _ | setSecurityManager _ | changeOutputLink _ | release => Unit

def program : (call : Call) → ContentProtection.Session.Operation Session call.Result
  | generate initData customData => Contract.generate initData customData
  | keyRequest timeout => Contract.keyRequest timeout
  | process license timeout => Contract.process license timeout
  | decrypt encryption payload => Contract.decrypt encryption payload
  | waitForState state timeout => Contract.waitForState state timeout
  | clear => Contract.clear
  | setOutputProtection enabled => modify fun session : Session => Contract.setOutputProtection session enabled
  | setSecurityManager handle => modify fun session : Session => Contract.setSecurityManager session handle
  | changeOutputLink link => modify fun session : Session => { session with outputLink := link }
  | release => Contract.release

/-- What a call sets output protection to, if it does. -/
def outputProtection? : Call → Option Bool
  | setOutputProtection enabled => some enabled
  | _ => none

/-- What the output link changes to, if it does. -/
def outputLink? : Call → Option OutputLink
  | changeOutputLink link => some link
  | _ => none

end Call

/-! ### Moments and steps -/

/-- A suspended call. -/
structure Frame where
  made : Call
  request : Request
  resume : Session → Reply request → Interaction collaborators Session made.Result

/-- The session, the suspended calls and all calls that began, latest first. -/
structure Moment where
  session : Session
  frames : List Frame := []
  calls : List Call := []

namespace Moment

/-- Goes on with a call up to its next request or its end. -/
def advance (made : Call) (frames : List Frame) (calls : List Call) :
    Interaction collaborators Session made.Result → Moment
  | .done session _ => ⟨session, frames, calls⟩
  | .ask session request resume => ⟨session, ⟨made, request, resume⟩ :: frames, calls⟩

/-- A call begins, or a suspended one goes on. -/
inductive Step : Moment → Moment → Prop
  | begin (moment : Moment) (made : Call) :
    Step moment (advance made moment.frames (made :: moment.calls) (made.program moment.session))
  | reply (session : Session) (calls : List Call) (above : List Frame) (frame : Frame) (below : List Frame)
      (reply : Reply frame.request) :
    Step ⟨session, above ++ frame :: below, calls⟩
      (advance frame.made (above ++ below) calls (frame.resume session reply))

/-- What was set last, or what was so at first. -/
def lastSet {α : Type} (set? : Call → Option α) (initial : α) (moment : Moment) : α :=
  (moment.calls.findSome? set?).getD initial

/-- Whether output protection is enabled after all calls, when it was so or not at first. -/
abbrev outputProtection (initial : Bool) (moment : Moment) : Bool := moment.lastSet Call.outputProtection? initial

/-- What the platform says about the output after all calls, when it said this at first. -/
abbrev outputLink (initial : OutputLink) (moment : Moment) : OutputLink := moment.lastSet Call.outputLink? initial

end Moment

/-- A moment that some run of a given session leads to. -/
def ReachableFrom (start : Session) (moment : Moment) : Prop :=
  Relation.ReflTransGen Moment.Step { session := start } moment

/-! ### What calls leave as it is -/

/-- What output protection goes by is as it was. -/
structure SameProtection (before after : Session) : Prop where
  helper_eq : after.helper = before.helper
  outputLink_eq : after.outputLink = before.outputLink
  outputProtection_eq : after.outputProtection = before.outputProtection

instance : IsPreorder Session SameProtection where
  refl _ := ⟨rfl, rfl, rfl⟩
  trans _ _ _ hfirst hthen :=
    ⟨hthen.helper_eq.trans hfirst.helper_eq, hthen.outputLink_eq.trans hfirst.outputLink_eq,
      hthen.outputProtection_eq.trans hfirst.outputProtection_eq⟩

/-- An operation that sets neither output protection nor the link. -/
abbrev Protects {α : Type} (program : ContentProtection.Session.Operation Session α) : Prop :=
  program.Within SameProtection (fun _ => True) fun _ => True

/-- Waiting changes nothing but the latch. -/
theorem within_waitForState {keeps : Session → Session → Prop} [IsPreorder Session keeps]
    (hkeeps : ∀ session, keeps session { session with stateChanged := session.stateChanged.reset }) (state : KeyState)
    (timeout : Duration) : (waitForState state timeout).Within keeps (fun _ => True) fun _ => True := by
  have hrest : Program.Within keeps (fun _ => True) (fun _ => True) (do
      modify fun session => { session with stateChanged := session.stateChanged.reset }
      return (← get).state = state : ContentProtection.Session.Operation Session Bool) :=
    (within_modifyGet hkeeps).bind fun _ _ => within_get.bind fun _ _ => within_pure trivial
  refine within_get.bind fun _ _ => within_ite (within_pure trivial) (within_get.bind fun _ _ => ?_)
  exact within_ite ((within_ask trivial).bind fun _ _ => hrest) hrest

theorem protects_call {made : Call} (hprotection : made.outputProtection? = none) (hlink : made.outputLink? = none) :
    Protects made.program := by
  cases made with
  | setOutputProtection enabled => cases hprotection
  | changeOutputLink link => cases hlink
  | waitForState state timeout => exact within_waitForState (fun _ => ⟨rfl, rfl, rfl⟩) state timeout
  | keyRequest timeout =>
    refine within_modifyGet fun session => ?_
    unfold Session.keyRequest
    split <;> exact ⟨rfl, rfl, rfl⟩
  | process license timeout =>
    refine within_modifyGet fun session => ?_
    unfold Session.process
    dsimp only
    split <;> exact ⟨rfl, rfl, rfl⟩
  | decrypt encryption payload => exact fun _ => ⟨⟨rfl, rfl, rfl⟩, trivial⟩
  | release => exact within_pure trivial
  | generate | clear | setSecurityManager => exact within_modifyGet fun _ => ⟨rfl, rfl, rfl⟩

/-! ### Runs -/

/-- The helper is as it was at first, and output protection and the link are as they were set last; suspended calls leave that so. -/
structure Guarded (start : Session) (moment : Moment) : Prop where
  helper_eq : moment.session.helper = start.helper
  outputLink_eq : moment.session.outputLink = moment.outputLink start.outputLink
  outputProtection_eq : moment.session.outputProtection = moment.outputProtection start.outputProtection
  frames : ∀ frame ∈ moment.frames, ∀ session reply,
    (frame.resume session reply).Within SameProtection (fun _ => True) (fun _ => True) session

/-- Going on with a call that leaves as it is what output protection goes by. -/
theorem Guarded.advance {start session : Session} {made : Call} {frames : List Frame} {calls : List Call}
    {interaction : Interaction collaborators Session made.Result} (hguarded : Guarded start ⟨session, frames, calls⟩)
    (hprotects : interaction.Within SameProtection (fun _ => True) (fun _ => True) session) :
    Guarded start (Moment.advance made frames calls interaction) := by
  obtain ⟨hhelper, hlink, hflag, hframes⟩ := hguarded
  cases interaction with
  | done after result =>
    obtain ⟨⟨hhelper', hlink', hflag'⟩, -⟩ := hprotects
    exact ⟨hhelper'.trans hhelper, hlink'.trans hlink, hflag'.trans hflag, hframes⟩
  | ask after request resume =>
    obtain ⟨⟨hhelper', hlink', hflag'⟩, -, hresume⟩ := hprotects
    refine ⟨hhelper'.trans hhelper, hlink'.trans hlink, hflag'.trans hflag, ?_⟩
    intro frame hframe
    rcases List.mem_cons.mp hframe with rfl | hframe
    · exact hresume
    · exact hframes frame hframe

theorem Guarded.step {start : Session} {moment moment' : Moment} (hguarded : Guarded start moment)
    (hstep : Moment.Step moment moment') : Guarded start moment' := by
  cases hstep with
  | begin moment made =>
    obtain ⟨hhelper, hlink, hflag, hframes⟩ := hguarded
    cases made with
    | setOutputProtection enabled => exact ⟨hhelper, hlink, rfl, hframes⟩
    | changeOutputLink link => exact ⟨hhelper, rfl, hflag, hframes⟩
    | _ => exact Guarded.advance ⟨hhelper, hlink, hflag, hframes⟩ (protects_call rfl rfl moment.session)
  | reply session calls above frame below reply =>
    obtain ⟨hhelper, hlink, hflag, hframes⟩ := hguarded
    refine Guarded.advance ⟨hhelper, hlink, hflag, ?_⟩ (hframes frame (by simp) session reply)
    intro other hother
    rcases List.mem_append.mp hother with habove | hbelow
    · exact hframes other (List.mem_append_left _ habove)
    · exact hframes other (List.mem_append_right _ (.tail _ hbelow))

theorem ReachableFrom.guarded {start : Session} {moment : Moment} (hreach : ReachableFrom start moment) :
    Guarded start moment := by
  induction hreach with
  | refl => exact ⟨rfl, rfl, rfl, by simp⟩
  | tail _ hstep ih => exact ih.step hstep

end ContentProtection.ClearKey
