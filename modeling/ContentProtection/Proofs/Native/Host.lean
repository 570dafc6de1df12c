import ContentProtection.Proofs.Native.Outline
import Mathlib.Logic.Relation

/-!
# Hosts of native sessions

A script is what one host does with a session: it looks at it, makes calls and gets licenses, one after the other. The module may fire events at any time, before and after a call as well as during it; what the side channel is told does not come back as a call. Between its calls the session is at rest, with no activity suspended, so an outline is carried on by a call that meets it there.
-/

namespace ContentProtection.Native

open ContentProtection.Session (KeyRequest ask)
open Outline

/-! ### Scripts -/

inductive Script (α : Type)
  | done (value : α)
  | look (next : Session → Script α)
  | call (made : Call) (next : made.Result → Script α)
  | fetch (request : KeyRequest) (next : Except Error (Option LicenseData) → Script α)

/-- A script as one operation, which leaves no time for events between two calls. -/
def Script.operation {α : Type} : Script α → Operation α
  | done value => pure value
  | look next => do (next (← get)).operation
  | call made next => do (next (← made.program)).operation
  | fetch request next => do (next (← ask (.fetchLicense request))).operation

/-! ### Performing a script -/

/-- An activity begins at rest, and nothing but events begins after it. -/
def Undertakes (before : Moment) (activity : Activity) (after : Moment) : Prop :=
  before.frames = [] ∧ ∃ moves, (∀ other, .begin other ∈ moves → ∃ event, other = .event event) ∧
    before.run? (.begin activity :: moves) = some after

/-- An activity begins at rest and ends with a result, at rest again. -/
structure Does (before : Moment) (activity : Activity) (result : activity.Result) (after : Moment) : Prop where
  undertakes : Undertakes before activity after
  rests : after.frames = []
  ended : ∃ asked earlier, after.history = .ended ⟨activity, before.session, asked, result⟩ :: earlier

/-- Any number of events come and are over. -/
def Idles : Moment → Moment → Prop :=
  Relation.ReflTransGen fun before after => ∃ event, Does before (.event event) () after

/-- Any number of events come; the last one may still be under way. -/
def Waits (before after : Moment) : Prop :=
  Idles before after ∨ ∃ rest event, Idles before rest ∧ Undertakes rest (.event event) after

/-- What a host has done: a call and its result, or a license that was asked for with the session as given, and the reply once it is there. -/
inductive Step
  | call (made : Call) (result : made.Result)
  | fetch (session : Session) (request : KeyRequest) (reply : Option (Except Error (Option LicenseData)))

/-- From a moment at rest, a script is performed up to some moment, with these steps and, if it is over then, with a value. -/
inductive Performs {α : Type} : Script α → Moment → List Step → Moment → Option α → Prop
  | wait {script : Script α} {before after : Moment} (hwait : Waits before after) :
    Performs script before [] after none
  | done {value : α} {before after : Moment} (hidle : Idles before after) :
    Performs (.done value) before [] after (some value)
  | look {next : Session → Script α} {before rest after : Moment} {steps : List Step} {value : Option α}
    (hidle : Idles before rest) (hrest : Performs (next rest.session) rest steps after value) :
    Performs (.look next) before steps after value
  | begun {made : Call} {next : made.Result → Script α} {before rest after : Moment} (hidle : Idles before rest)
    (hcall : Undertakes rest (.call made) after) : Performs (.call made next) before [] after none
  | call {made : Call} {next : made.Result → Script α} {result : made.Result} {before rest ended after : Moment}
    {steps : List Step} {value : Option α} (hidle : Idles before rest) (hcall : Does rest (.call made) result ended)
    (hrest : Performs (next result) ended steps after value) :
    Performs (.call made next) before (.call made result :: steps) after value
  | asked {request : KeyRequest} {next : Except Error (Option LicenseData) → Script α} {before rest after : Moment}
    (hidle : Idles before rest) (hwait : Waits rest after) :
    Performs (.fetch request next) before [.fetch rest.session request none] after none
  | fetch {request : KeyRequest} {next : Except Error (Option LicenseData) → Script α}
    {reply : Except Error (Option LicenseData)} {before rest replied after : Moment} {steps : List Step}
    {value : Option α} (hidle : Idles before rest) (hwait : Idles rest replied)
    (hrest : Performs (next reply) replied steps after value) :
    Performs (.fetch request next) before (.fetch rest.session request (some reply) :: steps) after value

/-! ### Outlines at rest -/

/-- An activity keeps to an outline when it begins at rest. -/
def Outline.MetAtRest (outline : Outline) (activity : Activity) : Prop :=
  ∀ (session : Session) (history : History), outline.Holds 0 session history → activity.hasHandle 0 session.handles →
    outline.Achieves (activity.pins 0) (activity.program session) [] (.began activity :: history)
      (outline.Owes activity session 0)

variable {outline : Outline} {before after : Moment} {activity : Activity}

theorem Outline.MetBy.atRest (hmet : outline.MetBy activity) : outline.MetAtRest activity := hmet 0

/-- What begins at rest keeps to an outline with all that comes after it. -/
theorem Undertakes.fits (hundertakes : Undertakes before activity after)
    (hevents : ∀ event, outline.MetBy (.event event)) (hmet : outline.MetAtRest activity)
    (hholds : outline.Holds 0 before.session before.history) : outline.Fits after := by
  obtain ⟨hrest, moves, honly, hrun⟩ := hundertakes
  obtain ⟨begun, hbegin, hrun⟩ := Option.bind_eq_some_iff.mp hrun
  have hbegun : outline.Fits begun := by
    rw [Moment.move?] at hbegin
    split at hbegin
    · rename_i hmay
      cases hbegin
      rw [Moment.mayBegin, Bool.and_eq_true, hrest] at hmay
      have hachieves := hmet before.session before.history hholds hmay.1
      rw [Moment.begin, hrest]
      exact fits_advance hachieves fun _ _ _ => trivial
    · cases hbegin
  refine Moment.run?_preserves_of_mem (fun move hmem _ _ => fits_move? ?_) hbegun hrun
  rintro other rfl
  obtain ⟨event, rfl⟩ := honly other hmem
  exact hevents event

/-- An activity that is over has made its report good, and the outline holds on. -/
theorem Does.met {result : activity.Result} (hdoes : Does before activity result after)
    (hevents : ∀ event, outline.MetBy (.event event)) (hmet : outline.MetAtRest activity)
    (hholds : outline.Holds 0 before.session before.history) :
    outline.Holds 0 after.session after.history ∧ ∃ asked earlier,
      after.history = .ended ⟨activity, before.session, asked, result⟩ :: earlier ∧
      outline.Report ⟨activity, before.session, asked, result⟩ after.session earlier := by
  have hfits := hdoes.undertakes.fits hevents hmet hholds
  obtain ⟨asked, earlier, hended⟩ := hdoes.ended
  refine ⟨?_, asked, earlier, hended, hfits.report _ _ hended⟩
  have hafter := hfits.holds
  rwa [hdoes.rests] at hafter

end ContentProtection.Native
