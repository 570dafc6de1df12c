import ContentProtection.Proofs.Native.Alike
import ContentProtection.Proofs.Native.Handoff
import ContentProtection.Proofs.Native.Requests

/-!
# Where challenges go

A challenge is routed by its kind: device provisioning to the side channel alone, a renewal to the slot and then to the side channel, everything else to the slot. So the side channel hears of exactly the challenges that are meant for it, in the order of their delivery, and what is in the slot is never device provisioning, however deep the host and the module call each other.
-/

namespace ContentProtection.Native

open ContentProtection.Session (KeyRequest Reply Request)

/-! ### What the side channel hears -/

namespace Moment

end Moment

/-! ### The steps of a challenge -/

section

variable {url : String} {payload : Bytes} {session before : Session} {asked : List Asked}

end

/-- The challenge that is kept is not device provisioning. -/
def NotProvisioning (session : Session) : Prop := Challenge.kind session.challenge.payload ≠ .individualization

/-- Between its requests, an operation does not put device provisioning into the slot. -/
abbrev KeepsOut {α : Type} (program : Operation α) : Prop :=
  Program.Within (fun before after => NotProvisioning before → NotProvisioning after) (fun _ => True) (fun _ => True)
    program

instance : IsPreorder Session fun before after => NotProvisioning before → NotProvisioning after where
  refl _ := id
  trans _ _ _ hfirst hthen := hthen ∘ hfirst

theorem notProvisioning_of_same {parts : List Part} {before after : Session} (hparts : .challenge ∉ parts)
    (hsame : SameBut parts before after) (hkept : NotProvisioning before) : NotProvisioning after := by
  rw [NotProvisioning, show after.challenge = before.challenge from hsame.same _ hparts]
  exact hkept

theorem Confined.keepsOut {α : Type} {parts : List Part} {may : Request → Prop} {returns : α → Prop}
    {program : Operation α} (hconfined : Confined parts may returns program) (hparts : .challenge ∉ parts) :
    KeepsOut program :=
  fun session => (hconfined session).mono (fun _ _ => notProvisioning_of_same hparts) (fun _ _ => trivial)
    fun _ _ => trivial

theorem keepsOut_keyRequest (timeout : Duration) : KeepsOut (keyRequest timeout) := by
  have hset : ∀ state, KeepsOut (setState state) := fun state => within_modifyGet fun _ => id
  have htake : KeepsOut takeChallenge := within_modifyGet fun _ _ => nofun
  have hawait : Confined [.latch .challengeReady] (fun _ => False) (fun _ => True) (await .challengeReady timeout) :=
    confined_await _ timeout (by decide)
  refine (hset .error).bind fun _ _ => (hawait.keepsOut (by decide)).bind fun ready _ => ?_
  refine within_ite (within_pure trivial) (htake.bind fun challenge _ => ?_)
  exact within_ite (within_pure trivial) ((hset .pending).bind fun _ _ => within_pure trivial)

theorem keepsOut_challenge (url : String) (payload : Bytes) : KeepsOut (deliver (.challenge url payload)) := by
  have hask : ∀ request, KeepsOut (ContentProtection.Session.ask request : Operation _) :=
    fun request => within_ask trivial
  have hretain : Confined [.handles] (fun _ => False) (fun _ => True) retain := confined_retain (by decide)
  have hrelease : Confined [.handles, .opened] (fun _ => False) (fun _ => True) release :=
    confined_release (by decide) (by decide)
  have hhandle : KeepsOut (onChallenge url payload) := by
    refine within_get.bind fun session _ => ?_
    dsimp only
    split
    · exact within_ite (hask _) (within_pure trivial)
    · rename_i hkind
      have hkeep : KeepsOut (modify fun session : Session => { session with challenge := { payload, url } }) :=
        within_modifyGet fun _ _ => hkind
      have hsignal : Confined [.latch .challengeReady] (fun _ => False) (fun _ => True) (signal .challengeReady) :=
        confined_signal _ (by decide)
      refine hkeep.bind fun _ _ => (hsignal.keepsOut (by decide)).bind fun _ _ => ?_
      exact within_ite (hask _) (within_pure trivial)
  refine within_get.bind fun session _ => within_ite (within_pure trivial) ?_
  exact (hretain.keepsOut (by decide)).bind fun _ _ => hhandle.bind fun _ _ => hrelease.keepsOut (by decide)

theorem keepsOut_activity (activity : Activity) : KeepsOut activity.program := by
  have hconfined : Confined activity.changes (fun _ => True) (fun _ => True) activity.program := fun session =>
    (within_activity activity session).mono (fun _ _ => id) (fun _ _ => .inr trivial) fun _ => id
  cases activity with
  | event fired =>
    cases fired with
    | challenge url payload => exact keepsOut_challenge url payload
    | _ => exact hconfined.keepsOut (by simp [Activity.changes, Event.changes])
  | call made =>
    cases made with
    | keyRequest timeout => exact keepsOut_keyRequest timeout
    | _ => exact hconfined.keepsOut (by simp [Activity.changes, Call.changes])

/-- Device provisioning changes nothing but the handle of its event, with which the native session may go. -/
theorem confined_individualization (url : String) {payload : Bytes}
    (hkind : Challenge.kind payload = .individualization) :
    Confined [.handles, .opened] (fun _ => False) (fun _ => True) (deliver (.challenge url payload)) := by
  have hhandle : Confined [.handles, .opened] (fun _ => False) (fun _ => True) (onChallenge url payload) := by
    refine within_get.bind fun session _ => ?_
    dsimp only
    rw [if_pos hkind]
    have hask : Confined [.handles, .opened] (fun _ => False) (fun _ => True)
        (ContentProtection.Session.ask (.individualize (Challenge.body payload)) : Operation _) :=
      confined_plain rfl
    exact within_ite hask (within_pure trivial)
  refine within_get.bind fun session _ => within_ite (within_pure trivial) ?_
  exact (confined_retain (by decide)).bind fun _ _ => hhandle.bind fun _ _ => confined_release (by decide) (by decide)

/-- A step keeps device provisioning out of the slot, and one that delivers it touches neither the slot nor its signal. -/
def keepingOut : Conduct := fun activity _ before after =>
  (NotProvisioning before → NotProvisioning after) ∧
    ∀ url payload, activity = .event (.challenge url payload) → Challenge.kind payload = .individualization →
      SameBut [.handles, .opened] before after

theorem keepingOut_kept (activity : Activity) : keepingOut.KeptBy activity := by
  by_cases hprovisioning : ∃ url payload, activity = .event (.challenge url payload) ∧
      Challenge.kind payload = .individualization
  · obtain ⟨url, payload, rfl, hkind⟩ := hprovisioning
    refine Conduct.keptBy_of_within (confined_individualization url hkind) fun course before after hsame => ?_
    exact ⟨notProvisioning_of_same (by decide) hsame, fun _ _ _ _ => hsame⟩
  · refine Conduct.keptBy_of_within (keepsOut_activity activity) fun course before after hkeeps => ?_
    exact ⟨hkeeps, fun url payload hactivity hkind => absurd ⟨url, payload, hactivity, hkind⟩ hprovisioning⟩

/-! ### Runs -/

variable {setting : Setting} {moment moment' : Moment} {move : Move}

/-- What is fixed about a session stays so. -/
theorem Reachable.setting_eq (hreach : Reachable setting moment) : moment.session.setting = setting := by
  refine Reachable.induct rfl ?_ hreach
  intro moment move moment' hreach hsetting hmove
  obtain ⟨_, _, _, _, _, hsame, -⟩ := hreach.step keepingOut_kept hmove
  exact hsame.setting_eq.trans hsetting

section

variable {activity : Activity} {below : List Frame} {first last : Entry}

end

end ContentProtection.Native
