import ContentProtection.Proofs.Native.Chronicle

/-!
# Sessions that answer alike

Two sessions can have different pasts and still be told apart by nobody who makes key exchanges: then they are twins. Native sessions are numbered differently in both, so a request of one is the renumbered request of the other. `Together` is a relation of two interactions that ask for the same things, one after the other, and leave twins whenever they are suspended; it does not matter what the twins did before. `Alike` lifts it to programs, with one lemma for each way of putting programs together.
-/

namespace ContentProtection.Native

open ContentProtection.Session (Reply Request collaborators)

/-! ### Numbers of native sessions -/

variable (renumber : Nat → Nat)

def renumbered : Request → Request
  | .update number response => .update (renumber number) response
  | .queryStatus number keyId => .queryStatus (renumber number) keyId
  | .decrypt number encryption payload => .decrypt (renumber number) encryption payload
  | .close number => .close (renumber number)
  | request => request

theorem reply_renumbered (request : Request) : Reply (renumbered renumber request) = Reply request := by
  cases request <;> rfl

/-- The reply to a request as the reply to the renumbered one. -/
def sameReply (request : Request) (reply : Reply request) : Reply (renumbered renumber request) :=
  cast (reply_renumbered renumber request).symm reply

/-! ### Twins -/

/-- Two sessions that agree in everything that a key exchange depends on. The state is not among it, nor is a challenge that nothing signals. Each has more handles than events are being handled. -/
structure Twins (handled : Nat) (session twin : Session) : Prop where
  helper_eq : twin.setting.helper = session.setting.helper
  hasSideChannel_eq : twin.setting.hasSideChannel = session.setting.hasSideChannel
  hasSystem : session.hasSystem = true
  hasSystem_eq : twin.hasSystem = session.hasSystem
  opened_eq : twin.opened = session.opened.map renumber
  constructed_eq : ∀ more, renumber (session.constructed + more) = twin.constructed + more
  memory_eq : twin.memory = session.memory
  isLocked_eq : twin.isLocked = session.isLocked
  key_eq : twin.key = session.key
  slot_eq : twin.slot = session.slot
  keyStatusReady_eq : twin.keyStatusReady = session.keyStatusReady
  outputProtection_eq : twin.outputProtection = session.outputProtection
  outputLink_eq : twin.outputLink = session.outputLink
  lt_handles : handled < session.handles
  lt_handles_twin : handled < twin.handles

theorem Session.isSome_slot (session : Session) : session.slot.isSome = session.challengeReady.isSignalled := by
  rw [slot]
  cases session.challengeReady.isSignalled <;> rfl

namespace Twins

variable {renumber} {handled : Nat} {session twin : Session}

theorem isSignalled_eq (htwins : Twins renumber handled session twin) :
    twin.challengeReady.isSignalled = session.challengeReady.isSignalled := by
  rw [← Session.isSome_slot, ← Session.isSome_slot, htwins.slot_eq]

theorem challenge_eq (htwins : Twins renumber handled session twin)
    (hsignalled : session.challengeReady.isSignalled = true) : twin.challenge = session.challenge := by
  have hslot := htwins.slot_eq
  rw [Session.slot, Session.slot, htwins.isSignalled_eq, if_pos hsignalled, if_pos hsignalled] at hslot
  exact Option.some.inj hslot

theorem violatesOutput_eq (htwins : Twins renumber handled session twin) :
    twin.violatesOutput = session.violatesOutput := by
  rw [Session.violatesOutput, Session.violatesOutput, htwins.outputProtection_eq, htwins.outputLink_eq,
    htwins.helper_eq]

theorem keySystem_eq (htwins : Twins renumber handled session twin) : twin.keySystem = session.keySystem := by
  rw [Session.keySystem, Session.keySystem, htwins.helper_eq]

end Twins

/-! ### Interactions side by side -/

/-- Two interactions that ask for the same things as long as they get the same replies, whatever twins they go on from, and that end together. -/
inductive Together (handled : Nat) {α β : Type} (post : Session → α → Session → β → Prop) :
    Interaction collaborators Session α → Interaction collaborators Session β → Prop
  | done {session twin : Session} {value : α} {value' : β} (hpost : post session value twin value') :
      Together handled post (.done session value) (.done twin value')
  | ask {session twin : Session} {request : Request}
      {resume : Session → Reply request → Interaction collaborators Session α}
      {resume' : Session → Reply (renumbered renumber request) → Interaction collaborators Session β}
      (htwins : Twins renumber handled session twin)
      (hresume : ∀ (after after' : Session) (reply : Reply request), Twins renumber handled after after' →
        Together handled post (resume after reply) (resume' after' (sameReply renumber request reply))) :
      Together handled post (.ask session request resume) (.ask twin (renumbered renumber request) resume')

variable {renumber} {handled : Nat}

theorem Together.andThen {α β α' β' : Type} {mid : Session → α → Session → β → Prop}
    {post : Session → α' → Session → β' → Prop} {interaction : Interaction collaborators Session α}
    {interaction' : Interaction collaborators Session β} {next : α → Operation α'} {next' : β → Operation β'}
    (htogether : Together renumber handled mid interaction interaction')
    (hnext : ∀ session value twin value', mid session value twin value' →
      Together renumber handled post (next value session) (next' value' twin)) :
    Together renumber handled post (interaction.andThen next) (interaction'.andThen next') := by
  induction htogether with
  | done hpost => exact hnext _ _ _ _ hpost
  | ask htwins _ ih => exact .ask htwins fun after after' reply hafter => ih after after' reply hafter

/-! ### Programs side by side -/

variable (renumber handled) in
/-- Twins at the end, and related values. -/
def Rejoined {α β : Type} (relate : α → β → Prop) (session : Session) (value : α) (twin : Session) (value' : β) :
    Prop :=
  Twins renumber handled session twin ∧ relate value value'

variable (renumber handled) in
/-- Programs that run together from twins. -/
def Alike {α β : Type} (relate : α → β → Prop) (program : Operation α) (program' : Operation β) : Prop :=
  ∀ session twin, Twins renumber handled session twin →
    Together renumber handled (Rejoined renumber handled relate) (program session) (program' twin)

section

variable {α β α' β' : Type} {relate : α → β → Prop} {relate' : α' → β' → Prop}

theorem alike_pure {value : α} {value' : β} (hrelate : relate value value') :
    Alike renumber handled relate (pure value) (pure value') :=
  fun _ _ htwins => .done ⟨htwins, hrelate⟩

theorem alike_get : Alike renumber handled (Twins renumber handled) get get :=
  fun _ _ htwins => .done ⟨htwins, htwins⟩

theorem alike_modifyGet {change : Session → α × Session} {change' : Session → β × Session}
    (hchange : ∀ session twin, Twins renumber handled session twin →
      Twins renumber handled (change session).2 (change' twin).2 ∧ relate (change session).1 (change' twin).1) :
    Alike renumber handled relate (modifyGet change) (modifyGet change') :=
  fun session twin htwins => .done (hchange session twin htwins)

theorem alike_modify {change change' : Session → Session}
    (hchange : ∀ session twin, Twins renumber handled session twin →
      Twins renumber handled (change session) (change' twin)) :
    Alike renumber handled (· = ·) (modify change : Operation Unit) (modify change') :=
  fun session twin htwins => .done ⟨hchange session twin htwins, rfl⟩

theorem alike_ask (request : Request) :
    Alike renumber handled (fun reply reply' => reply' = sameReply renumber request reply)
      (ContentProtection.Session.ask request) (ContentProtection.Session.ask (renumbered renumber request)) :=
  fun _ _ htwins => .ask htwins fun _ _ _ hafter => .done ⟨hafter, rfl⟩

theorem Alike.bind {program : Operation α} {program' : Operation β} {next : α → Operation α'}
    {next' : β → Operation β'} (hfirst : Alike renumber handled relate program program')
    (hthen : ∀ value value', relate value value' → Alike renumber handled relate' (next value) (next' value')) :
    Alike renumber handled relate' (program >>= next) (program' >>= next') := by
  intro session twin htwins
  refine (hfirst session twin htwins).andThen ?_
  rintro between value between' value' ⟨hbetween, hrelate⟩
  exact hthen value value' hrelate between between' hbetween

theorem alike_ite {condition : Prop} [Decidable condition] {program other : Operation α}
    {program' other' : Operation β} (hthen : Alike renumber handled relate program program')
    (helse : Alike renumber handled relate other other') :
    Alike renumber handled relate (if condition then program else other) (if condition then program' else other') := by
  split
  · exact hthen
  · exact helse

end

end ContentProtection.Native
