import ContentProtection.Proofs.Native.Custody

/-!
# What a history tells of a session

Three things about a session can be read off the history of its run: its state, which is the one that was set last; the challenge that a key request would take, which is the last one delivered since a key request or the construction of a native session has emptied the slot; and, while the state is `ready` and nobody holds the session lock, that a native session is open. `Told` says so, and `chronicle` is the outline that makes it hold at every moment.
-/

namespace ContentProtection.Native

open ContentProtection.Session (KeyRequest Request)
open Outline

/-! ### The state -/

/-- Whether the last request of an activity was to close a native session that it had just constructed. -/
def isRefused : List Asked → Bool
  | ⟨_, .close _⟩ :: ⟨_, .construct _ _⟩ :: _ => true
  | _ => false

/-- The state that the end of an activity has set. -/
def Record.state? : Record → Option KeyState
  | ⟨.call (.generate _ _), _, asked, _⟩ => if isRefused asked then some .emptySessionId else none
  | ⟨.call (.keyRequest _), _, _, request⟩ => if Option.isSome request then some .pending else none
  | ⟨.call (.process _ _), _, _, result⟩ => some (if Except.isOk result then .ready else .error)
  | ⟨.call .clear, _, _, _⟩ => some .init
  | _ => none

/-- The state that has been set by the time of an entry, if the entry shows one. A key request sets `error` before it waits, and processing sets it before it reports an error of the hardware. -/
def Entry.state? : Entry → Option KeyState
  | .began (.call (.keyRequest _)) => some .error
  | .asked (.hardwareError _) => some .error
  | .replied (.createSystem _) false => some .error
  | .replied (.construct _ _) (Except.error _) => some .error
  | .ended record => record.state?
  | _ => none

def History.state (history : History) : KeyState := (history.findSome? Entry.state?).getD .init

/-! ### The slot for a challenge -/

/-- The challenge that a key request would take: what is in the buffer counts only while it is signalled. -/
def Session.slot (session : Session) : Option PendingChallenge :=
  if session.challengeReady.isSignalled then some session.challenge else none

/-- What an entry makes of the slot, if anything. A delivered challenge takes the place of the one before; a construction and a key request leave the slot empty. -/
def Entry.slot? : Entry → Option (Option PendingChallenge)
  | .began (.event (.challenge url payload)) =>
    if Challenge.kind payload = .individualization then none else some (some { payload, url })
  | .asked (.construct _ _) => some none
  | .ended ⟨.call (.keyRequest _), _, _, _⟩ => some none
  | _ => none

def History.slot (history : History) : Option PendingChallenge := (history.findSome? Entry.slot?).getD none

/-- The key request that a challenge is handed out as. An empty one is not. -/
def PendingChallenge.request? (challenge : PendingChallenge) : Option KeyRequest :=
  if challenge.payload.isEmpty then none
  else some
    { challenge := ⟨Challenge.body challenge.payload⟩
      url := challenge.url
      kind := Challenge.kind challenge.payload }

namespace History

theorem state_cons (entry : Entry) (history : History) :
    History.state (entry :: history) = entry.state?.getD history.state := by
  rw [state, List.findSome?_cons]
  cases entry.state? <;> rfl

theorem slot_cons (entry : Entry) (history : History) :
    History.slot (entry :: history) = entry.slot?.getD history.slot := by
  rw [slot, List.findSome?_cons]
  cases entry.slot? <;> rfl

end History

/-! ### What is told -/

/-- What of a session is told. -/
structure Standing where
  state : KeyState
  slot : Option PendingChallenge
  isLocked : Bool
  opened : Option Nat
  handles : Nat

def Session.standing (session : Session) : Standing :=
  { state := session.state
    slot := session.slot
    isLocked := session.isLocked
    opened := session.opened
    handles := session.handles }

theorem Session.standing_setLatch {which : ContentProtection.Session.Signal} (session : Session) (latch : Latch)
    (hwhich : which ≠ .challengeReady) : (session.setLatch latch which).standing = session.standing := by
  cases which with
  | challengeReady => exact absurd rfl hwhich
  | keyStatusReady | stateChanged => rfl

/-- The history tells the state, and the slot as long as somebody could look at it. -/
structure Told (standing : Standing) (history : History) : Prop where
  state_eq : standing.state = history.state
  slot_eq : 0 < standing.handles → standing.slot = history.slot
  opened_of_ready : standing.state = .ready → 0 < standing.handles → standing.isLocked = false →
    standing.opened ≠ none

/-- The lock is as it was, and under it so is the open native session; the handles in use are left. -/
structure Anchored (pinned : Nat) (before after : Standing) : Prop where
  isLocked_eq : after.isLocked = before.isLocked
  le_handles : min pinned before.handles ≤ after.handles
  opened_eq : before.isLocked = true → after.opened = before.opened

namespace Told

variable {standing : Standing} {entry : Entry} {history : History}

theorem initial (setting : Setting) : Told (Session.ofSetting setting).standing [] :=
  ⟨rfl, fun _ => rfl, nofun⟩

/-- An entry that neither sets a state nor touches the slot tells nothing new. -/
theorem cons (htold : Told standing history) (hstate : entry.state? = none) (hslot : entry.slot? = none) :
    Told standing (entry :: history) := by
  refine ⟨?_, ?_, htold.opened_of_ready⟩
  · rw [History.state_cons, hstate]
    exact htold.state_eq
  · rw [History.slot_cons, hslot]
    exact htold.slot_eq

theorem cons_state {state : KeyState} (htold : Told standing history) (hstate : entry.state? = some state)
    (hslot : entry.slot? = none) (hopened : state = .ready → standing.opened ≠ none) :
    Told { standing with state } (entry :: history) := by
  refine ⟨?_, ?_, fun hready _ _ => hopened hready⟩
  · rw [History.state_cons, hstate]
    rfl
  · rw [History.slot_cons, hslot]
    exact htold.slot_eq

theorem cons_slot {slot : Option PendingChallenge} (htold : Told standing history) (hstate : entry.state? = none)
    (hslot : entry.slot? = some slot) : Told { standing with slot } (entry :: history) := by
  refine ⟨?_, ?_, htold.opened_of_ready⟩
  · rw [History.state_cons, hstate]
    exact htold.state_eq
  · intro _
    rw [History.slot_cons, hslot]
    rfl

theorem locked (htold : Told standing history) : Told { standing with isLocked := true } history :=
  ⟨htold.state_eq, htold.slot_eq, nofun⟩

theorem unlocked (htold : Told standing history)
    (hopened : standing.state = .ready → 0 < standing.handles → standing.opened ≠ none) :
    Told { standing with isLocked := false } history :=
  ⟨htold.state_eq, htold.slot_eq, fun hready hhandle _ => hopened hready hhandle⟩

/-- Under the lock, a native session may go and come. -/
theorem withOpened (htold : Told standing history) (hlocked : standing.isLocked = true) (opened : Option Nat) :
    Told { standing with opened } history := by
  refine ⟨htold.state_eq, htold.slot_eq, fun _ _ hunlocked => ?_⟩
  cases hlocked.symm.trans hunlocked

theorem withHandles {handles : Nat} (htold : Told standing history) (hhandle : 0 < handles → 0 < standing.handles) :
    Told { standing with handles } history :=
  ⟨htold.state_eq, fun h => htold.slot_eq (hhandle h), fun hready h => htold.opened_of_ready hready (hhandle h)⟩

/-- Without a handle, only the state is told. -/
theorem ofGone (hstate : standing.state = history.state) (hgone : standing.handles = 0) : Told standing history := by
  refine ⟨hstate, fun hhandle => ?_, fun _ hhandle => ?_⟩ <;> exact absurd hgone (Nat.ne_of_gt hhandle)

end Told

namespace Anchored

variable {pinned : Nat} {before between after : Standing}

theorem refl (pinned : Nat) (standing : Standing) : Anchored pinned standing standing :=
  ⟨rfl, Nat.min_le_right _ _, fun _ => rfl⟩

theorem trans (hfirst : Anchored pinned before between) (hthen : Anchored pinned between after) :
    Anchored pinned before after := by
  refine ⟨hthen.isLocked_eq.trans hfirst.isLocked_eq, ?_, ?_⟩
  · have hhandles := hfirst.le_handles
    have hhandles' := hthen.le_handles
    omega
  · intro hlocked
    rw [hthen.opened_eq (hfirst.isLocked_eq.trans hlocked), hfirst.opened_eq hlocked]

/-- Whoever took the lock gives it back. -/
theorem unlocked (hanchored : Anchored pinned { before with isLocked := true } after)
    (hunlocked : before.isLocked = false) : Anchored pinned before { after with isLocked := false } := by
  refine ⟨hunlocked.symm, hanchored.le_handles, fun hlocked => ?_⟩
  cases hunlocked.symm.trans hlocked

theorem handles_pos (hanchored : Anchored pinned before after) (hpinned : 0 < pinned) (hhandle : 0 < before.handles) :
    0 < after.handles := by
  have hhandles := hanchored.le_handles
  omega

end Anchored

theorem Undisturbed.anchored {pinned : Nat} {before after : Session}
    (hundisturbed : Undisturbed pinned before.holding after.holding) :
    Anchored pinned before.standing after.standing :=
  ⟨hundisturbed.isLocked_eq, hundisturbed.le_handles, hundisturbed.opened_eq⟩

/-- The outline on top of custody. A native session is made or there is no system for it, and a key request hands out what the slot holds when it stops waiting. -/
def chronicle : Outline where
  Holds _ session history := Told session.standing history
  Rely pinned before after := Anchored pinned before.standing after.standing
  Report record _ history :=
    match record with
    | ⟨.call (.generate initData customData), _, asked, _⟩ =>
      (∃ session, ⟨session, .construct initData customData⟩ ∈ asked) ∨
        ∃ keySystem earlier, history = .replied (.createSystem keySystem) false :: earlier
    | ⟨.call (.keyRequest _), _, _, request⟩ => request = history.slot.bind PendingChallenge.request?
    | _ => True
  rely_refl pinned session := .refl pinned session.standing
  rely_trans := .trans

theorem Outline.Resumes.anchored {pinned : Nat} {request : Request} {before after : Session} {earlier later : History}
    (hback : chronicle.Resumes pinned request before earlier after later) :
    Anchored pinned before.standing after.standing := by
  cases hquiet : isQuiet request with
  | true =>
    rw [(hback.quiet hquiet).1]
    exact .refl pinned before.standing
  | false => exact hback.rely hquiet

end ContentProtection.Native
