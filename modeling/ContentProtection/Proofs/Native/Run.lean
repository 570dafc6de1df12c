import ContentProtection.Native.Event

/-!
# Runs of native sessions

A run is all that happens to one session: the calls of its host, the events that the module fires, the replies of collaborators and what the platform says about the output, in the order in which they happen. Calls and events are activities. One that awaits a reply is suspended, and what may begin meanwhile depends on what it asked for: events, unless the collaborator gives no chance for them, and further calls from inside the side channel. So a moment of a run is the session, a stack of suspended activities and the history so far.

A run is determined by its moves. Nobody ever replies to an activity that waits for the session lock: with one call at a time, only a suspended activity can hold it.
-/

namespace ContentProtection.Native

open ContentProtection.Session (Contract Fault KeyRequest Reply Request collaborators)

/-! ### Activities -/

/-- What a host can do with a session. -/
inductive Call
  | generate (initData : Bytes) (customData : Option Bytes)
  | keyRequest (timeout : Duration)
  | process (license : Option LicenseData) (timeout : Duration)
  | decrypt (encryption : Sample.Encryption) (payload : Bytes)
  | waitForState (state : KeyState) (timeout : Duration)
  | clear
  | setMemory (memory : Option MemoryId)
  | setOutputProtection (enabled : Bool)
  | setSecurityManager (handle : Option Int)
  /-- The platform says something else about the output from now on. A session asks only when a decryption begins, which no event does, so it is enough that this comes where calls may come. -/
  | changeOutputLink (link : OutputLink)
  | retain
  | release

namespace Call

def Result : Call → Type
  | keyRequest _ => Option KeyRequest
  | process _ _ => Except Fault Unit
  | decrypt _ _ => Except Fault Unit × Bytes
  | waitForState _ _ => Bool
  | generate _ _ | clear | setMemory _ | setOutputProtection _ | setSecurityManager _ | changeOutputLink _ | retain
  | release => Unit

def program : (call : Call) → Operation call.Result
  | generate initData customData => Native.generate initData customData
  | keyRequest timeout => Native.keyRequest timeout
  | process license timeout => Native.process license timeout
  | decrypt encryption payload => Native.decrypt encryption payload
  | waitForState state timeout => Native.waitForState state timeout
  | clear => Native.clear
  | setMemory memory => Native.setMemory memory
  | setOutputProtection enabled => modify fun session : Session => Contract.setOutputProtection session enabled
  | setSecurityManager handle => modify fun session : Session => Contract.setSecurityManager session handle
  | changeOutputLink link => modify fun session : Session => { session with outputLink := link }
  | retain => Native.retain
  | release => Native.release

end Call

inductive Activity
  | event (fired : Event)
  | call (made : Call)

namespace Activity

def Result : Activity → Type
  | event _ => Unit
  | call made => made.Result

def program : (activity : Activity) → Operation activity.Result
  | event fired => deliver fired
  | call made => made.program

/-- The handles that are in use during the activity, when some are in use already. A call borrows a handle, which may be one of those; an event has one of its own; a handle that is given up is not in use any more. -/
def pins (activity : Activity) (pinned : Nat) : Nat :=
  match activity with
  | event _ => pinned + 1
  | call .release => pinned
  | call _ => max 1 pinned

/-- Whether there is a handle for the activity, of which only those not in use can be given up. -/
def hasHandle (activity : Activity) (pinned handles : Nat) : Bool :=
  match activity with
  | event _ => true
  | call .release => pinned < handles
  | call _ => 0 < handles

end Activity

/-! ### Requests -/

/-- Whether nothing begins before the reply. A status is asked for with the key material in hand, and whoever waits for the lock waits for good. -/
def isQuiet : Request → Bool
  | .queryStatus _ _ | .hardwareError _ | .waitForLock => true
  | _ => false

/-- What may begin while a reply is awaited. Only the side channel is in the host's hands, so only there calls are made. -/
def admits : Request → Activity → Bool
  | .individualize _, _ | .renew, _ => true
  | request, .event _ => !isQuiet request
  | _, .call _ => false

/-! ### History -/

/-- A request and the session at that moment. -/
structure Asked where
  session : Session
  request : Request

/-- An activity that has ended: the session when it began, what it asked for itself, latest first, and its result. -/
structure Record where
  activity : Activity
  entry : Session
  asked : List Asked
  result : activity.Result

inductive Entry
  | began (activity : Activity)
  | asked (request : Request)
  | replied (request : Request) (reply : Reply request)
  | ended (record : Record)

/-- Entries, latest first. -/
abbrev History := List Entry

def Entry.request? : Entry → Option Request
  | asked request => some request
  | _ => none

/-- All requests to collaborators, latest first. -/
def History.requests (history : History) : List Request := history.filterMap Entry.request?

/-! ### Moments and moves -/

/-- A suspended activity. -/
structure Frame where
  activity : Activity
  entry : Session
  asked : List Asked
  request : Request
  resume : Session → Reply request → Interaction collaborators Session activity.Result

/-- The handles that suspended activities use. -/
def pinned : List Frame → Nat
  | [] => 0
  | frame :: frames => frame.activity.pins (pinned frames)

structure Moment where
  session : Session
  /-- The suspended activities, the one that goes on first at the head. -/
  frames : List Frame := []
  history : History := []

inductive Move
  | begin (activity : Activity)
  | reply (request : Request) (reply : Reply request)

namespace Moment

def initial (setting : Setting) : Moment := { session := Session.ofSetting setting }

/-- Goes on with an activity up to its next request or its end. -/
def advance (activity : Activity) (entry : Session) (asked : List Asked) (frames : List Frame) (history : History) :
    Interaction collaborators Session activity.Result → Moment
  | .done session result => ⟨session, frames, .ended ⟨activity, entry, asked, result⟩ :: history⟩
  | .ask session request resume =>
    ⟨session, ⟨activity, entry, ⟨session, request⟩ :: asked, request, resume⟩ :: frames, .asked request :: history⟩

def begin (moment : Moment) (activity : Activity) : Moment :=
  advance activity moment.session [] moment.frames (.began activity :: moment.history)
    (activity.program moment.session)

/-- Whether an activity may begin now. -/
def mayBegin (moment : Moment) (activity : Activity) : Bool :=
  activity.hasHandle (pinned moment.frames) moment.session.handles &&
    match moment.frames with
    | [] => true
    | frame :: _ => admits frame.request activity

def move? (moment : Moment) : Move → Option Moment
  | .begin activity => if moment.mayBegin activity then some (moment.begin activity) else none
  | .reply request reply =>
    match moment.frames with
    | [] => none
    | frame :: frames =>
      if h : frame.request = request ∧ request ≠ .waitForLock then
        some (advance frame.activity frame.entry frame.asked frames (.replied request reply :: moment.history)
          (frame.resume moment.session (h.1 ▸ reply)))
      else none

/-- The moment after some moves, if each of them is possible. -/
def run? : Moment → List Move → Option Moment
  | moment, [] => some moment
  | moment, move :: moves => (moment.move? move).bind (run? · moves)

end Moment

/-- A moment that some run of a given session leads to. -/
def ReachableFrom (start : Session) (moment : Moment) : Prop :=
  ∃ moves, ({ session := start } : Moment).run? moves = some moment

/-- A moment that some run of a session leads to. -/
def Reachable (setting : Setting) (moment : Moment) : Prop :=
  ∃ moves, (Moment.initial setting).run? moves = some moment

/-- What each move of a run keeps is kept by the run. -/
theorem Moment.run?_preserves_of_mem {property : Moment → Prop} {moment moment' : Moment} {moves : List Move}
    (hmove : ∀ move ∈ moves, ∀ moment moment', property moment → moment.move? move = some moment' → property moment')
    (hstart : property moment) (hrun : moment.run? moves = some moment') : property moment' := by
  induction moves generalizing moment with
  | nil =>
    cases hrun
    exact hstart
  | cons move moves ih =>
    obtain ⟨next, hnext, hrest⟩ := Option.bind_eq_some_iff.mp hrun
    refine ih (fun move hmem => hmove move (.tail _ hmem)) ?_ hrest
    exact hmove move List.mem_cons_self moment next hstart hnext

/-- What every possible move keeps is kept by every run. -/
theorem Moment.run?_preserves {property : Moment → Prop}
    (hmove : ∀ moment move moment', property moment → moment.move? move = some moment' → property moment')
    {moment moment' : Moment} {moves : List Move} (hstart : property moment)
    (hrun : moment.run? moves = some moment') : property moment' :=
  run?_preserves_of_mem (fun move _ moment moment' => hmove moment move moment') hstart hrun

/-! ### Reachable moments -/

theorem Moment.run?_cons {moment next : Moment} {move : Move} {moves : List Move}
    (hmove : moment.move? move = some next) : moment.run? (move :: moves) = next.run? moves := by
  rw [run?, hmove]
  rfl

theorem Moment.run?_append (moment : Moment) (moves moves' : List Move) :
    moment.run? (moves ++ moves') = (moment.run? moves).bind (run? · moves') := by
  induction moves generalizing moment with
  | nil => rfl
  | cons move moves ih =>
    rw [List.cons_append, run?, run?, Option.bind_assoc]
    exact congrArg _ (funext ih)

namespace ReachableFrom

variable {start : Session} {moment moment' : Moment}

theorem run {moves : List Move} (hreach : ReachableFrom start moment) (hrun : moment.run? moves = some moment') :
    ReachableFrom start moment' := by
  obtain ⟨before, hbefore⟩ := hreach
  refine ⟨before ++ moves, ?_⟩
  rw [Moment.run?_append, hbefore]
  exact hrun

theorem move {move : Move} (hreach : ReachableFrom start moment) (hmove : moment.move? move = some moment') :
    ReachableFrom start moment' :=
  hreach.run (show moment.run? [move] = some moment' from Moment.run?_cons hmove)

end ReachableFrom

namespace Reachable

variable {setting : Setting} {moment moment' : Moment}

theorem run {moves : List Move} (hreach : Reachable setting moment) (hrun : moment.run? moves = some moment') :
    Reachable setting moment' :=
  ReachableFrom.run hreach hrun

theorem move {move : Move} (hreach : Reachable setting moment) (hmove : moment.move? move = some moment') :
    Reachable setting moment' :=
  ReachableFrom.move hreach hmove

/-- What holds at first and is kept by every move from a reachable moment holds at every reachable moment. -/
@[elab_as_elim]
theorem induct {motive : Moment → Prop} (hinitial : motive (Moment.initial setting))
    (hmove : ∀ moment move moment', Reachable setting moment → motive moment →
      moment.move? move = some moment' → motive moment') (hreach : Reachable setting moment) : motive moment := by
  obtain ⟨moves, hrun⟩ := hreach
  have hkept : ∀ moment move moment', Reachable setting moment ∧ motive moment →
      moment.move? move = some moment' → Reachable setting moment' ∧ motive moment' := by
    rintro moment move moment' ⟨hreach, hmotive⟩ hnext
    exact ⟨hreach.move hnext, hmove _ _ _ hreach hmotive hnext⟩
  exact (Moment.run?_preserves hkept ⟨⟨[], rfl⟩, hinitial⟩ hrun).2

end Reachable

/-- A move goes on with one activity: one that it begins or one that was suspended. -/
theorem Moment.move?_advances {moment moment' : Moment} {move : Move} (hmove : moment.move? move = some moment') :
    ∃ activity entry asked frames last interaction,
      moment' = advance activity entry asked frames (last :: moment.history) interaction ∧
      (∀ record, last ≠ .ended record) ∧ (∀ frame ∈ frames, frame ∈ moment.frames) ∧
      (last = .began activity ∧ entry = moment.session ∨
        ∃ frame ∈ moment.frames, frame.activity = activity ∧ frame.entry = entry) := by
  cases move with
  | begin activity =>
    rw [Moment.move?] at hmove
    split at hmove
    · cases hmove
      exact ⟨activity, moment.session, [], moment.frames, .began activity, activity.program moment.session, rfl,
        by simp, fun _ hframe => hframe, .inl ⟨rfl, rfl⟩⟩
    · cases hmove
  | reply request reply =>
    obtain ⟨session, frames, history⟩ := moment
    cases frames with
    | nil => cases hmove
    | cons frame frames =>
      simp only [Moment.move?] at hmove
      split at hmove
      · rename_i hrequest
        cases hmove
        exact ⟨frame.activity, frame.entry, frame.asked, frames, .replied request reply,
          frame.resume session (hrequest.1 ▸ reply), rfl, by simp, fun _ hframe => .tail _ hframe,
          .inr ⟨frame, List.mem_cons_self, rfl, rfl⟩⟩
      · cases hmove

/-! ### Where activities began -/

/-- The activity began at a moment of the run, and the session was as it is at that moment. -/
def BeganAt (start : Session) (activity : Activity) (entry : Session) (history : History) : Prop :=
  ∃ before since, ReachableFrom start before ∧ before.session = entry ∧
    history = since ++ .began activity :: before.history

theorem BeganAt.cons {start entry : Session} {activity : Activity} {history : History}
    (hbegan : BeganAt start activity entry history) (last : Entry) : BeganAt start activity entry (last :: history) := by
  obtain ⟨before, since, hbefore, hentry, rfl⟩ := hbegan
  exact ⟨before, last :: since, hbefore, hentry, rfl⟩

theorem BeganAt.mem {start entry : Session} {activity : Activity} {history : History}
    (hbegan : BeganAt start activity entry history) : .began activity ∈ history := by
  obtain ⟨before, since, -, -, rfl⟩ := hbegan
  exact List.mem_append_right _ List.mem_cons_self

/-- Whatever is suspended or has just ended began before. -/
structure Begun (start : Session) (moment : Moment) : Prop where
  reachable : ReachableFrom start moment
  frames : ∀ frame ∈ moment.frames, BeganAt start frame.activity frame.entry moment.history
  ended : ∀ record earlier, moment.history = .ended record :: earlier →
    BeganAt start record.activity record.entry earlier

theorem Begun.move {start : Session} {moment moment' : Moment} {move : Move} (hbegun : Begun start moment)
    (hmove : moment.move? move = some moment') : Begun start moment' := by
  obtain ⟨hreach, hframes, -⟩ := hbegun
  have hreach' := hreach.move hmove
  obtain ⟨activity, entry, asked, frames, last, interaction, rfl, -, hbelow, hbegan⟩ := Moment.move?_advances hmove
  have hactivity : BeganAt start activity entry (last :: moment.history) := by
    rcases hbegan with ⟨rfl, rfl⟩ | ⟨frame, hframe, rfl, rfl⟩
    · exact ⟨moment, [], hreach, rfl, rfl⟩
    · exact (hframes frame hframe).cons last
  have hothers : ∀ frame ∈ frames, BeganAt start frame.activity frame.entry (last :: moment.history) :=
    fun frame hframe => (hframes frame (hbelow frame hframe)).cons last
  cases interaction with
  | done session result =>
    refine ⟨hreach', fun frame hframe => (hothers frame hframe).cons _, ?_⟩
    intro record earlier hended
    obtain ⟨hrecord, rfl⟩ := List.cons.inj hended
    cases hrecord
    exact hactivity
  | ask session request resume =>
    refine ⟨hreach', ?_, fun record earlier hended => by cases (List.cons.inj hended).1⟩
    intro frame hframe
    rcases List.mem_cons.mp hframe with rfl | hframe
    · exact hactivity.cons _
    · exact (hothers frame hframe).cons _

theorem ReachableFrom.begun {start : Session} {moment : Moment} (hreach : ReachableFrom start moment) :
    Begun start moment := by
  obtain ⟨moves, hrun⟩ := hreach
  refine Moment.run?_preserves (fun _ _ _ hbegun hmove => hbegun.move hmove) ?_ hrun
  exact ⟨⟨[], rfl⟩, fun _ hframe => (List.not_mem_nil hframe).elim, fun _ _ hended => by cases hended⟩

namespace Reachable

variable {setting : Setting} {moment : Moment}

/-- The end of an activity was the last entry at some moment of the run. -/
theorem at_end {record : Record} {earlier : History} (hreach : Reachable setting moment) :
    ∀ later, moment.history = later ++ .ended record :: earlier →
      ∃ before, Reachable setting before ∧ before.history = .ended record :: earlier := by
  refine induct ?_ ?_ hreach
  · intro later hhistory
    simp [Moment.initial] at hhistory
  intro moment move moment' hreach hbefore hmove later hhistory
  have hreach' : Reachable setting moment' := hreach.move hmove
  obtain ⟨activity, entry, asked, frames, last, interaction, rfl, hlast, -⟩ := Moment.move?_advances hmove
  cases later with
  | nil => exact ⟨_, hreach', hhistory⟩
  | cons first later =>
    have hrest : last :: moment.history = later ++ .ended record :: earlier := by
      cases interaction <;> exact (List.cons.inj hhistory).2
    cases later with
    | nil => exact absurd (List.cons.inj hrest).1 (hlast record)
    | cons second later => exact hbefore later (List.cons.inj hrest).2

end Reachable

end ContentProtection.Native
