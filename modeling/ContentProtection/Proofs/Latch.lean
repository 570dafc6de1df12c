import ContentProtection.Native.Session
import Mathlib.Logic.Function.Basic
import Mathlib.Tactic.Tauto

/-!
# Threads at a latch

Any number of threads wait for one latch, each with a timeout of its own, while others signal and reset it. A signal wakes all that wait. Each of them looks at the latch when its turn comes, and the look takes the signal. So a signal serves one thread only, the first that looks; a thread that looks after it waits on or, when its timeout is over, returns without a signal.
-/

namespace ContentProtection.Latch

/-! ### Threads and moves -/

/-- Where a thread stands. One that was woken is about to look at the latch again. -/
inductive Status
  | away
  | waiting (timeout : Duration) (woken : Bool)
  | returned (taken : Bool)
  deriving DecidableEq

/-- A latch with all threads that may wait for it. -/
structure Monitor (Thread : Type) where
  latch : Latch := {}
  status : Thread → Status := fun _ => .away

/-- What happens at once, with the latch locked. -/
inductive Move (Thread : Type)
  | signal
  | reset
  | start (thread : Thread) (timeout : Duration)
  | recheck (thread : Thread)
  | timeOut (thread : Thread)
  /-- A thread that waits is woken without a signal. -/
  | stir (thread : Thread)
  deriving DecidableEq

namespace Move

variable {Thread : Type}

/-- The thread that looks at the latch, if one does. -/
def looker? : Move Thread → Option Thread
  | start thread _ | recheck thread | timeOut thread => some thread
  | _ => none

/-- Whether a signal that is there stays. -/
def spares : Move Thread → Bool
  | signal | stir _ => true
  | _ => false

end Move

namespace Monitor

variable {Thread : Type} [DecidableEq Thread]

def signal (monitor : Monitor Thread) : Monitor Thread where
  latch := monitor.latch.signal
  status thread :=
    match monitor.status thread with
    | .waiting timeout _ => .waiting timeout true
    | status => status

/-- A thread takes the signal and returns. Without a signal it goes on as told. -/
def look (monitor : Monitor Thread) (thread : Thread) (missed : Status) : Monitor Thread :=
  let (taken, latch) := monitor.latch.take
  ⟨latch, Function.update monitor.status thread (if taken then .returned true else missed)⟩

/-- The monitor after a move, if it can be made. -/
def move? (monitor : Monitor Thread) : Move Thread → Option (Monitor Thread)
  | .signal => some monitor.signal
  | .reset => some { monitor with latch := monitor.latch.reset }
  | .start thread timeout =>
    match monitor.status thread with
    | .waiting _ _ => none
    | _ => some (monitor.look thread (.waiting timeout false))
  | .recheck thread =>
    match monitor.status thread with
    | .waiting timeout true => some (monitor.look thread (.waiting timeout false))
    | _ => none
  | .timeOut thread =>
    match monitor.status thread with
    | .waiting timeout _ => if timeout.nanoseconds = 0 then none else some (monitor.look thread (.returned false))
    | _ => none
  | .stir thread =>
    match monitor.status thread with
    | .waiting timeout _ =>
      some { monitor with status := Function.update monitor.status thread (.waiting timeout true) }
    | _ => none

def run? (monitor : Monitor Thread) : List (Move Thread) → Option (Monitor Thread)
  | [] => some monitor
  | move :: moves => (monitor.move? move).bind fun next => next.run? moves

/-! ### What a look finds -/

variable {monitor next after : Monitor Thread} {move : Move Thread} {moves : List (Move Thread)} {thread : Thread}
  {timeout : Duration}

@[simp]
theorem latch_look (missed : Status) : (monitor.look thread missed).latch = {} := rfl

@[simp]
theorem status_look (missed : Status) :
    (monitor.look thread missed).status thread =
      if monitor.latch.isSignalled then .returned true else missed :=
  Function.update_self ..

theorem status_look_of_ne {other : Thread} (hother : other ≠ thread) (missed : Status) :
    (monitor.look other missed).status thread = monitor.status thread :=
  Function.update_of_ne hother.symm ..

/-- A look starts a wait, or it goes on with one or ends it. -/
theorem look_of_move? (hmove : monitor.move? move = some next) (hlooker : move.looker? = some thread) :
    ∃ missed, next = monitor.look thread missed ∧
      ∀ timeout woken, monitor.status thread = .waiting timeout woken →
        missed = .waiting timeout false ∨ missed = .returned false := by
  cases move with
  | signal | reset | stir => cases hlooker
  | start starter timeout =>
    cases hlooker
    simp only [move?] at hmove
    split at hmove
    · cases hmove
    · rename_i hnot
      exact ⟨_, (Option.some.inj hmove).symm, fun timeout woken hwaiting => absurd hwaiting (hnot timeout woken)⟩
  | recheck waiter =>
    cases hlooker
    simp only [move?] at hmove
    split at hmove
    · rename_i timeout hwaiting
      refine ⟨_, (Option.some.inj hmove).symm, fun timeout' woken hwaiting' => .inl ?_⟩
      cases hwaiting.symm.trans hwaiting'
      rfl
    · cases hmove
  | timeOut waiter =>
    cases hlooker
    simp only [move?] at hmove
    split at hmove
    · split at hmove
      · cases hmove
      · exact ⟨_, (Option.some.inj hmove).symm, fun _ _ _ => .inr rfl⟩
    · cases hmove

theorem isSignalled_of_move? (hmove : monitor.move? move = some next) :
    next.latch.isSignalled = true ↔ move = .signal ∨ move.spares = true ∧ monitor.latch.isSignalled = true := by
  cases hlooker : move.looker? with
  | some thread =>
    obtain ⟨missed, rfl, -⟩ := look_of_move? hmove hlooker
    cases move <;> simp_all [Move.looker?, Move.spares]
  | none =>
    cases move with
    | start | recheck | timeOut => cases hlooker
    | signal =>
      cases hmove
      simp [signal, Latch.signal]
    | reset =>
      cases hmove
      simp [Latch.reset, Move.spares]
    | stir waiter =>
      simp only [move?] at hmove
      split at hmove
      · cases hmove
        simp [Move.spares]
      · cases hmove

/-- A thread that was woken stays so until it looks. -/
theorem status_of_move? (hmove : monitor.move? move = some next) (hwoken : monitor.status thread = .waiting timeout true)
    (hother : move.looker? ≠ some thread) : next.status thread = .waiting timeout true := by
  cases hlooker : move.looker? with
  | some other =>
    obtain ⟨missed, rfl, -⟩ := look_of_move? hmove hlooker
    have hne : other ≠ thread := by
      rintro rfl
      exact hother hlooker
    rw [status_look_of_ne hne, hwoken]
  | none =>
    cases move with
    | start | recheck | timeOut => cases hlooker
    | signal =>
      cases hmove
      simp [signal, hwoken]
    | reset =>
      cases hmove
      exact hwoken
    | stir waiter =>
      simp only [move?] at hmove
      split at hmove
      · rename_i timeout' woken hwaiting
        cases hmove
        by_cases heq : thread = waiter
        · subst heq
          cases hwaiting.symm.trans hwoken
          exact Function.update_self ..
        · exact (Function.update_of_ne heq ..).trans hwoken
      · cases hmove

/-! ### Runs -/

theorem status_of_run? (hrun : monitor.run? moves = some after) (hwoken : monitor.status thread = .waiting timeout true)
    (hothers : ∀ move ∈ moves, move.looker? ≠ some thread) : after.status thread = .waiting timeout true := by
  induction moves generalizing monitor with
  | nil =>
    cases hrun
    exact hwoken
  | cons move moves ih =>
    obtain ⟨next, hmove, hrest⟩ := Option.bind_eq_some_iff.mp hrun
    obtain ⟨hother, hothers⟩ := List.forall_mem_cons.mp hothers
    exact ih hrest (status_of_move? hmove hwoken hother) hothers

end Monitor

variable {Thread : Type}

/-- The latch was neither looked at nor reset since it was last signalled. -/
def Untaken (moves : List (Move Thread)) : Prop :=
  ∃ earlier later, moves = earlier ++ .signal :: later ∧ ∀ move ∈ later, move.spares = true

theorem untaken_cons {move : Move Thread} {moves : List (Move Thread)} :
    Untaken (move :: moves) ↔ Untaken moves ∨ move = .signal ∧ ∀ other ∈ moves, other.spares = true := by
  constructor
  · rintro ⟨earlier, later, heq, hlater⟩
    rcases List.cons_eq_append_iff.mp heq with ⟨-, hhead⟩ | ⟨earlier', rfl, hrest⟩
    · cases hhead
      exact .inr ⟨rfl, hlater⟩
    · exact .inl ⟨earlier', later, hrest, hlater⟩
  · rintro (⟨earlier, later, rfl, hlater⟩ | ⟨rfl, hlater⟩)
    · exact ⟨move :: earlier, later, rfl, hlater⟩
    · exact ⟨[], moves, rfl, hlater⟩

theorem Untaken.signal_mem {moves : List (Move Thread)} (huntaken : Untaken moves) : .signal ∈ moves := by
  obtain ⟨earlier, later, rfl, -⟩ := huntaken
  simp

namespace Monitor

variable [DecidableEq Thread] {monitor after : Monitor Thread} {moves : List (Move Thread)}

theorem isSignalled_of_run? (hrun : monitor.run? moves = some after) :
    after.latch.isSignalled = true ↔
      Untaken moves ∨ monitor.latch.isSignalled = true ∧ ∀ move ∈ moves, move.spares = true := by
  induction moves generalizing monitor with
  | nil =>
    cases hrun
    simp [Untaken]
  | cons move moves ih =>
    obtain ⟨next, hmove, hrest⟩ := Option.bind_eq_some_iff.mp hrun
    rw [ih hrest, isSignalled_of_move? hmove, untaken_cons, List.forall_mem_cons]
    tauto

/-- A thread that waits when the latch is signalled is woken. Its next look returns the signal if and only if nobody has looked and nobody has reset the latch since it was signalled last; else the thread waits on or returns without a signal. So when no other signal follows, only the first thread that looks is served. -/
theorem first_look_served_iff {between : Monitor Thread} {thread : Thread} {timeout : Duration} {woken : Bool}
    {look : Move Thread} (hwaiting : monitor.status thread = .waiting timeout woken)
    (hrun : monitor.run? (.signal :: moves) = some between) (hothers : ∀ move ∈ moves, move.looker? ≠ some thread)
    (hlooker : look.looker? = some thread) (hlook : between.move? look = some after) :
    between.status thread = .waiting timeout true ∧
      (after.status thread = .returned true ↔ Untaken (.signal :: moves)) ∧
      (after.status thread ≠ .returned true →
        after.status thread = .waiting timeout false ∨ after.status thread = .returned false) ∧
      (.signal ∉ moves → (after.status thread = .returned true ↔ ∀ move ∈ moves, move.spares = true)) := by
  have hwoken : monitor.signal.status thread = .waiting timeout true := by
    simp only [signal, hwaiting]
  have hrest : monitor.signal.run? moves = some between := hrun
  have hstill : between.status thread = .waiting timeout true := status_of_run? hrest hwoken hothers
  have hsignalled : between.latch.isSignalled = true ↔ Untaken (.signal :: moves) := by
    rw [isSignalled_of_run? hrun, List.forall_mem_cons, untaken_cons]
    tauto
  obtain ⟨missed, rfl, hmissed⟩ := look_of_move? hlook hlooker
  have hserved : (between.look thread missed).status thread = .returned true ↔ Untaken (.signal :: moves) := by
    rw [← hsignalled, status_look]
    rcases hmissed timeout true hstill with rfl | rfl <;> simp
  refine ⟨hstill, hserved, ?_, ?_⟩
  · intro hunserved
    rw [status_look] at hunserved ⊢
    split at hunserved
    · exact absurd rfl hunserved
    · rename_i hnot
      rw [if_neg hnot]
      exact hmissed timeout true hstill
  · intro honce
    rw [hserved, untaken_cons]
    exact ⟨fun huntaken => (huntaken.resolve_left (honce ·.signal_mem)).2, fun hspared => .inr ⟨rfl, hspared⟩⟩

/-- After another signal, a second thread is served although a third one came between. -/
theorem first_look_served_iff_of_second_signal :
    let monitor : Monitor (Fin 3) := { status := fun thread => if thread = 2 then .away else .waiting ⟨0⟩ false }
    let moves : List (Move (Fin 3)) := [.recheck 0, .start 2 (.ofSeconds 1), .signal]
    ∃ between after, monitor.run? (.signal :: moves) = some between ∧ between.move? (.recheck 1) = some after ∧
      between.status 1 = .waiting ⟨0⟩ true ∧ after.status 1 = .returned true ∧ between.status 0 = .returned true ∧
      between.status 2 = .waiting (.ofSeconds 1) true := by
  intro monitor moves
  have hwaiting : monitor.status 1 = .waiting ⟨0⟩ false := rfl
  have hothers : ∀ move ∈ moves, move.looker? ≠ some 1 := by decide
  have hserved := first_look_served_iff hwaiting (Eq.refl (monitor.run? (.signal :: moves))) hothers
    (Eq.refl (Move.looker? (.recheck 1))) rfl
  refine ⟨_, _, rfl, rfl, hserved.1, hserved.2.1.mpr ?_, rfl, rfl⟩
  exact ⟨[.signal, .recheck 0, .start 2 (.ofSeconds 1)], [], rfl, by simp⟩

/-- Three threads wait for one signal. The first that looks is served, the second goes on to wait, and the third returns without a signal. -/
theorem one_of_three_served :
    let monitor : Monitor (Fin 3) :=
      { status := fun thread => .waiting (if thread = 2 then .ofSeconds 1 else ⟨0⟩) false }
    ∃ after, monitor.run? [.signal, .recheck 0, .recheck 1, .timeOut 2] = some after ∧
      after.status 0 = .returned true ∧ after.status 1 = .waiting ⟨0⟩ false ∧ after.status 2 = .returned false :=
  ⟨_, rfl, rfl, rfl, rfl⟩

end Monitor

/-- An operation of a native session that awaits a signal is such a thread: it looks when it starts and once more after waiting. -/
theorem await_eq (which : Session.Signal) (timeout : Duration) (session : Native.Session) :
    Native.await which timeout session =
      if (session.latch which).take.1 then .done (session.setLatch (session.latch which).take.2 which) true
      else .ask (session.setLatch (session.latch which).take.2 which) (.wait which timeout) fun after _ =>
        .done (after.setLatch (after.latch which).take.2 which) (after.latch which).take.1 := by
  have hlook : Native.await which timeout session =
      (if (session.latch which).take.1 then pure true else do
        Session.ask (.wait which timeout)
        Native.takeSignal which : Native.Operation Bool) (session.setLatch (session.latch which).take.2 which) := rfl
  rw [hlook]
  split <;> rfl

end ContentProtection.Latch
