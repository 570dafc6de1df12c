import ContentProtection.Termination
import Mathlib.Data.List.Forall2

/-!
# The calls after a hardware error

A process table replies as it likes: what it finds may change with every process that is killed, and any process may survive. Whatever it replies, each name has its turn, in order, and the own process ends after the last one.
-/

namespace ContentProtection.Termination

/-! ### Calls -/

/-- A request with its reply. -/
abbrev Call := (request : Request) × Reply request

/-- A process table as its replies, which depend on what it has become so far. -/
structure ProcessTable (τ : Type) where
  answer : τ → (request : Request) → Reply request × τ

namespace ProcessTable

variable {τ α β : Type} (table : ProcessTable τ)

/-- The calls that an interaction makes, its value, and what becomes of the table. -/
def serve : τ → Interaction processTable Unit α → List Call × α × τ
  | now, .done _ value => ([], value, now)
  | now, .ask state request resume =>
    let (reply, next) := table.answer now request
    let (calls, result) := serve next (resume state reply)
    (⟨request, reply⟩ :: calls, result)

/-- Whether every reply is the one that the table gives after the calls before it. -/
def Answers : τ → List Call → Prop
  | _, [] => True
  | now, ⟨request, reply⟩ :: calls =>
    (table.answer now request).1 = reply ∧ Answers (table.answer now request).2 calls

theorem answers_serve (now : τ) (interaction : Interaction processTable Unit α) :
    table.Answers now (table.serve now interaction).1 := by
  induction interaction generalizing now with
  | done state value => trivial
  | ask state request resume ih => exact ⟨rfl, ih state _ _⟩

theorem serve_andThen (now : τ) (interaction : Interaction processTable Unit α) (next : α → Operation β) :
    table.serve now (interaction.andThen next) =
      let (calls, value, later) := table.serve now interaction
      let (furtherCalls, result) := table.serve later (next value ())
      (calls ++ furtherCalls, result) := by
  induction interaction generalizing now with
  | done state value => rfl
  | ask state request resume ih =>
    simp only [Interaction.andThen, serve, ih, List.cons_append]

/-- Whether the calls of an operation are always of a form. -/
def Makes (operation : Operation Unit) (form : List Call → Prop) : Prop :=
  ∀ now, form (table.serve now (operation ())).1

variable {table}

theorem makes_ask {request : Request} {form : List Call → Prop} {finish : Reply request → Operation Unit}
    (hform : ∀ reply, table.Makes (finish reply) fun calls => form (⟨request, reply⟩ :: calls)) :
    table.Makes (ask request >>= finish) form :=
  fun now => hform (table.answer now request).1 (table.answer now request).2

theorem Makes.andThen {first second : Operation Unit} {form form' : List Call → Prop}
    (hfirst : table.Makes first form) (hsecond : table.Makes second form') :
    table.Makes (do first; second) fun calls =>
      ∃ before after, calls = before ++ after ∧ form before ∧ form' after := by
  intro now
  have hserve := table.serve_andThen now (first ()) fun _ => second
  exact ⟨_, _, congrArg Prod.fst hserve, hfirst now, hsecond _⟩

/-- A loop takes its turns in the order of its list, and none is left out. -/
theorem makes_forM {ι : Type} {step : ι → Operation Unit} {form : ι → List Call → Prop}
    (hstep : ∀ item, table.Makes (step item) (form item)) (items : List ι) :
    table.Makes (items.forM step) fun calls => ∃ turns, List.Forall₂ form items turns ∧ calls = turns.flatten := by
  induction items with
  | nil => exact fun now => ⟨[], .nil, rfl⟩
  | cons item items ih =>
    intro now
    obtain ⟨turn, rest, hcalls, hturn, turns, hturns, rfl⟩ := (hstep item).andThen ih now
    exact ⟨turn :: turns, .cons hturn hturns, hcalls⟩

end ProcessTable

/-! ### Turns -/

/-- The calls for one name: one lookup, and one attempt for each process that it found. -/
def IsTurn (name : String) (calls : List Call) : Prop :=
  ∃ (processes : List Int) (kills : List Call),
    calls = ⟨.lookup name, processes⟩ :: kills ∧ kills.map Sigma.fst = processes.map .kill

variable {τ : Type} {table : ProcessTable τ}

theorem makes_kill (process : Int) : table.Makes (kill process) fun calls => calls.map Sigma.fst = [.kill process] :=
  ProcessTable.makes_ask fun _ _ => rfl

theorem requests_flatten_of_kills {processes : List Int} {turns : List (List Call)}
    (hturns : List.Forall₂ (fun process calls => calls.map Sigma.fst = [Request.kill process]) processes turns) :
    turns.flatten.map Sigma.fst = processes.map .kill := by
  induction hturns with
  | nil => rfl
  | cons hturn _ ih =>
    rw [List.flatten_cons, List.map_append, hturn, ih]
    rfl

theorem makes_killAll (processes : List Int) :
    table.Makes (processes.forM kill) fun calls => calls.map Sigma.fst = processes.map .kill := by
  have hloop : table.Makes (processes.forM kill) _ := ProcessTable.makes_forM makes_kill processes
  intro now
  obtain ⟨turns, hturns, hcalls⟩ := hloop now
  rw [hcalls, requests_flatten_of_kills hturns]

theorem makes_stopHelper (name : String) : table.Makes (stopHelper name) (IsTurn name) :=
  ProcessTable.makes_ask fun processes now => ⟨processes, _, rfl, makes_killAll processes now⟩

theorem IsTurn.not_mem_terminateSelf {name : String} {calls : List Call} (hturn : IsTurn name calls) :
    Request.terminateSelf ∉ calls.map Sigma.fst := by
  obtain ⟨processes, kills, rfl, hkills⟩ := hturn
  rw [List.map_cons, hkills]
  simp

theorem not_mem_terminateSelf_flatten {names : List String} {turns : List (List Call)}
    (hturns : List.Forall₂ IsTurn names turns) : Request.terminateSelf ∉ turns.flatten.map Sigma.fst := by
  induction hturns with
  | nil => simp
  | cons hturn _ ih =>
    rw [List.flatten_cons, List.map_append, List.mem_append, not_or]
    exact ⟨hturn.not_mem_terminateSelf, ih⟩

/-- Whatever the table replies, each name is looked up once, in order, and each process found then is killed once before the next name; after the last name, logs are given their time, and the last call ends the own process. -/
theorem helpers_stopped_before_own_end (settings : Settings) (table : ProcessTable τ) (now : τ) :
    let calls := (table.serve now (onHardwareError settings ())).1
    table.Answers now calls ∧
      (∃ turns, List.Forall₂ IsTurn settings.helperProcesses turns ∧
        calls = turns.flatten ++
          [⟨.pause (Duration.ofMilliseconds settings.flushDelayMs.toNat), ()⟩, ⟨.terminateSelf, ()⟩]) ∧
      (calls.map Sigma.fst).count .terminateSelf = 1 := by
  intro calls
  have hloop : table.Makes (settings.helperProcesses.forM stopHelper) _ :=
    ProcessTable.makes_forM makes_stopHelper settings.helperProcesses
  have hend : table.Makes
      (do
        ask (.pause (Duration.ofMilliseconds settings.flushDelayMs.toNat))
        ask .terminateSelf)
      (· = [⟨.pause (Duration.ofMilliseconds settings.flushDelayMs.toNat), ()⟩, ⟨.terminateSelf, ()⟩]) :=
    ProcessTable.makes_ask fun _ _ => rfl
  obtain ⟨_, _, hcalls, ⟨turns, hturns, rfl⟩, rfl⟩ := hloop.andThen hend now
  change calls = _ at hcalls
  refine ⟨table.answers_serve now _, ⟨turns, hturns, hcalls⟩, ?_⟩
  have hnone := not_mem_terminateSelf_flatten hturns
  rw [hcalls, List.map_append, List.count_append, List.count_eq_zero.mpr hnone]
  rfl

/-! ### A table of running processes -/

/-- The running processes by name, some of which nobody can stop. -/
def ProcessTable.running (unstoppable : List Int) : ProcessTable (List (String × Int)) where
  answer
    | now, .lookup name => ((now.filter (·.1 = name)).map Prod.snd, now)
    | now, .kill process =>
      if process ∈ unstoppable then (.error .noSuchProcess, now) else (.ok (), now.filter (·.2 ≠ process))
    | now, .pause _ | now, .terminateSelf => ((), now)

/-- What is killed in the first turn is not found in the second one. -/
example :
    ((ProcessTable.running [7]).serve [("a", 7), ("b", 8), ("a", 9)]
        (onHardwareError { helperProcesses := ["a", "c", "a"], flushDelayMs := 0 } ())).1.map Sigma.fst =
      [.lookup "a", .kill 7, .kill 9, .lookup "c", .lookup "a", .kill 7, .pause (Duration.ofMilliseconds 0),
        .terminateSelf] := by
  decide

end ContentProtection.Termination
