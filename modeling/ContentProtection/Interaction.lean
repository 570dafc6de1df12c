/-!
# Interactions

An operation on a session asks its collaborators for things: a content decryption module for a new session, a license server for a license, a latch to be signalled. An interaction is such an operation as a tree: it is done with a value, or it asks a request and goes on with the reply.

The state stands open at every request. While a collaborator works on it, events may arrive and other operations may run, so the operation goes on from whatever state it finds then. A run is therefore fixed by the replies and by what happens to the state while they are awaited.
-/

namespace ContentProtection

/-- Requests, with the type of the reply to each. -/
structure Interface where
  Request : Type
  Reply : Request → Type

inductive Interaction (I : Interface) (σ α : Type)
  | done (state : σ) (value : α)
  | ask (state : σ) (request : I.Request) (resume : σ → I.Reply request → Interaction I σ α)

/-- An operation: the interaction that it is from each state. -/
def Program (I : Interface) (σ α : Type) := σ → Interaction I σ α

namespace Interaction

variable {I : Interface} {σ α β : Type}

/-- Goes on with a program once the interaction is done. -/
def andThen (program : α → Program I σ β) : Interaction I σ α → Interaction I σ β
  | done state value => program value state
  | ask state request resume => ask state request fun state reply => (resume state reply).andThen program

end Interaction

namespace Program

variable {I : Interface} {σ α β : Type}

instance : Monad (Program I σ) where
  pure value := fun state => .done state value
  bind program next := fun state => (program state).andThen next

instance : MonadStateOf σ (Program I σ) where
  get := fun state => .done state state
  set state := fun _ => .done state ()
  modifyGet f := fun state => .done (f state).2 (f state).1

end Program

end ContentProtection
