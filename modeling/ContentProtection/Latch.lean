/-!
# Latches

A latch stays signalled until someone takes the signal, so a signal that comes before the wait for it is not lost. Signals do not add up.
-/

namespace ContentProtection

structure Latch where
  isSignalled : Bool := false
  deriving DecidableEq, Repr

namespace Latch

def signal (_ : Latch) : Latch := ⟨true⟩

def reset (_ : Latch) : Latch := ⟨false⟩

/-- Takes the signal, if there is one. -/
def take (latch : Latch) : Bool × Latch := (latch.isSignalled, ⟨false⟩)

end Latch

end ContentProtection
