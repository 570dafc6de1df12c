import ContentProtection.Duration
import ContentProtection.Error
import ContentProtection.Interaction

/-!
# Hardware errors

After a hardware error of the content decryption module the secure pipeline is in an unknown state. The vendor's helper processes are stopped, each name in turn, and then the own process ends. Names without a process and processes that cannot be stopped change nothing about what comes after them.
-/

namespace ContentProtection.Termination

inductive Request
  /-- Asks for the processes that have a command name. -/
  | lookup (name : String)
  | kill (process : Int)
  /-- Lets logs reach their sinks. -/
  | pause (duration : Duration)
  | terminateSelf
  deriving DecidableEq, Repr

def Reply : Request → Type
  | .lookup _ => List Int
  | .kill _ => Except SystemFault Unit
  | .pause _ | .terminateSelf => Unit

abbrev processTable : Interface := ⟨Request, Reply⟩

abbrev Operation (α : Type) := Program processTable Unit α

def ask (request : Request) : Operation (Reply request) := fun state => .ask state request .done

structure Settings where
  /-- The command names of the vendor's helper processes. -/
  helperProcesses : List String := ["WPEcdmi"]
  flushDelayMs : UInt64 := 1000
  deriving DecidableEq, Repr

def kill (process : Int) : Operation Unit := do
  let _ ← ask (.kill process)

def stopHelper (name : String) : Operation Unit := do
  let processes ← ask (.lookup name)
  processes.forM kill

def onHardwareError (settings : Settings) : Operation Unit := do
  settings.helperProcesses.forM stopHelper
  ask (.pause (Duration.ofMilliseconds settings.flushDelayMs.toNat))
  ask .terminateSelf

end ContentProtection.Termination
