import Framescript.Host
import Framescript.Log
import Framescript.Machine.CallStack
import Framescript.Machine.Input
import Framescript.Machine.Profile
import Framescript.Machine.Threads
import Framescript.Machine.Variables
import Framescript.Script

/-!
The machine, and the world in which it runs: the host that it calls and the log that it writes.
-/
namespace Framescript

/-- Settings of a machine. -/
structure Options where
  /-- The instructions that a slice may execute. -/
  instructionLimit : UInt64 := 1000000
  /-- Whether shown pages reach the display. -/
  render : Bool := true
  /-- Whether time is left between two shown pages. -/
  pacing : Bool := false
  deriving DecidableEq, Repr

/-- Settings for running without a display. -/
def Options.headless : Options := { render := false }

/-- A machine. -/
structure Machine where
  script : Script := {}
  vars : Variables := .initial
  threads : ThreadTable := .empty
  callStack : CallStack := .empty
  /-- The part whose code is loaded. -/
  currentPart : Option UInt16 := none
  /-- The part to switch to before the next frame. -/
  requestedPart : Option UInt16 := none
  keys : Keys := {}
  /-- Whether the slice that runs has ended. -/
  yielded : Bool := false
  /-- The offset of the instruction that was begun last. -/
  instrOffset : Nat := 0
  /-- The time when the last page was shown. -/
  lastShown : UInt32 := 0
  options : Options := {}
  profile : Profile := {}
  /-- Whether a fatal fault has stopped the machine. -/
  aborted : Bool := false
  deriving DecidableEq, Repr

namespace Machine

/-- The machine as at the start, with its code, its settings and its measurements kept. -/
def reset (m : Machine) : Machine :=
  { m with
    vars := .initial, threads := .empty, callStack := .empty, requestedPart := none, keys := {}, aborted := false }

/-- The machine with another value for a variable. -/
def setVariable (m : Machine) (index : UInt8) (value : Int16) : Machine :=
  { m with vars := m.vars.set index value }

/-- The machine with a switch to another part requested. The last request counts. -/
def requestPart (m : Machine) (part : UInt16) : Machine :=
  { m with requestedPart := some part }

end Machine

/-- A machine with its host and its log. -/
structure World (H : Type) where
  machine : Machine
  host : H
  log : Log := #[]

namespace World

variable {H : Type}

/-- The world with another line in the log. -/
def say (w : World H) (level : Level) (text : String) : World H :=
  { w with log := w.log.push ⟨level, text⟩ }

/-- The world with another machine. -/
def mapMachine (w : World H) (f : Machine → Machine) : World H :=
  { w with machine := f w.machine }

/-- The world with another value for a variable. -/
def setVariable (w : World H) (index : UInt8) (value : Int16) : World H :=
  w.mapMachine (·.setVariable index value)

/-- The value of a variable. -/
def read (w : World H) (index : UInt8) : Int16 :=
  w.machine.vars.get index

/-- The world with the script at another offset. -/
def jump (w : World H) (offset : UInt16) : World H :=
  w.mapMachine fun m => { m with script := m.script.jump offset }

/-- The world after a request to the host. -/
def call [Host H] (w : World H) (request : Call) : World H :=
  { w with host := Host.perform request w.host }

end World

end Framescript
