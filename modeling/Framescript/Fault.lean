import Framescript.Snapshot.Error
import Framescript.Text.Digits
import Framescript.Text.Quoted

/-!
What can go wrong while scripts run.
-/
namespace Framescript

/-- Why an operation of a machine failed. -/
inductive Fault where
  /-- No instruction has this opcode. -/
  | invalidInstruction (opcode : UInt8) (offset : Nat)
  /-- More bytes were read than the code has. -/
  | endOfCode (offset requested available : Nat)
  /-- An offset that sixteen bits cannot hold. -/
  | invalidOffset (offset : Nat)
  | callStackOverflow (offset depth : Nat)
  | callStackUnderflow (offset : Nat)
  /-- A slice used up its instructions without yielding. -/
  | limitExceeded (thread : Nat) (limit : UInt64)
  | invalidThread (thread : UInt8)
  | unknownPart (part : UInt16)
  /-- An earlier fault stopped the machine for good. -/
  | aborted
  /-- A token that denotes no player input. -/
  | invalidInput (token : List Char)
  | state (error : StateError)
  /-- A sum beyond the largest number. The whole program stops at it, not only a machine. -/
  | overflow
  deriving DecidableEq, Repr

namespace Fault

/-- The message for a fault. -/
def message : Fault → String
  | .invalidInstruction opcode offset =>
    s!"invalid instruction 0x{Text.hexText 2 opcode.toNat} at offset 0x{Text.hexText 4 offset}"
  | .endOfCode offset requested available =>
    s!"unexpected end of bytecode at 0x{Text.hexText 4 offset}: requested {requested} byte(s), {available} available"
  | .invalidOffset offset => s!"invalid instruction pointer 0x{Text.hexText 1 offset}"
  | .callStackOverflow offset depth => s!"call stack overflow at offset 0x{Text.hexText 4 offset} (depth {depth})"
  | .callStackUnderflow offset => s!"call stack underflow at offset 0x{Text.hexText 4 offset}"
  | .limitExceeded thread limit => s!"thread {thread} exceeded the instruction limit of {limit} without yielding"
  | .invalidThread thread => s!"thread index {thread} out of range"
  | .unknownPart part => s!"unknown part 0x{Text.hexText 4 part.toNat}"
  | .aborted => "virtual machine aborted after a fatal error"
  | .invalidInput token =>
    s!"invalid input token {Text.quoted token}: expected 5 characters of the form UDLRF with '.' for released buttons"
  | .state error => s!"save state error: {error.message}"
  | .overflow => "attempt to add with overflow"

/-- Whether a machine that meets the fault is stopped for good. -/
def isFatal : Fault → Bool
  | .invalidInput _ => false
  | _ => true

end Fault

end Framescript
