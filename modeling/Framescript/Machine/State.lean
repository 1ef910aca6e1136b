import Framescript.Digest
import Framescript.Machine.Basic
import Framescript.Snapshot.File
import Framescript.Snapshot.Walker

/-!
The saved state of a machine: its variables, the slots of its call stack, the offsets of its threads
with those requested, and their paused flags with those requested. The state hash is of the variables
alone.
-/
namespace Framescript

/-- The vector with the given values, if there are as many as it has places. -/
def refill {α : Type} {n : Nat} (old : Vector α n) (values : List α) : Vector α n :=
  if same : values.length = n then ⟨values.toArray, by simpa using same⟩ else old

/-- What is left of a save: the bytes written, the buffer, and the log. -/
structure Saved where
  result : Except StateError Nat
  buffer : Bytes
  log : Log

namespace Machine

/-- The fields of a saved state. -/
def entries (m : Machine) : List Entry :=
  [.array ⟨.i16, m.vars.cells.toList⟩ .word (.since 1),
   .array ⟨.u16, m.callStack.slots.toList⟩ .word (.since 1),
   .array ⟨.u16, m.threads.pc.toList ++ m.threads.requestedPc.toList⟩ .word (.since 1),
   .array ⟨.u8, m.threads.paused.toList ++ m.threads.requestedPaused.toList⟩ .byte (.since 1),
   .stop]

/-- The machine with the values of loaded entries. -/
def restore (m : Machine) : List Entry → Machine
  | .array ⟨.i16, cells⟩ _ _ :: .array ⟨.u16, slots⟩ _ _ :: .array ⟨.u16, pcs⟩ _ _ :: .array ⟨.u8, flags⟩ _ _ :: _ =>
    { m with
      vars := ⟨refill m.vars.cells cells⟩
      callStack := { m.callStack with slots := refill m.callStack.slots slots }
      threads :=
        { pc := refill m.threads.pc (pcs.take threadCount)
          requestedPc := refill m.threads.requestedPc (pcs.drop threadCount)
          paused := refill m.threads.paused (flags.take threadCount)
          requestedPaused := refill m.threads.requestedPaused (flags.drop threadCount) } }
  | _ => m

/-- The bytes of a saved state. -/
def stateSize (m : Machine) (version : UInt16) : Nat :=
  Entry.measure version m.entries

/-- What is left of a walk over a machine. -/
structure Walked where
  walker : Walker
  machine : Machine
  result : Except StateError Unit
  log : Log

/-- Counts, saves or loads the state at the cursor of a walker. -/
def walk (m : Machine) (walker : Walker) : Walked :=
  let walked := walker.walk m.entries
  ⟨walked.walker, if walker.isLoading then m.restore walked.entries else m, walked.result, walked.log⟩

/-- Saves the state into a buffer, or only counts its bytes. -/
def save (m : Machine) (buffer : Option Bytes) : Saved :=
  let walked := m.walk { buffer := buffer.elim .count .save, version := currentVersion }
  match walked.result with
  | .error e => ⟨.error e, walked.walker.bytes, walked.log⟩
  | .ok () => ⟨.ok walked.walker.cursor, walked.walker.bytes, walked.log⟩

/-- Refuses bytes that are no state of a format version. -/
def checkState (m : Machine) (bytes : Bytes) (version : UInt16) : Except StateError Unit :=
  match checkVersion version with
  | .error e => .error e
  | .ok () =>
    if bytes.length = m.stateSize version then .ok ()
    else .error (.sizeMismatch (m.stateSize version) bytes.length)

/-- What follows from a load besides the loaded values: whatever was under way is over. -/
def settle (m : Machine) : Machine :=
  { m with callStack := m.callStack.rewind, requestedPart := none, keys := {}, aborted := false }

/-- Loads a state. Bytes of the wrong length, or of an unknown version, change nothing. -/
def load (m : Machine) (bytes : Bytes) (version : UInt16) : Except StateError Nat × Machine × Log :=
  match m.checkState bytes version with
  | .error e => (.error e, m, #[])
  | .ok () =>
    let walked := m.walk { buffer := .load bytes, version }
    match walked.result with
    | .error e => (.error e, walked.machine, walked.log)
    | .ok () => (.ok walked.walker.cursor, walked.machine.settle, walked.log)

/-- The byte of the variables that the state hash leaves out: the low byte of variable 0xC7. -/
def hashExcluded : Nat := 0x18E

/-- The bytes of which the state hash is the digest. -/
def hashedBytes (m : Machine) : Bytes :=
  m.vars.toBytes.eraseIdx hashExcluded

/-- The state hash. -/
def stateHash (m : Machine) : Digest :=
  .sha3 m.hashedBytes

end Machine

end Framescript
