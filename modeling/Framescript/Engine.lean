import Framescript.Machine.Frame
import Framescript.Machine.State

/-!
An engine: a machine with its host, advanced frame by frame, saved and loaded as a whole. A saved
state is that of the machine, followed by that of the host if it is wanted.
-/
namespace Framescript

/-- A machine with its host. -/
structure Engine (H : Type) where
  world : World H
  /-- Whether the fields of the host are part of saved states. -/
  hostState : Bool := false

namespace Engine

variable {H : Type}

/-- The engine with more lines in its log. -/
def note (e : Engine H) (log : Log) : Engine H :=
  { e with world.log := e.world.log ++ log }

/-- What an operation on the world does to the engine. -/
def onWorld (operation : World H → Except Fault Unit × World H) : Engine H → Except Fault Unit × Engine H
  | ⟨world, hostState⟩ =>
    match operation world with
    | (result, world) => (result, ⟨world, hostState⟩)

/-- The engine with a switch to another part requested. -/
def requestPart (e : Engine H) (part : UInt16) : Engine H :=
  { e with world := e.world.mapMachine (·.requestPart part) }

/-- The state hash of the machine. -/
def stateHash (e : Engine H) : Digest :=
  e.world.machine.stateHash

variable [Host H]

/-- A new engine, with a part loaded unless that fails. -/
def start (host : H) (options : Options) (part : UInt16) : Except Fault Unit × Engine H :=
  match ({ machine := { options }, host } : World H).startPart part with
  | (.error fault, world) => (.error fault, { world })
  | (.ok (), world) => (.ok (), { world := world.say .info started })
where
  started : String :=
    s!"Engine started on part 0x{Text.hexText 4 part.toNat} (instruction limit {options.instructionLimit})"

/-- Starts over on a part. -/
def reset (e : Engine H) (part : UInt16) : Except Fault Unit × Engine H :=
  e.onWorld fun world => (world.mapMachine (·.reset)).startPart part

/-- A frame with input. -/
def advance (e : Engine H) (input : PlayerInput) : Except Fault Unit × Engine H :=
  e.onWorld (·.advance input)

/-- A frame with the input that a token denotes. -/
def advanceToken (e : Engine H) (token : List Char) : Except Fault Unit × Engine H :=
  match PlayerInput.ofToken token with
  | .error fault => (.error fault, e)
  | .ok input => e.advance input

/-- A frame without input. -/
def runFrame (e : Engine H) : Except Fault Unit × Engine H :=
  e.onWorld World.runFrame

/-- The fields of the host, if saved states have them. -/
def hostEntries (e : Engine H) : List Entry :=
  if e.hostState then Host.entries e.world.host else []

/-- The bytes of a saved state. -/
def stateSize (e : Engine H) (version : UInt16) : Nat :=
  e.world.machine.stateSize version + Entry.measure version e.hostEntries

/-- Saves the fields of the host behind the state of the machine. -/
def saveHost (e : Engine H) (walker : Walker) (log : Log) : Saved :=
  if e.hostState then
    let walked := walker.walk e.hostEntries
    match walked.result with
    | .error error => ⟨.error error, walked.walker.bytes, log ++ walked.log⟩
    | .ok () => ⟨.ok walked.walker.cursor, walked.walker.bytes, log ++ walked.log⟩
  else ⟨.ok walker.cursor, walker.bytes, log⟩

/-- Saves the state into a buffer, or only counts its bytes. -/
def save (e : Engine H) (buffer : Option Bytes) : Saved :=
  let needed := e.stateSize currentVersion
  let walker : Walker := { buffer := buffer.elim .count .save, version := currentVersion }
  match walker.capacity? with
  | some available =>
    if available < needed then ⟨.error (.bufferTooSmall needed available), walker.bytes, #[]⟩ else go walker
  | none => go walker
where
  go (walker : Walker) : Saved :=
    let walked := e.world.machine.walk walker
    match walked.result with
    | .error error => ⟨.error error, walked.walker.bytes, walked.log⟩
    | .ok () => e.saveHost walked.walker walked.log

/-- Refuses bytes that are no state of a format version. -/
def checkState (e : Engine H) (bytes : Bytes) (version : UInt16) : Except StateError Unit :=
  match checkVersion version with
  | .error error => .error error
  | .ok () =>
    if bytes.length = e.stateSize version then .ok ()
    else .error (.sizeMismatch (e.stateSize version) bytes.length)

/-- Loads the fields of the host, and returns how many bytes they took. -/
def loadHost (e : Engine H) (bytes : Bytes) (version : UInt16) : Except StateError Nat × Engine H :=
  if e.hostState then
    let walked := ({ buffer := .load bytes, version } : Walker).walk e.hostEntries
    let e := { e with world.host := Host.restore walked.entries e.world.host }.note walked.log
    match walked.result with
    | .error error => (.error error, e)
    | .ok () => (.ok walked.walker.cursor, e)
  else (.ok 0, e)

/-- Loads a state. Bytes of the wrong length, or of an unknown version, change nothing. -/
def load (e : Engine H) (bytes : Bytes) (version : UInt16) : Except StateError Nat × Engine H :=
  match e.checkState bytes version with
  | .error error => (.error error, e)
  | .ok () =>
    let size := e.world.machine.stateSize version
    match e.world.machine.load (bytes.take size) version with
    | (.error error, machine, log) => (.error error, { e with world.machine := machine }.note log)
    | (.ok read, machine, log) =>
      match ({ e with world.machine := machine }.note log).loadHost (bytes.drop size) version with
      | (.error error, e) => (.error error, e)
      | (.ok more, e) => (.ok (read + more), e)

/-- The state with the part that it belongs to. -/
def saveFile (e : Engine H) : Except StateError StateFile × Log :=
  let saved := e.save (some (List.replicate (e.stateSize currentVersion) 0))
  match saved.result with
  | .error error => (.error error, saved.log)
  | .ok _ => (.ok { part := e.world.machine.currentPart.getD Part.first, payload := saved.buffer.toArray }, saved.log)

/-- Loads the state of a file on the current part. -/
def loadPayload (e : Engine H) (file : StateFile) : Except Fault Unit × Engine H :=
  match e.load file.payload.toList file.version with
  | (.error error, e) => (.error (.state error), e)
  | (.ok _, e) => (.ok (), e)

/-- Loads the state of a file after a switch to its part. If that fails, the machine is as it was. -/
def loadOnPart (e : Engine H) (file : StateFile) : Except Fault Unit × Engine H :=
  match e.onWorld (·.startPart file.part) with
  | (.error fault, e') => (.error fault, { e' with world.machine := e.world.machine })
  | (.ok (), e') =>
    match e'.loadPayload file with
    | (.error fault, e') => (.error fault, { e' with world.machine := e.world.machine })
    | (.ok (), e') => (.ok (), e')

/-- Loads a state file, after a switch to its part if another one is running. -/
def loadFile (e : Engine H) (file : StateFile) : Except Fault Unit × Engine H :=
  match e.checkState file.payload.toList file.version with
  | .error error => (.error (.state error), e)
  | .ok () =>
    match if e.world.machine.currentPart = some file.part then e.loadPayload file else e.loadOnPart file with
    | (.error fault, e) => (.error fault, e)
    | (.ok (), e) => (.ok (), e.note #[⟨.info, loaded⟩])
where
  loaded : String :=
    s!"Loaded state for part 0x{Text.hexText 4 file.part.toNat} (v{file.version}, {file.digest.short})"

end Engine

end Framescript
