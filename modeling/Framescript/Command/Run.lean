import Framescript.Command.Arguments
import Framescript.Command.Source
import Framescript.Command.Tables
import Framescript.Engine
import Framescript.Host.Headless

/-!
The command that runs a program without screen and sound, with the input of a file or with no button
held, and then shows the variables and the state hash.
-/
namespace Framescript.Command.Run

/-- What the command is asked for. -/
structure Request where
  program : String
  part : UInt16 := Part.first
  frames : Nat := 1
  inputs : Option String := none
  load : Option String := none
  save : Option String := none
  options : Options := {}
  profile : Bool := false
  verbose : Bool := false

/-- A number below a bound, decimal or as the base says. -/
def number? (base bound : Nat) (digits : List Char) : Option Nat :=
  (Text.unsigned? base digits).filter (· < bound)

/-- A part id, decimal or hexadecimal. -/
def part? (value : String) : Option UInt16 :=
  match value.toList with
  | '0' :: 'x' :: digits | '0' :: 'X' :: digits => (number? 16 0x10000 digits).map UInt16.ofNat
  | digits => (number? 10 0x10000 digits).map UInt16.ofNat

/-- The request with the value of an option. -/
def Request.withValue (r : Request) (option value : String) : Except ArgumentError Request :=
  match option with
  | "--part" =>
    match part? value with
    | some part => .ok { r with part }
    | none => .error (.invalid "part id" value)
  | "--frames" =>
    match number? 10 0x10000000000000000 value.toList with
    | some frames => .ok { r with frames }
    | none => .error (.invalid "frame count" value)
  | "--limit" =>
    match number? 10 0x10000000000000000 value.toList with
    | some limit => .ok { r with options.instructionLimit := UInt64.ofNat limit }
    | none => .error (.invalid "instruction limit" value)
  | "--inputs" => .ok { r with inputs := some value }
  | "--load" => .ok { r with load := some value }
  | _ => .ok { r with save := some value }

/-- The request with what an option without a value asks for. -/
def Request.withFlag (r : Request) (option : String) : Except ArgumentError Request :=
  match option with
  | "--pacing" => .ok { r with options.pacing := true }
  | "--no-render" => .ok { r with options.render := false }
  | "--profile" => .ok { r with profile := true }
  | "--verbose" | "-v" => .ok { r with verbose := true }
  | _ => .error (.unexpected option)

/-- The options of the command. -/
def optionSet : OptionSet Request where
  takesValue option := ["--part", "--frames", "--inputs", "--load", "--save", "--limit"].contains option
  withValue := Request.withValue
  withFlag := Request.withFlag

/-- How the command is used. -/
def usage (program : String) : String :=
  s!"Headless VM runner

USAGE:
    {program} <program> [OPTIONS]

ARGS:
    <program>          Assembly source (.asm) or assembled program file

OPTIONS:
    --part <id>        Part to start on (default 0x3E80)
    --frames <n>       Frames to run with no buttons held (default 1)
    --inputs <file>    Input tokens to play, one per line (UDLRF, '.' = released)
    --load <file>      State file to restore first
    --save <file>      State file to write after the last frame
    --limit <n>        Instructions a thread may run without yielding
    --pacing           Honor the display pacing hint
    --no-render        Skip display updates
    --profile          Print instruction counts per category
    -v, --verbose      Enable debug logging
    -h, --help         Print this help message

EXAMPLES:
    {program} intro.asm --frames 100
    {program} game.bin --inputs run.txt --save run.state
    {program} game.bin --load run.state --inputs tail.txt

"

/-- A run of frames: the engine, what its frames executed together, their number, and the fault that
ended the run early. -/
structure Played where
  engine : Engine Headless
  profile : Profile := {}
  frames : Nat := 0
  fault : Option Fault := none

namespace Played

/-- The run with one more frame. -/
def next (p : Played) (frame : Engine Headless → Except Fault Unit × Engine Headless) : Played :=
  let ⟨engine, profile, frames, _⟩ := p
  match frame engine with
  | (.error fault, engine) => { engine, profile, frames, fault := some fault }
  | (.ok (), engine) =>
    match profile.merge engine.world.machine.profile with
    | .error fault => { engine, profile, frames, fault := some fault }
    | .ok profile => { engine, profile, frames := frames + 1 }

/-- The run with a number of frames in which no button is held. -/
def released : Nat → Played → Played
  | 0, p => p
  | n + 1, p =>
    let p := p.next (·.advance {})
    if p.fault.isSome then p else released n p

/-- The run with a frame for each token. -/
def tokens : List (List Char) → Played → Played
  | [], p => p
  | token :: rest, p =>
    let p := p.next (·.advanceToken token)
    if p.fault.isSome then p else tokens rest p

end Played

/-- The tokens of an input file: one a line, without comments and blank lines. -/
def tokensOf (source : String) : List (List Char) :=
  ((Text.lines source.toList).map fun line => Text.trim (line.takeWhile (· ≠ '#'))).filter (· ≠ [])

variable {m : Type → Type} [Monad m] [Console m]

/-- The program that is asked for. -/
def loadProgram (path : String) : Command m Program := do
  match ← if Path.isSource path then assembleFile path else readProgram path with
  | .error text => fail s!"Failed to load {path}: {text}"
  | .ok program => return program

/-- Shows the log of an engine, which then starts anew. -/
def flush (r : Request) (e : Engine Headless) : Command m (Engine Headless) := do
  showLog r.verbose e.world.log
  return { e with world.log := #[] }

/-- An engine that has loaded the part that is asked for. -/
def start (r : Request) (program : Program) : Command m (Engine Headless) := do
  match Engine.start { program } r.options r.part with
  | (.error fault, e) => do
    let _ ← flush r e
    fail fault.message
  | (.ok (), e) => flush r e

/-- Loads a state file. -/
def restore (r : Request) (path : String) (e : Engine Headless) : Command m (Engine Headless) := do
  match ← read path with
  | .error error => fail s!"Failed to read state file {path}: {error.message}"
  | .ok bytes =>
    match StateFile.ofBytes bytes with
    | .error error => fail s!"Failed to read state file {path}: {error.message}"
    | .ok file =>
      match e.loadFile file with
      | (.error fault, e) => do
        let _ ← flush r e
        fail s!"Failed to load state file {path}: {fault.message}"
      | (.ok (), e) => flush r e

/-- Plays the frames that are asked for. -/
def play (r : Request) (e : Engine Headless) : Command m Played := do
  let played ← match r.inputs with
    | none => pure (Played.released r.frames { engine := e })
    | some path =>
      match ← readText path with
      | .error error => fail s!"Frame 0: {fileFault path error}"
      | .ok source => pure (Played.tokens (tokensOf source) { engine := e })
  let engine ← flush r played.engine
  match played.fault with
  | some .overflow => crash
  | some fault => fail s!"Frame {played.frames}: {fault.message}"
  | none => return { played with engine }

/-- Writes a state file. -/
def capture (r : Request) (path : String) (e : Engine Headless) : Command m Unit := do
  let (result, log) := e.saveFile
  showLog r.verbose log
  match result with
  | .error error => fail s!"Failed to capture state: {error.message}"
  | .ok file =>
    match ← write path file.toBytes with
    | .error error => fail s!"Failed to write state file {path}: {error.message}"
    | .ok () => inform s!"Saved state to {path} ({file.payload.size} bytes)"

/-- Shows what is left of a run. -/
def report (r : Request) (p : Played) : Command m Unit := do
  let stats := p.engine.world.host.stats
  inform s!"Ran {p.frames} frame(s): {stats.polygons} polygons, {stats.displayUpdates} display updates"
  if r.profile then print p.profile.table
  print p.engine.world.machine.vars.table
  print s!"hash: {p.engine.stateHash.hex}\n"

/-- Does what is asked for. -/
def perform (r : Request) : Command m Unit := do
  let program ← loadProgram r.program
  let engine ← start r program
  let engine ← match r.load with
    | none => pure engine
    | some path => restore r path engine
  let played ← play r engine
  match r.save with
  | none => pure ()
  | some path => capture r path played.engine
  report r played

/-- The command, with the name that it was called by and its arguments. -/
def run (program : String) : List String → Command m Unit :=
  withArguments (usage program) optionSet (fun path => { program := path }) perform

end Framescript.Command.Run
