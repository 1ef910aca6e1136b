import Framescript.Machine.Step

/-!
Frames. Between two frames the requests of the last one take effect: first a switch to another part,
then the mark of the music, then what is requested of the threads. In a frame every runnable thread
gets one slice, the lowest first. A fatal fault stops the machine for good.
-/
namespace Framescript

namespace Machine

/-- The part flag of a part that has just started. -/
def partStarted : Int16 := 0x14

/-- Left or right, as held; left wins. -/
def leftRight (input : PlayerInput) : Int16 :=
  if input.left then -1 else if input.right then 1 else 0

/-- Up or down, as held; up wins. -/
def upDown (input : PlayerInput) : Int16 :=
  if input.up then -1 else if input.down then 1 else 0

/-- The held directions as bits. -/
def directionMask (input : PlayerInput) : Int16 :=
  (if input.right then 1 else 0) ||| (if input.left then 2 else 0) ||| (if input.down then 4 else 0) |||
    (if input.up then 8 else 0)

/-- Whether a typed character counts on the password screen. -/
def isPasswordCharacter (c : UInt8) : Bool :=
  c = 8 || c = 0 || (0x61 ≤ c && c ≤ 0x7A)

/-- The machine with the player's buttons in its variables and the other keys kept for later. -/
def applyInput (m : Machine) (input : PlayerInput) : Machine :=
  let mask := directionMask input
  let vars := m.vars
    |>.set Variables.heroUpDown (upDown input)
    |>.set Variables.heroJumpDown (upDown input)
    |>.set Variables.heroLeftRight (leftRight input)
    |>.set Variables.heroMask mask
    |>.set Variables.heroAction (if input.fire then 1 else 0)
    |>.set Variables.heroActionMask (if input.fire then mask ||| 0x80 else mask)
  let vars :=
    if m.currentPart = some Part.last ∧ isPasswordCharacter input.lastCharacter then
      vars.set Variables.lastCharacter (widen (input.lastCharacter &&& 0xDF))
    else vars
  { m with vars, keys := m.keys.union input.keys }

end Machine

namespace World

variable {H : Type} [Host H]

/-- Starts a part: sound stops, the code of the part is loaded, and thread 0 starts at its beginning. -/
def startPart (w : World H) (part : UInt16) : Except Fault Unit × World H :=
  let w := (w.call .stopAll).setVariable Variables.partFlag Machine.partStarted
  match Host.openPart part w.host with
  | (.error fault, host) => (.error fault, { w with host })
  | (.ok code, host) =>
    let w := { w with host }.mapMachine fun m =>
      { m with script := { code }, threads := .started, currentPart := some part }
    (.ok (), w.say .info s!"Part 0x{Text.hexText 4 part.toNat} loaded ({code.size} bytes)")

/-- Switches to the requested part, if any. -/
def switchPart (w : World H) : Except Fault Unit × World H :=
  match w.machine.requestedPart with
  | none => (.ok (), w)
  | some part => (w.mapMachine fun m => { m with requestedPart := none }).startPart part

/-- The mark of the music goes into its variable. -/
def takeMusicMark (w : World H) : World H :=
  match Host.takeMusicMark w.host with
  | (none, host) => { w with host }
  | (some mark, host) => { w with host }.setVariable Variables.musicMark mark

/-- What is requested takes effect. -/
def commitRequests (w : World H) : Except Fault Unit × World H :=
  match w.switchPart with
  | (.error fault, w) => (.error fault, w)
  | (.ok (), w) => (.ok (), w.takeMusicMark.mapMachine fun m => { m with threads := m.threads.commit })

/-- Executes instructions until the slice has ended, `fuel` of them at most. -/
def runSlice (thread : Fin threadCount) (fuel : Nat) (w : World H) : Except Fault Unit × World H :=
  if w.machine.yielded then (.ok (), w)
  else
    match fuel with
    | 0 => (.error (.limitExceeded thread.val w.machine.options.instructionLimit), w)
    | fuel + 1 =>
      match w.step with
      | (.error fault, w) => (.error fault, w)
      | (.ok (), w) => runSlice thread fuel w

/-- The world with the script where a thread goes on, and with no call open. -/
def turnTo (w : World H) (thread : Fin threadCount) : World H :=
  w.mapMachine fun m =>
    { m with script := m.script.jump (m.threads.pc.get thread), callStack := m.callStack.rewind }

/-- The world with another slice counted, and about to run. -/
def startSlice (w : World H) (profile : Profile) : World H :=
  w.mapMachine fun m => { m with profile, yielded := false }

/-- The world after a thread's slice: the thread goes on where the slice ended. -/
def endSlice (w : World H) (thread : Fin threadCount) : Except Fault Unit × World H :=
  match w.machine.script.offset16 with
  | .error fault => (.error fault, w)
  | .ok pc => (.ok (), w.mapMachine fun m => { m with threads := m.threads.setPc thread pc })

/-- One slice of a thread. -/
def runThread (w : World H) (thread : Fin threadCount) : Except Fault Unit × World H :=
  let w := w.turnTo thread
  match w.machine.profile.recordSlice with
  | .error fault => (.error fault, w)
  | .ok profile =>
    match runSlice thread w.machine.options.instructionLimit.toNat (w.startSlice profile) with
    | (.error fault, w) => (.error fault, w)
    | (.ok (), w) => w.endSlice thread

/-- One slice for each runnable thread of a list. -/
def runThreads : List (Fin threadCount) → World H → Except Fault Unit × World H
  | [], w => (.ok (), w)
  | thread :: threads, w =>
    if w.machine.threads.isRunnable thread then
      match w.runThread thread with
      | (.error fault, w) => (.error fault, w)
      | (.ok (), w) => runThreads threads w
    else runThreads threads w

/-- One slice for each runnable thread, the lowest first. -/
def runAll (w : World H) : Except Fault Unit × World H :=
  match runThreads ThreadTable.order (w.mapMachine fun m => { m with profile := {} }) with
  | (.error fault, w) => (.error fault, w)
  | (.ok (), w) =>
    let profile := w.machine.profile
    (.ok (), w.say .debug s!"Frame done: {profile.total} instructions in {profile.slices} slices")

/-- A phase of a frame: refused on a machine that was stopped, and stopping it on a fatal fault. -/
def guarded (phase : World H → Except Fault Unit × World H) (w : World H) : Except Fault Unit × World H :=
  if w.machine.aborted then (.error .aborted, w)
  else
    match phase w with
    | (.ok (), w) => (.ok (), w)
    | (.error fault, w) =>
      if fault.isFatal then
        (.error fault, (w.say .error s!"VM aborted: {fault.message}").mapMachine fun m => { m with aborted := true })
      else (.error fault, w)

/-- The phase in which requests take effect. -/
def commit (w : World H) : Except Fault Unit × World H :=
  guarded commitRequests w

/-- The phase in which threads run. -/
def runPhase (w : World H) : Except Fault Unit × World H :=
  guarded runAll w

/-- A frame without input. -/
def runFrame (w : World H) : Except Fault Unit × World H :=
  match w.commit with
  | (.error fault, w) => (.error fault, w)
  | (.ok (), w) => w.runPhase

/-- A frame with input. -/
def advance (w : World H) (input : PlayerInput) : Except Fault Unit × World H :=
  match w.commit with
  | (.error fault, w) => (.error fault, w)
  | (.ok (), w) => (w.mapMachine (·.applyInput input)).runPhase

end World

end Framescript
