import Framescript.Instruction.Encode
import Framescript.Machine.Basic
import Framescript.Program

/-!
One instruction of a thread. Its operands are fetched one after the other, and the position in the
script moves with each of them. An instruction is counted as soon as its opcode is known, and acts
after its last operand; a step that fails has counted the instruction at most, and stands behind the
bytes that it fetched.
-/
namespace Framescript

/-- What a machine does in its world. What was done before a fault stays done. -/
abbrev Action (H : Type) := ExceptT Fault (StateM (World H))

/-- The color of every polygon. -/
def polygonColor : UInt8 := 0xFF

/-- The scale of a polygon without one of its own. -/
def normalZoom : UInt16 := 0x40

/-- The lowest visible row. -/
def lowestRow : Int16 := 199

/-- The signed sixteen bits of a byte. -/
def widen (b : UInt8) : Int16 :=
  b.toUInt16.toInt16

/-- A word shifted left; nothing is left of it after sixteen places. -/
def shiftLeft (value amount : UInt16) : UInt16 :=
  if amount < 16 then value <<< amount else 0

/-- A word shifted right; nothing is left of it after sixteen places. -/
def shiftRight (value amount : UInt16) : UInt16 :=
  if amount < 16 then value >>> amount else 0

namespace World

variable {H : Type}

/-- A variable changes by a rule. -/
def update (w : World H) (index : UInt8) (f : Int16 → Int16) : World H :=
  w.setVariable index (f (w.read index))

/-- A variable changes by a rule on its sixteen bits. -/
def updateBits (w : World H) (index : UInt8) (f : UInt16 → UInt16) : World H :=
  w.update index fun value => (f value.toUInt16).toInt16

/-- Requests pauses or stops of the threads of a range. -/
def resetRange (w : World H) (origin first last : Nat) (action : UInt8) : World H :=
  if action = 0 ∨ action = 1 then
    w.mapMachine fun m => { m with threads := m.threads.requestPauseRange first last (action = 1) }
  else if action = 2 then w.mapMachine fun m => { m with threads := m.threads.requestStopRange first last }
  else w.say .warn s!"RESET_THREADS at 0x{Text.hexText 4 origin}: unknown action {action}"

/-- Opens a call and jumps. -/
def enter (w : World H) (origin : Nat) (target : UInt16) : Except Fault Unit × World H :=
  match w.machine.script.offset16 with
  | .error fault => (.error fault, w)
  | .ok offset =>
    match w.machine.callStack.push offset origin with
    | .error fault => (.error fault, w)
    | .ok callStack => (.ok (), (w.mapMachine fun m => { m with callStack }).jump target)

/-- Closes the last open call and returns from it. -/
def leave (w : World H) (origin : Nat) : Except Fault Unit × World H :=
  match w.machine.callStack.pop origin with
  | .error fault => (.error fault, w)
  | .ok (offset, callStack) => (.ok (), (w.mapMachine fun m => { m with callStack }).jump offset)

/-- Counts a variable down and jumps until it is zero. -/
def countDown (w : World H) (counter : UInt8) (target : UInt16) : World H :=
  let w := w.update counter (· - 1)
  if w.read counter = 0 then w else w.jump target

/-- Ends the slice. -/
def yield (w : World H) : World H :=
  w.mapMachine fun m => { m with yielded := true }

/-- Requests a jump of a thread. -/
def setVector (w : World H) (thread : UInt8) (target : UInt16) : Except Fault Unit × World H :=
  match w.machine.threads.requestPc thread target with
  | .error fault => (.error fault, w)
  | .ok threads => (.ok (), w.mapMachine fun m => { m with threads })

/-- Takes note of the keys pressed since the last page was shown. -/
def handleKeys (w : World H) : World H :=
  let w := if w.machine.keys.pause then w.say .debug "Pause key acknowledged" else w
  let part := w.machine.currentPart
  let code := w.machine.keys.code && part ≠ some Part.first && part ≠ some Part.last
  let w := w.mapMachine fun m => { m with keys := {} }
  let w := if code then w.mapMachine (·.requestPart Part.last) else w
  if w.read Variables.specialKeyCheck = 1 then
    w.say .warn s!"Script set variable 0x{Text.hexText 2 Variables.specialKeyCheck.toNat} to 1"
  else w

variable [Host H]

/-- Asks for the time that is missing to the next page. -/
def pace (w : World H) : World H :=
  let elapsed := (Host.now w.host - w.machine.lastShown).toNat
  let remaining := (w.read Variables.pauseSlices).toInt * 20 - elapsed
  if 0 < remaining then w.call (.wait (UInt32.ofNat remaining.toNat)) else w

/-- Shows a page. -/
def blit (w : World H) (page : UInt8) : World H :=
  let w := w.handleKeys
  let w := if w.machine.options.pacing then w.pace else w
  let shown := Host.now w.host
  let w := w.mapMachine fun m => { m.setVariable Variables.blitFlag 0 with lastShown := shown }
  if w.machine.options.render then w.call (.updateDisplay page) else w

/-- Loads a resource. Number 0 drops all resources, a part id requests that part. -/
def loadResource (w : World H) (resource : UInt16) : World H :=
  if resource = 0 then (w.call .stopAll).call .invalidateResources
  else if Part.isId resource then w.mapMachine (·.requestPart resource)
  else w.call (.loadResource resource)

/-- Draws a polygon in the color of all polygons. -/
def drawPolygon (w : World H) (source : PolygonSource) (halved zoom : UInt16) (x y : Int16) : World H :=
  w.call (.drawPolygon source (halved * 2) polygonColor zoom x y)

/-- Draws a background polygon; rows below the lowest one move it to the right. -/
def drawBackground (w : World H) (halved : UInt16) (x y : Int16) : World H :=
  let below := y - lowestRow
  if 0 < below then w.drawPolygon .cinematic halved normalZoom (x + below) lowestRow
  else w.drawPolygon .cinematic halved normalZoom x y

end World

namespace Action

variable {H : Type}

/-- Reads from the script, which then stands behind what was read. -/
def fetch {α : Type} (read : Script → Except Fault (α × Script)) : Action H α := fun w =>
  match read w.machine.script with
  | .error fault => (.error fault, w)
  | .ok (value, script) => (.ok value, w.mapMachine fun m => { m with script })

/-- The next byte. -/
def fetchByte : Action H UInt8 :=
  fetch Script.byte

/-- The next word. -/
def fetchWord : Action H UInt16 :=
  fetch Script.word

/-- The value of a variable. -/
def readVariable (index : UInt8) : Action H Int16 :=
  return (← get).read index

/-- The offset of the instruction that is executed. -/
def origin : Action H Nat :=
  return (← get).machine.instrOffset

/-- Counts the instruction that is executed. -/
def count (category : Category) : Action H Unit :=
  modify fun w => w.mapMachine fun m => { m with profile := m.profile.record category }

/-- What `JMP_IF` compares a variable with. -/
def fetchComparand (condition : UInt8) : Action H Int16 := do
  if condition &&& 0x80 ≠ 0 then readVariable (← fetchByte)
  else if condition &&& 0x40 ≠ 0 then return (← fetchWord).toInt16
  else return widen (← fetchByte)

/-- Whether the comparison with the given code holds. -/
def compare (code : UInt8) (left right : Int16) : Action H Bool :=
  match code.toNat with
  | 0 => return left == right
  | 1 => return left != right
  | 2 => return left > right
  | 3 => return left ≥ right
  | 4 => return left < right
  | 5 => return left ≤ right
  | _ => do
    let origin ← origin
    modify (·.say .warn s!"JMP_IF at 0x{Text.hexText 4 origin}: unknown comparison {code}")
    return false

/-- `JMP_IF`: a condition byte, a variable, what it is compared with, and where to jump. -/
def jumpIf : Action H Unit := do
  let condition ← fetchByte
  let left ← readVariable (← fetchByte)
  let right ← fetchComparand condition
  let target ← fetchWord
  if ← compare (condition &&& 7) left right then modify (·.jump target)

/-- `RESET_THREADS`: the first and the last thread, and what to do to them. There is no byte for that
if the range is empty. -/
def resetThreads : Action H Unit := do
  let first ← fetchByte
  let last := (← fetchByte) &&& 0x3F
  let origin ← origin
  if last < first then
    modify (·.say .warn s!"RESET_THREADS at 0x{Text.hexText 4 origin}: empty range {first}..={last}")
  else
    let action ← fetchByte
    modify (·.resetRange origin first.toNat last.toNat action)

/-- The horizontal place of a sprite: a word, a variable, a byte, or a byte to which 256 is added. -/
def fetchHorizontal (opcode : UInt8) : Action H Int16 := do
  let first ← fetchByte
  if opcode &&& 0x20 = 0 then
    if opcode &&& 0x10 = 0 then return (Bytes.wordOf first (← fetchByte)).toInt16
    else readVariable first
  else if opcode &&& 0x10 ≠ 0 then return widen first + 0x100
  else return widen first

/-- The vertical place of a sprite: a word, a variable, or a byte. -/
def fetchVertical (opcode : UInt8) : Action H Int16 := do
  let first ← fetchByte
  if opcode &&& 0x08 = 0 then
    if opcode &&& 0x04 = 0 then return (Bytes.wordOf first (← fetchByte)).toInt16
    else readVariable first
  else return widen first

/-- The scale of a sprite and the segment of its polygons. -/
def fetchZoom (opcode : UInt8) : Action H (UInt16 × PolygonSource) := do
  match (opcode &&& 0x03).toNat with
  | 0 => return (normalZoom, .cinematic)
  | 1 => return ((← readVariable (← fetchByte)).toUInt16, .cinematic)
  | 2 => return ((← fetchByte).toUInt16, .cinematic)
  | _ => return (normalZoom, .alternate)

variable [Host H]

/-- A background draw: half of the offset in the lower bits of the opcode and one byte, then the place. -/
def drawBackground (opcode : UInt8) : Action H Unit := do
  let low ← fetchByte
  let x ← fetchByte
  let y ← fetchByte
  modify (·.drawBackground (Bytes.wordOf opcode low) (widen x) (widen y))

/-- A sprite draw: half of the offset in a word, then the place and the scale as the opcode says. -/
def drawSprite (opcode : UInt8) : Action H Unit := do
  let halved ← fetchWord
  let x ← fetchHorizontal opcode
  let y ← fetchVertical opcode
  let (zoom, source) ← fetchZoom opcode
  modify (·.drawPolygon source halved zoom x y)

/-- An instruction of the table: its operands in order, and what it does with them. -/
def exec : Opcode → Action H Unit
  | .set => do
    let dst ← fetchByte
    let value ← fetchWord
    modify (·.setVariable dst value.toInt16)
  | .mov => do
    let dst ← fetchByte
    let src ← fetchByte
    modify fun w => w.setVariable dst (w.read src)
  | .add => do
    let dst ← fetchByte
    let src ← fetchByte
    modify fun w => w.setVariable dst (w.read dst + w.read src)
  | .addi => do
    let dst ← fetchByte
    let value ← fetchWord
    modify fun w => w.setVariable dst (w.read dst + value.toInt16)
  | .call => do
    let target ← fetchWord
    let origin ← origin
    fun w => w.enter origin target
  | .ret => do
    let origin ← origin
    fun w => w.leave origin
  | .pause => modify (·.yield)
  | .jmp => do
    let target ← fetchWord
    modify (·.jump target)
  | .setVec => do
    let thread ← fetchByte
    let target ← fetchWord
    fun w => w.setVector thread target
  | .djnz => do
    let counter ← fetchByte
    let target ← fetchWord
    modify (·.countDown counter target)
  | .jmpIf => jumpIf
  | .setPalette => do
    let palette ← fetchWord
    modify (·.call (.setPalette (palette >>> 8).toUInt8))
  | .resetThreads => resetThreads
  | .selectPage => do
    let page ← fetchByte
    modify (·.call (.selectPage page))
  | .fillPage => do
    let page ← fetchByte
    let color ← fetchByte
    modify (·.call (.fillPage page color))
  | .copyPage => do
    let src ← fetchByte
    let dst ← fetchByte
    modify fun w => w.call (.copyPage src dst (w.read Variables.scrollY))
  | .blit => do
    let page ← fetchByte
    modify (·.blit page)
  | .kill => modify fun w => (w.jump ThreadTable.inactive).yield
  | .drawString => do
    let id ← fetchWord
    let x ← fetchByte
    let y ← fetchByte
    let color ← fetchByte
    modify (·.call (.drawString id x y color))
  | .sub => do
    let dst ← fetchByte
    let src ← fetchByte
    modify fun w => w.setVariable dst (w.read dst - w.read src)
  | .and => do
    let dst ← fetchByte
    let mask ← fetchWord
    modify (·.updateBits dst (· &&& mask))
  | .or => do
    let dst ← fetchByte
    let mask ← fetchWord
    modify (·.updateBits dst (· ||| mask))
  | .shl => do
    let dst ← fetchByte
    let amount ← fetchWord
    modify (·.updateBits dst (shiftLeft · amount))
  | .shr => do
    let dst ← fetchByte
    let amount ← fetchWord
    modify (·.updateBits dst (shiftRight · amount))
  | .playSound => do
    let resource ← fetchWord
    let frequency ← fetchByte
    let volume ← fetchByte
    let channel ← fetchByte
    modify (·.call (.playSound resource frequency volume channel))
  | .loadResource => do
    let resource ← fetchWord
    modify (·.loadResource resource)
  | .playMusic => do
    let resource ← fetchWord
    let delay ← fetchWord
    let position ← fetchByte
    modify (·.call (.playMusic resource delay position))

/-- The next instruction. -/
def step : Action H Unit := do
  modify fun w => w.mapMachine fun m => { m with instrOffset := m.script.pc }
  let opcode ← fetchByte
  if opcode &&& Instr.backgroundBit ≠ 0 then
    count .polygons
    drawBackground opcode
  else if opcode &&& Instr.spriteBit ≠ 0 then
    count .polygons
    drawSprite opcode
  else
    match Opcode.ofByte? opcode with
    | none => throw (.invalidInstruction opcode (← origin))
    | some op =>
      count op.category
      exec op

end Action

/-- Fetches and executes the next instruction. -/
def World.step {H : Type} [Host H] (w : World H) : Except Fault Unit × World H :=
  Action.step w

end Framescript
