import Framescript.Proofs.EngineLoads
import Framescript.Proofs.Told

/-!
What lasts. A relation of machines to their hosts that no instruction breaks, and no request that is made of the host
between two frames, is never broken, whatever is done to an engine and whatever comes of it (`Lasting.after`). It may be
about the code that is loaded, the part, the settings, the time of the last page, and the host.
-/
namespace Framescript

/-! ### Hosts -/

namespace Host

/-- What a host is told, asked or given. -/
inductive Request where
  | tell (call : Call)
  | openPart (part : UInt16)
  | takeMusicMark
  | restore (fields : List Entry)

variable {H : Type} [Host H]

/-- The host after a request. -/
def meet (host : H) : Request → H
  | .tell call => Host.perform call host
  | .openPart part => (Host.openPart part host).2
  | .takeMusicMark => (Host.takeMusicMark host).2
  | .restore fields => Host.restore fields host

/-- The host after requests that are made one after the other. -/
def after (requests : List Request) (host : H) : H :=
  requests.foldl meet host

/-- A host that has one code for each part: whatever was asked of it, if it opens a part, then with that code. -/
def Serves (code? : UInt16 → Option Code) (host : H) : Prop :=
  ∀ requests part code, (Host.openPart part (after requests host)).1 = .ok code → code? part = some code

/-- A host that has one answer for each part, the code or a fault, whatever was asked of it. -/
def Steady (answer : UInt16 → Except Fault Code) (host : H) : Prop :=
  ∀ requests part, (Host.openPart part (after requests host)).1 = answer part

theorem Serves.meet {code? : UInt16 → Option Code} {host : H} (serves : Serves code? host) (request : Request) :
    Serves code? (meet host request) :=
  fun requests => serves (request :: requests)

theorem Steady.meet {answer : UInt16 → Except Fault Code} {host : H} (steady : Steady answer host) (request : Request) :
    Steady answer (meet host request) :=
  fun requests => steady (request :: requests)

theorem Told.of_met {P : H → Prop} (met : ∀ {host} request, P host → P (meet host request)) {host later : H}
    (told : Told host later) (here : P host) : P later := by
  induction told with
  | nothing => exact here
  | more call _ ih => exact met (.tell call) ih

end Host

/-- Whatever is asked of a host without screen and sound, it keeps its program. -/
theorem Headless.meet_program (host : Headless) (request : Host.Request) :
    (Host.meet host request).program = host.program := by
  cases request with
  | tell call => cases call <;> rfl
  | openPart part =>
    show (Headless.openPart part host).2.program = host.program
    unfold Headless.openPart
    split <;> rfl
  | takeMusicMark => rfl
  | restore fields => rfl

/-! ### Machines -/

/-- Machines with the same code on the same part, with the same settings and the last page at the same time. -/
structure Machine.SameFooting (m n : Machine) : Prop where
  code : n.script.code = m.script.code
  currentPart : n.currentPart = m.currentPart
  options : n.options = m.options
  lastShown : n.lastShown = m.lastShown

theorem Machine.SameFooting.refl (m : Machine) : SameFooting m m :=
  ⟨rfl, rfl, rfl, rfl⟩

variable {H : Type} [Host H]

/-- A relation of machines to their hosts that lasts. -/
structure Lasting (P : Machine → H → Prop) : Prop where
  footing : ∀ {m n : Machine} {host : H}, P m host → m.SameFooting n → P n host
  step : ∀ {w : World H}, P w.machine w.host → P w.step.2.machine w.step.2.host
  stopped : ∀ {m : Machine} {host : H}, P m host → P m (Host.perform .stopAll host)
  asked : ∀ {m : Machine} {host : H} (part : UInt16), P m host → P m (Host.openPart part host).2
  opened : ∀ {m : Machine} {host later : H} {part : UInt16} {code : Code},
    Host.openPart part host = (.ok code, later) → P m host →
      P { m with script := { code }, currentPart := some part } later
  marked : ∀ {m : Machine} {host : H}, P m host → P m (Host.takeMusicMark host).2
  restored : ∀ {m : Machine} {host : H} (fields : List Entry), P m host → P m (Host.restore fields host)

theorem World.startPart_host (w : World H) (part : UInt16) :
    (w.startPart part).2.host = (Host.openPart part (Host.perform .stopAll w.host)).2 := by
  obtain ⟨fault, host, opens, started⟩ | ⟨code, host, log, opens, started⟩ := w.startPart_cases part <;>
    rw [started, opens]

theorem Engine.eq_of_loadPayload_error {e next : Engine H} {file : StateFile} {fault : Fault}
    (failed : e.loadPayload file = (.error fault, next)) : next = e := by
  rcases checked : e.checkState file.payload.toList file.version with error | _
  · simp only [loadPayload, load_of_refused checked] at failed
    cases failed
    rfl
  · obtain ⟨loaded, loads, -⟩ := loadPayload_of_accepted checked
    cases failed.symm.trans loads

namespace Lasting

/-- What only depends on the host lasts if it lasts under every request. -/
theorem of_met {P : H → Prop} (met : ∀ {host} request, P host → P (Host.meet host request)) :
    Lasting fun _ host => P host where
  footing here _ := here
  step {w} here := w.step_told.of_met met here
  stopped here := met (.tell .stopAll) here
  asked part here := met (.openPart part) here
  opened {_ _ _ part _} opens here := by
    have later := met (.openPart part) here
    rw [Host.meet, opens] at later
    exact later
  marked here := met .takeMusicMark here
  restored fields here := met (.restore fields) here

/-- What lasts for itself lasts together. -/
theorem and {P Q : Machine → H → Prop} (first : Lasting P) (second : Lasting Q) :
    Lasting fun m host => P m host ∧ Q m host where
  footing here same := ⟨first.footing here.1 same, second.footing here.2 same⟩
  step here := ⟨first.step here.1, second.step here.2⟩
  stopped here := ⟨first.stopped here.1, second.stopped here.2⟩
  asked part here := ⟨first.asked part here.1, second.asked part here.2⟩
  opened opens here := ⟨first.opened opens here.1, second.opened opens here.2⟩
  marked here := ⟨first.marked here.1, second.marked here.2⟩
  restored fields here := ⟨first.restored fields here.1, second.restored fields here.2⟩

variable {P : Machine → H → Prop} (lasting : Lasting P)

include lasting

/-! ### Frames -/

theorem startPart {w : World H} (here : P w.machine w.host) (part : UInt16) :
    P (w.startPart part).2.machine (w.startPart part).2.host := by
  have silent := lasting.stopped here
  obtain ⟨fault, host, opens, started⟩ | ⟨code, host, log, opens, started⟩ := w.startPart_cases part
  · have later := lasting.asked part silent
    rw [opens] at later
    rw [started]
    exact lasting.footing later ⟨rfl, rfl, rfl, rfl⟩
  · rw [started]
    exact lasting.footing (lasting.opened opens silent) ⟨rfl, rfl, rfl, rfl⟩

theorem commitRequests {w : World H} (here : P w.machine w.host) :
    P w.commitRequests.2.machine w.commitRequests.2.host := by
  have switched : P w.switchPart.2.machine w.switchPart.2.host := by
    unfold World.switchPart
    split
    · exact here
    · exact lasting.startPart (w := w.mapMachine _) (lasting.footing here ⟨rfl, rfl, rfl, rfl⟩) _
  unfold World.commitRequests
  rcases switching : w.switchPart with ⟨result, next⟩
  rw [switching] at switched
  cases result with
  | error fault => exact switched
  | ok _ =>
    have marked := lasting.marked switched
    simp only [World.takeMusicMark]
    rcases asked : Host.takeMusicMark next.host with ⟨_ | mark, host⟩
    · rw [asked] at marked
      exact lasting.footing marked ⟨rfl, rfl, rfl, rfl⟩
    · rw [asked] at marked
      exact lasting.footing marked ⟨rfl, rfl, rfl, rfl⟩

theorem afterSteps (count : Nat) {w : World H} (here : P w.machine w.host) :
    P (World.afterSteps count w).machine (World.afterSteps count w).host := by
  induction count generalizing w with
  | zero => exact here
  | succ count ih => exact ih (lasting.step here)

theorem runThread {w : World H} (here : P w.machine w.host) (thread : Fin threadCount) :
    P (w.runThread thread).2.machine (w.runThread thread).2.host := by
  have begun : P (w.beginSlice thread).machine (w.beginSlice thread).host :=
    lasting.footing here ⟨rfl, rfl, rfl, rfl⟩
  have ended : P (w.sliceEnd thread).2.machine (w.sliceEnd thread).2.host := by
    obtain ⟨count, -, same⟩ :=
      World.runSlice_eq_afterSteps thread w.machine.options.instructionLimit.toNat (w.beginSlice thread)
    rw [World.sliceEnd, same]
    exact lasting.afterSteps count begun
  obtain ⟨-, ran⟩ | ⟨fault, ran⟩ | ⟨pc, -, ran⟩ := w.runThread_cases thread
  · rw [ran]
    exact lasting.footing here ⟨rfl, rfl, rfl, rfl⟩
  · rw [ran]
    exact ended
  · rw [ran]
    exact lasting.footing ended ⟨rfl, rfl, rfl, rfl⟩

theorem runAll {w : World H} (here : P w.machine w.host) : P w.runAll.2.machine w.runAll.2.host := by
  refine World.runAll_of_slices (fun w v => P w.machine w.host → P v.machine v.host) ?_ ?_ ?_ ?_ ?_ w here
  · exact fun _ here => here
  · exact fun first second here => second (first here)
  · exact fun _ thread here => lasting.runThread here thread
  · exact fun _ here => lasting.footing here ⟨rfl, rfl, rfl, rfl⟩
  · exact fun _ _ _ here => here

theorem guarded {phase : World H → Except Fault Unit × World H} {w : World H} (here : P w.machine w.host)
    (later : P (phase w).2.machine (phase w).2.host) :
    P (World.guarded phase w).2.machine (World.guarded phase w).2.host := by
  by_cases aborted : w.machine.aborted = true
  · rw [World.guarded_of_aborted phase aborted]
    exact here
  · obtain ⟨-, host, machine⟩ := World.guarded_of_running phase (Bool.eq_false_iff.mpr aborted)
    rw [host, machine]
    exact lasting.footing later ⟨rfl, rfl, rfl, rfl⟩

theorem framed (between : Machine → Machine) (kept : ∀ m : Machine, m.SameFooting (between m)) {w : World H}
    (here : P w.machine w.host) : P (w.framed between).2.machine (w.framed between).2.host := by
  have committed : P w.commit.2.machine w.commit.2.host := lasting.guarded here (lasting.commitRequests here)
  unfold World.framed
  rcases ran : w.commit with ⟨result, next⟩
  rw [ran] at committed
  cases result with
  | error fault => exact committed
  | ok _ =>
    have changed := lasting.footing committed (kept next.machine)
    exact lasting.guarded (w := next.mapMachine between) changed (lasting.runAll changed)

theorem advance {w : World H} (here : P w.machine w.host) (input : PlayerInput) :
    P (w.advance input).2.machine (w.advance input).2.host :=
  lasting.framed (·.applyInput input) (fun _ => ⟨rfl, rfl, rfl, rfl⟩) here

end Lasting

/-! ### Engines -/

namespace Engine

/-- What makes an engine go on. -/
inductive Move where
  | advance (input : PlayerInput)
  | token (token : List Char)
  | frame
  | requestPart (part : UInt16)
  deriving DecidableEq, Repr

/-- Whatever else can be done to an engine. -/
inductive Change where
  | move (move : Move)
  | reset (part : UInt16)
  | load (bytes : Bytes) (version : UInt16)
  | loadFile (file : StateFile)

/-- All that an engine is used for. -/
inductive Use where
  | change (change : Change)
  | save (buffer : Option Bytes)
  | saveFile
  | hostState (wanted : Bool)

/-- What a move comes to. -/
def Move.run : Move → Engine H → Except Fault Unit × Engine H
  | advance input, e => e.advance input
  | token text, e => e.advanceToken text
  | frame, e => e.runFrame
  | requestPart part, e => (.ok (), e.requestPart part)

/-- What a move does to a machine with its host, unless it is a token that denotes no input. -/
def Move.operation? : Move → Option Operation
  | advance input => some (.frame (.advance input))
  | token text => (PlayerInput.ofToken? text).map fun input => .frame (.advance input)
  | frame => some (.frame .runFrame)
  | requestPart part => some (.requestPart part)

theorem Move.run_of_operation {move : Move} {op : Operation} (is : move.operation? = some op) (e : Engine H) :
    (move.run e).1 = (op.run e.world).1 ∧ (move.run e).2.world = (op.run e.world).2 := by
  cases move with
  | token text =>
    obtain ⟨input, read, rfl⟩ := Option.map_eq_some_iff.mp is
    simp only [Move.run, advanceToken, PlayerInput.ofToken, read]
    exact ⟨rfl, rfl⟩
  | _ =>
    cases is
    exact ⟨rfl, rfl⟩

theorem Move.run_of_refused {move : Move} (refused : move.operation? = none) :
    ∃ fault, ∀ {H : Type} [Host H] (e : Engine H), move.run e = (.error fault, e) := by
  cases move with
  | token text =>
    refine ⟨.invalidInput text, fun e => ?_⟩
    simp only [Move.run, advanceToken, PlayerInput.ofToken, Option.map_eq_none_iff.mp refused]
  | _ => cases refused

/-- The engine after a change, whatever came of it. -/
def Change.apply : Change → Engine H → Engine H
  | move step, e => (step.run e).2
  | reset part, e => (e.reset part).2
  | load bytes version, e => (e.load bytes version).2
  | loadFile file, e => (e.loadFile file).2

/-- The engine after it was used, whatever came of it. -/
def Use.apply : Use → Engine H → Engine H
  | .change step, e => step.apply e
  | .save buffer, e => e.note (e.save buffer).log
  | .saveFile, e => e.note e.saveFile.2
  | .hostState wanted, e => { e with hostState := wanted }

/-- The engine after it was used time and again. -/
def Use.after : List Use → Engine H → Engine H
  | [], e => e
  | use :: uses, e => after uses (use.apply e)

end Engine

namespace Lasting

open Engine (Move Change Use)

variable {P : Machine → H → Prop} (lasting : Lasting P) {e : Engine H}

include lasting

theorem move (here : P e.world.machine e.world.host) (move : Move) :
    P (move.run e).2.world.machine (move.run e).2.world.host := by
  cases move with
  | advance input => exact lasting.advance here input
  | token text =>
    show P (e.advanceToken text).2.world.machine (e.advanceToken text).2.world.host
    unfold Engine.advanceToken
    split
    · exact here
    · exact lasting.advance here _
  | frame => exact lasting.framed id Machine.SameFooting.refl here
  | requestPart part => exact lasting.footing here ⟨rfl, rfl, rfl, rfl⟩

theorem load (here : P e.world.machine e.world.host) (bytes : Bytes) (version : UInt16) :
    P (e.load bytes version).2.world.machine (e.load bytes version).2.world.host := by
  rcases checked : e.checkState bytes version with error | _
  · rw [Engine.load_of_refused checked]
    exact here
  · obtain ⟨loaded, loads, read⟩ := Engine.load_of_accepted checked
    rw [loads]
    have hosted : P e.world.machine loaded.world.host := by
      by_cases shared : e.hostState = true
      · obtain ⟨fields, -, given⟩ := read.host shared
        rw [given]
        exact lasting.restored fields here
      · rw [read.hostAlone (Bool.eq_false_iff.mpr shared)]
        exact here
    show P loaded.world.machine loaded.world.host
    rw [read.settled]
    exact lasting.footing hosted ⟨rfl, rfl, rfl, rfl⟩

theorem loadPayload (here : P e.world.machine e.world.host) (file : StateFile) :
    P (e.loadPayload file).2.world.machine (e.loadPayload file).2.world.host := by
  have loaded := lasting.load here file.payload.toList file.version
  unfold Engine.loadPayload
  rcases ran : e.load file.payload.toList file.version with ⟨result, next⟩
  rw [ran] at loaded
  cases result <;> exact loaded

/-- A file that is not loaded leaves the host as the switch to its part left it, and the machine as it was before. -/
theorem loadOnPart (here : P e.world.machine e.world.host) (file : StateFile) :
    P (e.loadOnPart file).2.world.machine (e.loadOnPart file).2.world.host := by
  have started := lasting.startPart here file.part
  have returned : P e.world.machine (e.world.startPart file.part).2.host := by
    rw [World.startPart_host]
    exact lasting.asked file.part (lasting.stopped here)
  simp only [Engine.loadOnPart, Engine.onWorld]
  rcases switched : e.world.startPart file.part with ⟨fault | _, world⟩
  · rw [switched] at returned
    exact returned
  · rw [switched] at started returned
    simp only
    have loaded := lasting.loadPayload (e := ⟨world, e.hostState⟩) started file
    rcases ran : Engine.loadPayload ⟨world, e.hostState⟩ file with ⟨fault | _, next⟩
    · rw [Engine.eq_of_loadPayload_error ran]
      exact returned
    · rw [ran] at loaded
      exact loaded

theorem loadFile (here : P e.world.machine e.world.host) (file : StateFile) :
    P (e.loadFile file).2.world.machine (e.loadFile file).2.world.host := by
  have loaded : P
      (if e.world.machine.currentPart = some file.part then e.loadPayload file else e.loadOnPart file).2.world.machine
      (if e.world.machine.currentPart = some file.part then e.loadPayload file else e.loadOnPart file).2.world.host := by
    split
    · exact lasting.loadPayload here file
    · exact lasting.loadOnPart here file
  unfold Engine.loadFile
  split
  · exact here
  · split
    · rename_i ended
      rw [ended] at loaded
      exact loaded
    · rename_i ended
      rw [ended] at loaded
      exact loaded

/-- Whatever changes an engine, and whether that goes well or not, what lasts still holds. -/
theorem change (here : P e.world.machine e.world.host) (change : Change) :
    P (change.apply e).world.machine (change.apply e).world.host := by
  cases change with
  | move step => exact lasting.move here step
  | reset part =>
    have reset : P e.world.machine.reset e.world.host := lasting.footing here ⟨rfl, rfl, rfl, rfl⟩
    exact lasting.startPart (w := e.world.mapMachine (·.reset)) reset part
  | load bytes version => exact lasting.load here bytes version
  | loadFile file => exact lasting.loadFile here file

theorem use (here : P e.world.machine e.world.host) (use : Use) :
    P (use.apply e).world.machine (use.apply e).world.host := by
  cases use with
  | change step => exact lasting.change here step
  | save buffer => exact here
  | saveFile => exact here
  | hostState wanted => exact here

theorem after (uses : List Use) {e : Engine H} (here : P e.world.machine e.world.host) :
    P (Use.after uses e).world.machine (Use.after uses e).world.host := by
  induction uses generalizing e with
  | nil => exact here
  | cons use uses ih => exact ih (lasting.use here use)

end Lasting

end Framescript
