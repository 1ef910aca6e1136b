import Framescript.Proofs.Abort
import Framescript.Proofs.Lasting
import Framescript.Proofs.Traced

/-!
The clock of a host without screen and sound. A machine asks it to wait only when it shows a page, for as long as the
last page is to stay. As the clock stands still in between, the last page was always shown just now, whatever is done to
an engine and whatever comes of it. So every wait is for the whole pause, and the clock shows the sum of all pauses
(`Engine.Event.clock_shows_pauses`).
-/
namespace Framescript

/-! ### Moments -/

section moments

variable {H : Type} [Host H]

namespace World

/-- The worlds in which the instructions of a run phase are begun. -/
def phaseMoments (w : World H) : List (World H) :=
  w.phaseSlices.flatMap Slice.moments

/-- The worlds in which the instructions of a frame are begun. -/
def frameMoments (between : Machine → Machine) (w : World H) : List (World H) :=
  match w.commit with
  | (.error _, _) => []
  | (.ok (), after) => (after.mapMachine between).phaseMoments

end World

/-- The worlds in which instructions are begun during a call. -/
def FrameCall.moments : FrameCall → World H → List (World H)
  | commit, _ => []
  | runPhase, w => w.phaseMoments
  | runFrame, w => w.frameMoments id
  | advance input, w => w.frameMoments (·.applyInput input)

/-- The worlds in which instructions are begun during an operation. -/
def Operation.moments : Operation → World H → List (World H)
  | frame call, w => call.moments w
  | applyInput _, _ | requestPart _, _ => []

/-- The worlds in which instructions are begun during an act. -/
def Act.moments : Act → World H → List (World H)
  | operation op, w => op.moments w
  | _, _ => []

namespace Engine

/-- The worlds in which instructions are begun during a move. -/
def Move.moments (move : Move) (e : Engine H) : List (World H) :=
  move.operation?.elim [] (·.moments e.world)

/-- What can happen to an engine: it is used as a whole, or something is done to the machine in it. -/
inductive Event where
  | use (use : Use)
  | act (act : Act)

namespace Event

/-- The engine after an event, whatever came of it. -/
def apply : Event → Engine H → Engine H
  | use step, e => step.apply e
  | act step, e => { e with world := (step.run e.world).2 }

/-- The worlds in which instructions are begun during an event. -/
def moments : Event → Engine H → List (World H)
  | use (.change (.move move)), e => move.moments e
  | use _, _ => []
  | act step, e => step.moments e.world

/-- The engine after events that happen one after the other. -/
def after : List Event → Engine H → Engine H
  | [], e => e
  | event :: events, e => after events (event.apply e)

/-- The worlds in which instructions are begun during events that happen one after the other. -/
def allMoments : List Event → Engine H → List (World H)
  | [], _ => []
  | event :: events, e => event.moments e ++ allMoments events (event.apply e)

end Event

end Engine

end moments

/-! ### Time -/

theorem Instr.eq_blit_of_showsPage {instr : Instr} (shows : instr.showsPage = true) :
    ∃ page, instr = .table .blit (page, ()) := by
  unfold showsPage at shows
  split at shows
  · rename_i operands
    exact ⟨operands.1, rfl⟩
  · cases shows

namespace World

/-- A world in which the last page was shown just now. -/
def InStep (w : World Headless) : Prop :=
  w.machine.lastShown = w.host.now

/-- The milliseconds for which the next instruction waits. If it shows a page and time is left between pages, these are
    twenty for each slice of the pause, which may be negative and then counts as none. -/
def pause (w : World Headless) : Nat :=
  if w.machine.options.pacing ∧ w.next?.any Instr.showsPage then 20 * (w.read Variables.pauseSlices).toInt.toNat
  else 0

/-- The milliseconds for which instructions wait. -/
def pauses : List (World Headless) → Nat
  | [] => 0
  | w :: ws => w.pause + pauses ws

/-- What the instructions that are executed in some worlds come to, from one world to another: the clock moves on by
    their pauses, and the last page was shown just now all along. -/
structure Elapses (moments : List (World Headless)) (w v : World Headless) : Prop where
  clock : v.host.now = w.host.now + UInt32.ofNat (pauses moments)
  inStep : v.InStep
  along : ∀ moment ∈ moments, moment.InStep

/-- The clock stands still, and no page is shown. -/
structure Still (w v : World Headless) : Prop where
  lastShown : v.machine.lastShown = w.machine.lastShown
  now : v.host.now = w.host.now

variable {w v : World Headless}

theorem Still.refl (w : World Headless) : Still w w :=
  ⟨rfl, rfl⟩

theorem Still.trans {u : World Headless} (first : Still w v) (second : Still v u) : Still w u :=
  ⟨second.lastShown.trans first.lastShown, second.now.trans first.now⟩

theorem Still.inStep (still : Still w v) (inStep : w.InStep) : v.InStep :=
  still.lastShown.trans (inStep.trans still.now.symm)

theorem Still.elapses (still : Still w v) (inStep : w.InStep) : Elapses [] w v where
  clock := still.now.trans (UInt32.add_zero _).symm
  inStep := still.inStep inStep
  along _ none := absurd none List.not_mem_nil

theorem pauses_append (first second : List (World Headless)) :
    pauses (first ++ second) = pauses first + pauses second := by
  induction first with
  | nil => exact (Nat.zero_add _).symm
  | cons w ws ih => rw [List.cons_append, pauses, pauses, ih, Nat.add_assoc]

theorem Elapses.append {first second : List (World Headless)} {u : World Headless} (before : Elapses first w v)
    (behind : Elapses second v u) : Elapses (first ++ second) w u where
  clock := by rw [behind.clock, before.clock, pauses_append, UInt32.ofNat_add, UInt32.add_assoc]
  inStep := behind.inStep
  along moment present := (List.mem_append.mp present).elim (before.along moment) (behind.along moment)

theorem Elapses.before {moments : List (World Headless)} {u : World Headless} (still : Still w v) (inStep : w.InStep)
    (elapses : v.InStep → Elapses moments v u) : Elapses moments w u :=
  (still.elapses inStep).append (elapses (still.inStep inStep))

theorem Elapses.behind {moments : List (World Headless)} {u : World Headless} (elapses : Elapses moments w v)
    (still : Still v u) : Elapses moments w u := by
  rw [← List.append_nil moments]
  exact elapses.append (still.elapses elapses.inStep)

theorem Elapses.clock_toNat {moments : List (World Headless)} (elapses : Elapses moments w v) :
    v.host.now.toNat = (w.host.now.toNat + pauses moments) % 0x100000000 := by
  rw [elapses.clock, UInt32.toNat_add, UInt32.toNat_ofNat']
  exact Nat.add_mod_mod _ _ _

/-! ### Instructions -/

/-- When the last page was shown just now, the wait is for the whole pause. -/
theorem pace_now (inStep : w.InStep) :
    w.pace.host.now = w.host.now + UInt32.ofNat (20 * (w.read Variables.pauseSlices).toInt.toNat) := by
  have elapsed : (Host.now w.host - w.machine.lastShown).toNat = 0 := by
    show (w.host.now - w.machine.lastShown).toNat = 0
    rw [inStep, UInt32.sub_self]
    rfl
  simp only [pace, elapsed]
  generalize (w.read Variables.pauseSlices).toInt = slices
  split
  · have whole : (slices * 20 - (0 : Nat)).toNat = 20 * slices.toNat := by omega
    rw [whole]
    rfl
  · have none : 20 * slices.toNat = 0 := by omega
    rw [none]
    exact (UInt32.add_zero _).symm

theorem handleKeys_still (w : World Headless) : Still w w.handleKeys := by
  refine ⟨?_, ?_⟩
  · rw [handleKeys_machine]
  · rw [handleKeys_host]

/-- A page that is shown ends its pause, and is the last one from then on. -/
theorem blit_now (inStep : w.InStep) (page : UInt8) :
    (w.blit page).InStep ∧ (w.blit page).host.now = w.host.now +
      UInt32.ofNat (if w.machine.options.pacing then 20 * (w.read Variables.pauseSlices).toInt.toNat else 0) := by
  have keyed := handleKeys_still w
  have options : w.handleKeys.machine.options = w.machine.options := by rw [handleKeys_machine]
  have slices : w.handleKeys.read Variables.pauseSlices = w.read Variables.pauseSlices := by
    rw [read, handleKeys_machine]
    rfl
  have paced : (if w.handleKeys.machine.options.pacing then w.handleKeys.pace else w.handleKeys).host.now =
      w.host.now +
        UInt32.ofNat (if w.machine.options.pacing then 20 * (w.read Variables.pauseSlices).toInt.toNat else 0) := by
    rw [options]
    split
    · rw [pace_now (keyed.inStep inStep), slices, keyed.now]
    · exact keyed.now.trans (UInt32.add_zero _).symm
  unfold blit
  simp only
  generalize (if w.handleKeys.machine.options.pacing = true then w.handleKeys.pace else w.handleKeys) = u at paced ⊢
  rw [← paced]
  split <;> exact ⟨rfl, rfl⟩

theorem executeTable_still (w : World Headless) (origin : Nat) {op : Opcode} (operands : Operands op.operands)
    (other : op ≠ .blit) : Still w (w.executeTable origin op operands).2 := by
  cases op with
  | call =>
    obtain ⟨script, callStack, machine⟩ := enter_changes w origin operands.1
    exact ⟨(congrArg Machine.lastShown machine :), congrArg Headless.now (enter_host w origin operands.1)⟩
  | ret =>
    obtain ⟨script, callStack, machine⟩ := leave_changes w origin
    exact ⟨(congrArg Machine.lastShown machine :), congrArg Headless.now (leave_host w origin)⟩
  | djnz =>
    obtain ⟨counter, target, _⟩ := operands
    let counted := w.update counter (· - 1)
    show Still w (if counted.read counter = 0 then counted else counted.jump target)
    split <;> exact ⟨rfl, rfl⟩
  | jmpIf =>
    obtain ⟨script, machine⟩ := jumpIf_changes w origin operands.1
    exact ⟨(congrArg Machine.lastShown machine :), congrArg Headless.now (jumpIf_host w origin operands.1)⟩
  | setVec =>
    obtain ⟨threads, machine⟩ := setVector_changes w operands.1 operands.2.1
    exact ⟨(congrArg Machine.lastShown machine :), congrArg Headless.now (setVector_host w operands.1 operands.2.1)⟩
  | resetThreads =>
    obtain ⟨threads, machine⟩ := resetThreads_changes w origin operands.1
    exact ⟨(congrArg Machine.lastShown machine :), congrArg Headless.now (resetThreads_host w origin operands.1)⟩
  | loadResource =>
    show Still w (w.loadResource operands.1)
    unfold loadResource
    split
    · exact ⟨rfl, rfl⟩
    · split <;> exact ⟨rfl, rfl⟩
  | blit => exact absurd rfl other
  | _ => exact ⟨rfl, rfl⟩

/-- What shows no page leaves the clock and the time of the last page alone. -/
theorem execute_still (w : World Headless) (origin : Nat) {instr : Instr} (other : instr.showsPage = false) :
    Still w (w.execute origin instr).2 := by
  cases instr with
  | background halved x y =>
    show Still w (w.drawBackground halved (widen x) (widen y))
    unfold drawBackground
    simp only
    split <;> exact ⟨rfl, rfl⟩
  | sprite halved x y zoom => exact ⟨rfl, rfl⟩
  | table op operands =>
    refine executeTable_still w origin operands ?_
    rintro rfl
    cases other

theorem Elapses.single (inStep : w.InStep) (later : v.InStep)
    (clock : v.host.now = w.host.now + UInt32.ofNat w.pause) : Elapses [w] w v where
  clock := clock
  inStep := later
  along moment present := by
    rw [List.mem_singleton.mp present]
    exact inStep

theorem Still.single (still : Still w v) (inStep : w.InStep) (stands : w.pause = 0) : Elapses [w] w v := by
  refine .single inStep (still.inStep inStep) ?_
  rw [stands]
  exact still.now.trans (UInt32.add_zero _).symm

/-- An instruction waits for its pause, and for nothing else. -/
theorem step_elapses (inStep : w.InStep) : Elapses [w] w w.step.2 := by
  rcases read : Instr.read .twoBytes w.machine.script with fault | ⟨instr, script⟩
  · have next : w.next? = none := by
      rw [next?, read]
      rfl
    rw [step_eq_of_unread read]
    exact Still.single ⟨rfl, rfl⟩ inStep (by simp [pause, next])
  · have next := next_of_read read
    have fetching : Still w (w.fetched instr script) := ⟨rfl, rfl⟩
    rw [step_of_read read]
    cases shows : instr.showsPage with
    | false =>
      have still := fetching.trans (execute_still (w.fetched instr script) w.machine.script.pc shows)
      exact still.single inStep (by simp [pause, next, shows])
    | true =>
      obtain ⟨page, rfl⟩ := Instr.eq_blit_of_showsPage shows
      have waits : w.pause =
          if w.machine.options.pacing then 20 * (w.read Variables.pauseSlices).toInt.toNat else 0 := by
        simp [pause, next, shows]
      obtain ⟨later, clock⟩ := blit_now (fetching.inStep inStep) page
      refine .single inStep later ?_
      rw [waits]
      exact clock

/-! ### Frames -/

theorem traced_elapses : Traced fun _ moments (w v : World Headless) => w.InStep → Elapses moments w v where
  rests _ w inStep := (Still.refl w).elapses inStep
  ran _ inStep := step_elapses inStep
  failed _ inStep := step_elapses inStep
  turned _ _ inStep := Still.elapses ⟨rfl, rfl⟩ inStep
  begun _ _ inStep := Still.elapses ⟨rfl, rfl⟩ inStep
  stored _ _ _ inStep := Still.elapses ⟨rfl, rfl⟩ inStep
  append first second inStep := (first inStep).append (second (first inStep).inStep)

theorem guarded_still {phase : World Headless → Except Fault Unit × World Headless}
    (running : w.machine.aborted = false) : Still (phase w).2 (guarded phase w).2 := by
  obtain ⟨-, host, machine⟩ := guarded_of_running phase running
  exact ⟨(congrArg Machine.lastShown machine :), congrArg Headless.now host⟩

theorem runPhase_elapses (inStep : w.InStep) : Elapses w.phaseMoments w w.runPhase.2 := by
  unfold phaseMoments phaseSlices runPhase
  by_cases aborted : w.machine.aborted = true
  · rw [if_pos aborted, guarded_of_aborted runAll aborted]
    exact (Still.refl w).elapses inStep
  · rw [if_neg aborted]
    refine Elapses.behind ?_ (guarded_still (Bool.eq_false_iff.mpr aborted))
    have cleared : Still w (w.mapMachine fun m => { m with profile := {} }) := ⟨rfl, rfl⟩
    have ran := Elapses.before cleared inStep (traced_elapses.loop _)
    unfold runAll
    rcases ended : runThreads ThreadTable.order (w.mapMachine fun m => { m with profile := {} }) with
      ⟨fault | _, after⟩
    · rw [ended] at ran
      exact ran
    · rw [ended] at ran
      exact ran.behind ⟨rfl, rfl⟩

theorem startPart_still (w : World Headless) (part : UInt16) : Still w (w.startPart part).2 := by
  have opened (host : Headless) : (Headless.openPart part host).2.now = host.now := by
    unfold Headless.openPart
    split <;> rfl
  refine ⟨?_, ?_⟩
  · obtain ⟨fault, host, -, started⟩ | ⟨code, host, log, -, started⟩ := w.startPart_cases part
    · rw [started]
      rfl
    · rw [started]
      rfl
  · rw [startPart_host]
    exact opened w.host

theorem commit_still (w : World Headless) : Still w w.commit.2 := by
  have switched : Still w w.switchPart.2 := by
    unfold switchPart
    split
    · exact .refl w
    · have taken : Still w (w.mapMachine fun m => { m with requestedPart := none }) := ⟨rfl, rfl⟩
      exact taken.trans (startPart_still _ _)
  have committed : Still w w.commitRequests.2 := by
    unfold commitRequests
    rcases switching : w.switchPart with ⟨fault | _, next⟩
    · rw [switching] at switched
      exact switched
    · rw [switching] at switched
      exact switched.trans ⟨rfl, rfl⟩
  unfold commit
  by_cases aborted : w.machine.aborted = true
  · rw [guarded_of_aborted commitRequests aborted]
    exact .refl w
  · exact committed.trans (guarded_still (Bool.eq_false_iff.mpr aborted))

theorem framed_elapses (inStep : w.InStep) {between : Machine → Machine}
    (kept : ∀ m, (between m).lastShown = m.lastShown) : Elapses (w.frameMoments between) w (w.framed between).2 := by
  have committed := commit_still w
  unfold frameMoments framed
  rcases ran : w.commit with ⟨fault | _, next⟩
  · rw [ran] at committed
    exact committed.elapses inStep
  · rw [ran] at committed
    have changed : Still w (next.mapMachine between) := committed.trans ⟨kept next.machine, rfl⟩
    exact .before changed inStep runPhase_elapses

end World

theorem FrameCall.run_elapses (call : FrameCall) {w : World Headless} (inStep : w.InStep) :
    World.Elapses (call.moments w) w (call.run w).2 := by
  cases call with
  | commit => exact (World.commit_still w).elapses inStep
  | runPhase => exact World.runPhase_elapses inStep
  | runFrame => exact World.framed_elapses inStep fun _ => rfl
  | advance input => exact World.framed_elapses inStep fun _ => rfl

open World (Still Elapses)

theorem Operation.run_elapses (op : Operation) {w : World Headless} (inStep : w.InStep) :
    Elapses (op.moments w) w (op.run w).2 := by
  cases op with
  | frame call => exact call.run_elapses inStep
  | applyInput | requestPart => exact Still.elapses ⟨rfl, rfl⟩ inStep

/-! ### Other acts -/

theorem Machine.load_lastShown (m : Machine) (bytes : Bytes) (version : UInt16) :
    (m.load bytes version).2.1.lastShown = m.lastShown := by
  rcases checked : m.checkState bytes version with error | _
  · simp only [load, checked]
  · obtain ⟨machine, log, loads, -, settled⟩ := load_reads checked
    rw [loads]
    exact (congrArg lastShown settled :)

theorem Act.run_elapses (act : Act) {w : World Headless} (inStep : w.InStep) :
    Elapses (act.moments w) w (act.run w).2 := by
  cases act with
  | operation op => exact op.run_elapses inStep
  | startPart part => exact (w.startPart_still part).elapses inStep
  | walk walker =>
    obtain ⟨vars, threads, callStack, machine⟩ := w.machine.walk_changes walker
    have still : Still w (Act.run (.walk walker) w).2 := ⟨(congrArg Machine.lastShown machine :), rfl⟩
    exact still.elapses inStep
  | load bytes version =>
    have still : Still w (Act.run (.load bytes version) w).2 := ⟨w.machine.load_lastShown bytes version, rfl⟩
    exact still.elapses inStep
  | setVariable | setOptions | save | reset =>
    exact Still.elapses ⟨rfl, rfl⟩ inStep

namespace Engine

theorem load_still (e : Engine Headless) (bytes : Bytes) (version : UInt16) :
    Still e.world (e.load bytes version).2.world := by
  rcases checked : e.checkState bytes version with error | _
  · rw [load_of_refused checked]
    exact .refl e.world
  · obtain ⟨loaded, loads, read⟩ := load_of_accepted checked
    rw [loads]
    have sameHost : loaded.world.host = e.world.host := by
      by_cases shared : e.hostState = true
      · obtain ⟨fields, -, given⟩ := read.host shared
        exact given
      · exact read.hostAlone (Bool.eq_false_iff.mpr shared)
    exact ⟨(congrArg Machine.lastShown read.settled :), congrArg Headless.now sameHost⟩

theorem loadPayload_still (e : Engine Headless) (file : StateFile) : Still e.world (e.loadPayload file).2.world := by
  have loaded := e.load_still file.payload.toList file.version
  unfold loadPayload
  rcases ran : e.load file.payload.toList file.version with ⟨result, next⟩
  rw [ran] at loaded
  cases result <;> exact loaded

/-- If a file is not loaded after a switch, the machine is put back and its host is not, but the clock stood still. -/
theorem loadOnPart_still (e : Engine Headless) (file : StateFile) : Still e.world (e.loadOnPart file).2.world := by
  have started := e.world.startPart_still file.part
  simp only [loadOnPart, onWorld]
  rcases switched : e.world.startPart file.part with ⟨fault | _, world⟩
  · rw [switched] at started
    exact ⟨rfl, started.now⟩
  · rw [switched] at started
    simp only
    have loaded := started.trans (loadPayload_still ⟨world, e.hostState⟩ file)
    rcases ran : loadPayload ⟨world, e.hostState⟩ file with ⟨fault | _, next⟩
    · rw [ran] at loaded
      exact ⟨rfl, loaded.now⟩
    · rw [ran] at loaded
      exact loaded

theorem loadFile_still (e : Engine Headless) (file : StateFile) : Still e.world (e.loadFile file).2.world := by
  have loaded : Still e.world
      (if e.world.machine.currentPart = some file.part then e.loadPayload file else e.loadOnPart file).2.world := by
    split
    · exact e.loadPayload_still file
    · exact e.loadOnPart_still file
  unfold loadFile
  split
  · exact .refl e.world
  · split
    · rename_i ended
      rw [ended] at loaded
      exact loaded
    · rename_i ended
      rw [ended] at loaded
      exact loaded.trans ⟨rfl, rfl⟩

theorem Move.run_elapses (move : Move) {e : Engine Headless} (inStep : e.world.InStep) :
    Elapses (move.moments e) e.world (move.run e).2.world := by
  unfold moments
  cases is : move.operation? with
  | none =>
    obtain ⟨fault, refuses⟩ := move.run_of_refused is
    rw [refuses e]
    exact (Still.refl e.world).elapses inStep
  | some op =>
    rw [(move.run_of_operation is e).2]
    exact op.run_elapses inStep

namespace Event

theorem apply_elapses (event : Event) {e : Engine Headless} (inStep : e.world.InStep) :
    Elapses (event.moments e) e.world (event.apply e).world := by
  cases event with
  | act act => exact act.run_elapses inStep
  | use use =>
    cases use with
    | change change =>
      cases change with
      | move move => exact move.run_elapses inStep
      | reset part =>
        have cleared : Still e.world (e.world.mapMachine (·.reset)) := ⟨rfl, rfl⟩
        exact (cleared.trans (World.startPart_still _ part)).elapses inStep
      | load bytes version => exact (e.load_still bytes version).elapses inStep
      | loadFile file => exact (e.loadFile_still file).elapses inStep
    | save | saveFile | hostState => exact Still.elapses ⟨rfl, rfl⟩ inStep

theorem after_elapses (events : List Event) {e : Engine Headless} (inStep : e.world.InStep) :
    Elapses (allMoments events e) e.world (after events e).world := by
  induction events generalizing e with
  | nil => exact (Still.refl e.world).elapses inStep
  | cons event events ih =>
    have first := event.apply_elapses inStep
    exact first.append (ih first.inStep)

end Event

theorem start_still (program : Program) (options : Options) (part : UInt16) :
    Still { machine := { options }, host := { program } } (start ({ program } : Headless) options part).2.world := by
  let fresh : World Headless := { machine := { options }, host := { program } }
  have started := fresh.startPart_still part
  unfold start
  rcases ran : fresh.startPart part with ⟨fault | _, world⟩
  · rw [ran] at started
    exact started
  · rw [ran] at started
    exact started.trans ⟨rfl, rfl⟩

/-- The clock of a host without screen and sound is driven by pauses alone. Whatever happens to an engine that starts
    with a new host, and whatever comes of it, the last page was shown just now, also before and after every instruction
    that is executed. So an instruction moves the clock on by its pause, which is that of a page if it shows one and
    time is left between pages, and nothing otherwise; and the clock shows the sum of these pauses. -/
theorem Event.clock_shows_pauses (program : Program) (options : Options) (part : UInt16) (events : List Event) :
    let started := (start ({ program } : Headless) options part).2
    let moments := allMoments events started
    let last := (after events started).world
    last.machine.lastShown = last.host.now ∧ last.host.now.toNat = World.pauses moments % 0x100000000 ∧
      ∀ w ∈ moments, w.machine.lastShown = w.host.now ∧ w.step.2.machine.lastShown = w.step.2.host.now ∧
        w.step.2.host.now.toNat = (w.host.now.toNat + w.pause) % 0x100000000 := by
  intro started moments last
  have still := start_still program options part
  have begun : started.world.InStep := still.inStep rfl
  have elapses : Elapses moments started.world last := after_elapses events begun
  have zero : started.world.host.now = 0 := still.now
  refine ⟨elapses.inStep, ?_, fun w present => ?_⟩
  · rw [elapses.clock_toNat, zero]
    exact congrArg (· % 0x100000000) (Nat.zero_add _)
  · have inStep := elapses.along w present
    have stepped := World.step_elapses inStep
    exact ⟨inStep, stepped.inStep, stepped.clock_toNat⟩

/-- Two pages with a pause of three slices and one of less than none, after pacing was turned on, and a part in the end
    that cannot be opened. -/
theorem Event.clock_shows_pauses_toggled :
    let code : Code := #[0x00, 0xFF, 0x00, 0x03, 0x10, 0x00, 0x00, 0xFF, 0xFF, 0xFF, 0x10, 0x01, 0x06, 0x07, 0x00, 0x00]
    let program : Program := { parts := [⟨Part.first, code⟩] }
    let events : List Event :=
      [.act (.setOptions { pacing := true }), .use (.change (.move .frame)), .use (.change (.reset Part.last))]
    let started := (start ({ program } : Headless) {} Part.first).2
    let moments := allMoments events started
    let last := (after events started).world
    last.machine.lastShown = last.host.now ∧ last.host.now.toNat = 60 ∧
      ∃ w ∈ moments, w.pause = 60 ∧ w.machine.lastShown = w.host.now ∧
        w.step.2.machine.lastShown = w.step.2.host.now ∧
        w.step.2.host.now.toNat = (w.host.now.toNat + w.pause) % 0x100000000 := by
  intro code program events
  have law := clock_shows_pauses program {} Part.first events
  have total :
      World.pauses (allMoments events (start ({ program } : Headless) {} Part.first).2) % 0x100000000 = 60 := by
    decide +kernel
  have paced : (allMoments events (start ({ program } : Headless) {} Part.first).2).any (·.pause == 60) = true := by
    decide +kernel
  generalize (start ({ program } : Headless) {} Part.first).2 = started at law total paced ⊢
  obtain ⟨w, present, pause⟩ := List.any_eq_true.mp paced
  exact ⟨law.1, law.2.1.trans total, w, present, of_decide_eq_true pause, law.2.2 w present⟩

end Engine

end Framescript
