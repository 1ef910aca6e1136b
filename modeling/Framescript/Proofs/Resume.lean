import Framescript.Proofs.History
import Framescript.Proofs.Restart
import Framescript.Proofs.ScriptFaults

/-!
Going on from a state file. An engine without screen and sound always has the code of its current part loaded
(`Serves`), so a state file that it writes can be loaded by every engine on the same program, on whatever part
that one is (`loadFile_image`). What the file does not hold is a switch to another part that has been requested
and a key that waits: the engine that loads it goes on as the one that wrote it would without them, and a
switch that got lost shows in the next frame (`saveFile_loadFile_follow`).
-/
namespace Framescript

/-! ### Programs -/

/-- A host that serves a program, and a machine with these settings and the code of its part of the program. -/
structure World.Serves (program : Program) (options : Options) (w : World Headless) : Prop where
  settings : w.machine.options = options
  loaded : w.machine.Loaded program.code?
  program : w.host.program = program

namespace World

variable {program : Program} {options : Options}

theorem startPart_of_served {w : World Headless} {part : UInt16} {code : Code}
    (served : w.host.program.code? part = some code) :
    ∃ after, w.startPart part = (.ok (), after) ∧ after.host.program = w.host.program ∧
      after.machine = w.machine.onPart part code := by
  have answer : Host.openPart part (Host.perform .stopAll w.host) =
      (.ok code, { w.host with stats.partLoads := w.host.stats.partLoads + 1 }) := by
    show Headless.openPart part w.host = _
    rw [Headless.openPart, served]
  obtain ⟨fault, host, opened, started⟩ | ⟨code, host, log, opened, started⟩ := w.startPart_cases part
  · cases answer.symm.trans opened
  · cases answer.symm.trans opened
    exact ⟨_, started, rfl, rfl⟩

theorem framed_running (between : Machine → Machine) (w : World Headless) (well : (w.framed between).1 = .ok ()) :
    (w.framed between).2.machine.aborted = false := by
  unfold framed at well ⊢
  rcases ran : w.commit with ⟨result, after⟩
  rw [ran] at well
  cases result with
  | error fault => cases well
  | ok _ => exact runPhase_running well

theorem advance_currentPart (w : World Headless) (input : PlayerInput) :
    (w.advance input).2.machine.currentPart = w.commit.2.machine.currentPart := by
  unfold advance
  rcases w.commit with ⟨result, after⟩
  cases result with
  | error fault => rfl
  | ok _ => exact runPhase_currentPart _

/-- A switch that is requested to a part of the program takes effect in the next frame, whatever comes of it. -/
theorem advance_switches {w : World Headless} (running : w.machine.aborted = false) {part : UInt16} {code : Code}
    (requested : w.machine.requestedPart = some part) (served : w.host.program.code? part = some code)
    (input : PlayerInput) : (w.advance input).2.machine.currentPart = some part := by
  rw [advance_currentPart, (commit_eq running).2, requested, Headless.answers_some, served]
  exact requested

/-- A switch that is requested to any other part makes the next frame fail. -/
theorem advance_of_unknown {w : World Headless} (running : w.machine.aborted = false) {part : UInt16}
    (requested : w.machine.requestedPart = some part) (absent : w.host.program.code? part = none)
    (input : PlayerInput) : (w.advance input).1 = .error (.unknownPart part) := by
  have failed := (commit_eq running).1
  rw [requested, Headless.answers_some, absent] at failed
  unfold advance
  rcases committed : w.commit with ⟨result, after⟩
  rw [committed] at failed
  cases failed
  rfl

/-- A frame before which no switch is requested goes on with the current part, whatever comes of it, and does not
    fail for lack of a part. -/
theorem advance_stays {w : World Headless} (running : w.machine.aborted = false)
    (noSwitch : w.machine.requestedPart = none) (input : PlayerInput) :
    (w.advance input).2.machine.currentPart = w.machine.currentPart ∧
      ∀ part, (w.advance input).1 ≠ .error (.unknownPart part) := by
  obtain ⟨well, machine⟩ := commit_eq running
  rw [noSwitch] at well machine
  refine ⟨?_, fun part => ?_⟩
  · rw [advance_currentPart, machine]
    rfl
  · unfold advance
    rcases committed : w.commit with ⟨result, after⟩
    rw [committed] at well
    cases well
    exact runPhase_ne_unknownPart _ part

end World

theorem lasting_settings {H : Type} [Host H] (options : Options) :
    Lasting fun (m : Machine) (_ : H) => m.options = options where
  footing here same := same.options.trans here
  step {w} here := w.step_keeps.options.trans here
  stopped here := here
  asked _ here := here
  opened _ here := here
  marked here := here
  restored _ here := here

theorem lasting_program (program : Program) : Lasting fun (_ : Machine) (host : Headless) => host.program = program :=
  Lasting.of_met fun request kept => (Headless.meet_program _ request).trans kept

/-- Whatever is done to an engine on a host without screen and sound, the settings, the program and the code that belongs
    to the part last. -/
theorem lasting_serves (program : Program) (options : Options) :
    Lasting fun (m : Machine) (host : Headless) =>
      (m.options = options ∧ host.program = program) ∧ Host.Serves program.code? host ∧ m.Loaded program.code? :=
  ((lasting_settings options).and (lasting_program program)).and lasting_loaded

theorem World.serves_iff {program : Program} {options : Options} {w : World Headless} :
    w.Serves program options ↔ (w.machine.options = options ∧ w.host.program = program) ∧
      Host.Serves program.code? w.host ∧ w.machine.Loaded program.code? := by
  constructor
  · rintro ⟨settings, loaded, rfl⟩
    exact ⟨⟨settings, rfl⟩, w.host.serves, loaded⟩
  · rintro ⟨⟨settings, program⟩, -, loaded⟩
    exact ⟨settings, loaded, program⟩

namespace Engine

/-! ### Engines -/

variable {H : Type} [Host H]

/-- The results of moves that are made one after the other, whatever comes of them, with the state hash and the
    current part after each. -/
def follow : List Move → Engine H → List (Except Fault Unit × Digest × Option UInt16)
  | [], _ => []
  | move :: moves, e =>
    ((move.run e).1, (move.run e).2.stateHash, (move.run e).2.world.machine.currentPart) :: follow moves (move.run e).2

variable {program : Program} {options : Options} {e : Engine Headless}

open World (Serves)

theorem move_serves (serves : Serves program options e.world) (move : Move) :
    Serves program options (move.run e).2.world :=
  World.serves_iff.mpr ((lasting_serves program options).move (World.serves_iff.mp serves) move)

theorem change_serves (serves : Serves program options e.world) (change : Change) :
    Serves program options (change.apply e).world :=
  World.serves_iff.mpr ((lasting_serves program options).change (World.serves_iff.mp serves) change)

/-! ### Files -/

theorem hostEntries_headless (e : Engine Headless) : e.hostEntries = [] := by
  unfold hostEntries
  split <;> rfl

theorem stateSize_headless (e : Engine Headless) (version : UInt16) :
    e.stateSize version = e.world.machine.stateSize version :=
  stateSize_of_bare e.hostEntries_headless version

/-- The file that an engine writes holds the image of its machine. -/
theorem saveFile_image (e : Engine Headless) : ∃ log, e.saveFile =
    (.ok { part := e.world.machine.currentPart.getD Part.first, payload := e.world.machine.image.toArray }, log) :=
  saveFile_of_bare e.hostEntries_headless

theorem checkState_image (e : Engine Headless) (source : Machine) :
    e.checkState source.image currentVersion = .ok () := by
  have full : source.image.length = e.stateSize currentVersion := by
    rw [stateSize_headless, Machine.stateSize_eq, Machine.length_image]
  rw [checkState, if_pos full]
  rfl

theorem loadHost_headless (e : Engine Headless) (bytes : Bytes) :
    ∃ loaded, e.loadHost bytes currentVersion = (.ok 0, loaded) ∧ loaded.world.machine = e.world.machine ∧
      loaded.world.host = e.world.host := by
  have walked : Walker.walk ⟨.load bytes, currentVersion, 0, 0⟩ [] =
      ⟨⟨.load bytes, currentVersion, 0, 0⟩, [], .ok (), Walker.report ⟨.load bytes, currentVersion, 0, 0⟩ 0⟩ :=
    Walker.walk_load (Nat.zero_le _)
  simp only [loadHost, hostEntries_headless, walked]
  split
  · exact ⟨_, rfl, rfl, rfl⟩
  · exact ⟨e, rfl, rfl, rfl⟩

theorem load_image (e : Engine Headless) (source : Machine) :
    ∃ count loaded, e.load source.image currentVersion = (.ok count, loaded) ∧
      loaded.world.machine = e.world.machine.withSaved source ∧ loaded.world.host = e.world.host := by
  have whole : source.image.take (e.world.machine.stateSize currentVersion) = source.image := by
    rw [Machine.stateSize_eq, ← source.length_image, List.take_length]
  obtain ⟨log, load⟩ := source.load_image e.world.machine
  obtain ⟨loaded, hosted, machine, host⟩ :=
    loadHost_headless ({ e with world.machine := e.world.machine.withSaved source }.note log)
      (source.image.drop (e.world.machine.stateSize currentVersion))
  simp only [Engine.load, checkState_image, whole, load, hosted]
  exact ⟨_, loaded, rfl, machine, host⟩

theorem loadPayload_image (e : Engine Headless) (source : Machine) (part : UInt16) :
    ∃ loaded, e.loadPayload { part, payload := source.image.toArray } = (.ok (), loaded) ∧
      loaded.world.machine = e.world.machine.withSaved source ∧ loaded.world.host = e.world.host := by
  obtain ⟨count, loaded, load, machine, host⟩ := e.load_image source
  refine ⟨loaded, ?_, machine, host⟩
  simp only [loadPayload, load]

/-- A file with the image of a machine can be loaded by every engine that serves its part, and puts the saved
    fields into a machine with the code of that part. -/
theorem loadFile_image (serves : Serves program options e.world) (source : Machine) {part : UInt16} {code : Code}
    (served : program.code? part = some code) :
    ∃ (loaded : Engine Headless) (base : Machine),
      e.loadFile { part, payload := source.image.toArray } = (.ok (), loaded) ∧
      loaded.world.machine = base.withSaved source ∧ loaded.world.host.program = program ∧
      base.script.code = code ∧ base.currentPart = some part ∧ base.options = options := by
  simp only [loadFile, checkState_image]
  by_cases current : e.world.machine.currentPart = some part
  · obtain ⟨loaded, load, machine, host⟩ := e.loadPayload_image source part
    obtain ⟨part', current', served'⟩ := serves.loaded
    cases current.symm.trans current'
    cases served.symm.trans served'
    simp only [if_pos current, load]
    exact ⟨_, e.world.machine, rfl, machine, by rw [← serves.program, ← host]; rfl, rfl, current, serves.settings⟩
  · rw [← serves.program] at served
    obtain ⟨after, started, sameProgram, begun⟩ := World.startPart_of_served served
    have switched : e.onWorld (·.startPart part) = (.ok (), { world := after, hostState := e.hostState }) := by
      show ((e.world.startPart part).1,
        ({ world := (e.world.startPart part).2, hostState := e.hostState } : Engine Headless)) = _
      rw [started]
    obtain ⟨loaded, load, machine, host⟩ := loadPayload_image { world := after, hostState := e.hostState } source part
    simp only [if_neg current, loadOnPart, switched, load]
    refine ⟨_, after.machine, rfl, machine, ?_, by rw [begun, Machine.onPart], by rw [begun, Machine.onPart], ?_⟩
    · rw [← serves.program, ← sameProgram]
      exact congrArg Headless.program host
    · rw [begun]
      exact serves.settings

/-! ### Going on -/

open Machine (Alike)

/-- Engines on the same program with machines that are alike go on alike. -/
theorem follow_eq_of_alike (moves : List Move) {e e' : Engine Headless} (serves : Serves program options e.world)
    (serves' : Serves program options e'.world) (alike : Alike e.world.machine e'.world.machine) :
    follow moves e' = follow moves e := by
  induction moves generalizing e e' with
  | nil => rfl
  | cons move moves ih =>
    have answers := Headless.answers_congr (serves'.program.trans serves.program.symm)
    obtain ⟨result, machine⟩ := move_of_alike move alike fun _ _ _ => answers _
    have sameHash := stateHash_of_visible machine.visible
    have samePart : (move.run e').2.world.machine.currentPart = (move.run e).2.world.machine.currentPart :=
      congrArg Visible.currentPart machine.visible
    rw [follow, follow, result, sameHash, samePart, ih (move_serves serves move) (move_serves serves' move) machine]

/-- The engine with nothing under way: no switch requested and no key waiting. -/
def settled (e : Engine Headless) : Engine Headless :=
  { e with world := e.world.mapMachine (·.settle) }

/-- If nothing is under way, it makes no difference that it is over. -/
theorem settle_alike {m : Machine} (noSwitch : m.requestedPart = none) (noKey : m.keys.code = false)
    (running : m.aborted = false) : Alike m m.settle := by
  refine ⟨{ m.residue with pauseKey := false }, ?_⟩
  simp only [Machine.rested, Machine.settle, Machine.withResidue, Machine.residue, noSwitch, noKey, running]
  rfl

/-- Engines that come from a new one by moves that all go well. -/
inductive Reached (program : Program) (options : Options) : Engine Headless → Prop
  | start {host : Headless} {part : UInt16} {e : Engine Headless} (hostState : Bool) (serves : host.program = program)
    (started : Engine.start host options part = (.ok (), e)) : Reached program options { e with hostState }
  | move {e after : Engine Headless} (move : Move) (reached : Reached program options e)
    (well : move.run e = (.ok (), after)) : Reached program options after

/-- Engines that come from a new one by changes of any kind, whether they go well or not. -/
inductive Built (program : Program) (options : Options) : Engine Headless → Prop
  | start {host : Headless} {part : UInt16} {e : Engine Headless} (hostState : Bool) (serves : host.program = program)
    (started : Engine.start host options part = (.ok (), e)) : Built program options { e with hostState }
  | change {e : Engine Headless} (change : Change) (built : Built program options e) :
    Built program options (change.apply e)

theorem start_serves {host : Headless} {part : UInt16} (serves : host.program = program)
    (started : Engine.start host options part = (.ok (), e)) :
    Serves program options e.world ∧ e.world.machine.aborted = false := by
  have loaded := (start_loaded (serves ▸ host.serves) started).2
  have kept := (lasting_program program).startPart (w := { machine := { options }, host }) serves part
  obtain ⟨fault, later, -, began⟩ | ⟨code, later, log, -, began⟩ :=
    ({ machine := { options }, host } : World Headless).startPart_cases part
  · rw [start, began] at started
    cases started
  · rw [began] at kept
    rw [start, began] at started
    cases started
    exact ⟨⟨rfl, loaded, kept⟩, rfl⟩

theorem Built.serves (built : Built program options e) : Serves program options e.world := by
  induction built with
  | start hostState serves started => exact (start_serves serves started).1
  | change change _ ih => exact change_serves ih change

/-- A move that goes well does not stop the machine. -/
theorem move_running (move : Move) (running : e.world.machine.aborted = false) (well : (move.run e).1 = .ok ()) :
    (move.run e).2.world.machine.aborted = false := by
  cases move with
  | advance input => exact World.framed_running (·.applyInput input) e.world well
  | token text =>
    have well : (e.advanceToken text).1 = .ok () := well
    show (e.advanceToken text).2.world.machine.aborted = false
    unfold advanceToken at well ⊢
    cases read : PlayerInput.ofToken text with
    | error fault => exact running
    | ok input =>
      rw [read] at well
      exact World.framed_running (·.applyInput input) e.world well
  | frame => exact World.framed_running id e.world well
  | requestPart part => exact running

theorem Reached.serves (reached : Reached program options e) :
    Serves program options e.world ∧ e.world.machine.aborted = false := by
  induction reached with
  | start hostState serves started =>
    have begun := start_serves serves started
    exact begun
  | move move _ well ih =>
    obtain ⟨serves, running⟩ := ih
    have served := move_serves serves move
    have stillRunning := move_running move running (by rw [well])
    rw [well] at served stillRunning
    exact ⟨served, stillRunning⟩

/-- A switch to another part shows in the next frame: it takes place, or there is no such part. -/
theorem advance_ne_of_switch {e e' : Engine Headless} (running : e.world.machine.aborted = false)
    (running' : e'.world.machine.aborted = false)
    (sameCurrent : e'.world.machine.currentPart = e.world.machine.currentPart)
    {part : UInt16} (requested : e.world.machine.requestedPart = some part)
    (noSwitch : e'.world.machine.requestedPart = none) (different : e.world.machine.currentPart ≠ some part)
    (input : PlayerInput) : follow [.advance input] e' ≠ follow [.advance input] e := by
  intro same
  have heads := List.head_eq_of_cons_eq same
  have results : (e'.world.advance input).1 = (e.world.advance input).1 := congrArg (·.1) heads
  have parts : (e'.world.advance input).2.machine.currentPart = (e.world.advance input).2.machine.currentPart :=
    congrArg (·.2.2) heads
  obtain ⟨stayed, known⟩ := World.advance_stays running' noSwitch input
  cases served : e.world.host.program.code? part with
  | none =>
    rw [World.advance_of_unknown running requested served] at results
    exact known part results
  | some code =>
    rw [World.advance_switches running requested served, stayed, sameCurrent] at parts
    exact different parts

/-- A state file that an engine writes can be loaded by every engine on the same program with the same settings,
    which then goes on as the first one would if no switch were requested and no key waiting. So it goes on like
    the first one if neither is the case. But a switch to another part that was requested when the file was
    written gets lost, which the next frame shows. -/
theorem saveFile_loadFile_follow {e' : Engine Headless} (reached : Reached program options e)
    (built : Built program options e') :
    ∃ file saved loaded, e.saveFile = (.ok file, saved) ∧ e'.loadFile file = (.ok (), loaded) ∧
      (∀ moves, follow moves loaded = follow moves e.settled) ∧
      (e.world.machine.requestedPart = none → e.world.machine.keys.code = false →
        ∀ moves, follow moves loaded = follow moves e) ∧
      ∀ part, e.world.machine.requestedPart = some part → e.world.machine.currentPart ≠ some part →
        ∀ input, follow [.advance input] loaded ≠ follow [.advance input] e := by
  obtain ⟨serves, running⟩ := reached.serves
  obtain ⟨part, current, served⟩ := serves.loaded
  obtain ⟨saved, save⟩ := e.saveFile_image
  obtain ⟨loaded, base, load, machine, sameProgram, code, basePart, settings⟩ :=
    loadFile_image built.serves e.world.machine served
  have settledServes : Serves program options e.settled.world := ⟨serves.settings, serves.loaded, serves.program⟩
  have loadedServes : Serves program options loaded.world := by
    refine ⟨?_, ?_, sameProgram⟩
    · rw [machine]
      exact settings
    · rw [machine]
      exact ⟨part, basePart, served.trans (congrArg some code.symm)⟩
  have follows (moves : List Move) : follow moves loaded = follow moves e.settled := by
    refine follow_eq_of_alike moves settledServes loadedServes ?_
    rw [machine]
    exact Machine.withSaved_alike e.world.machine code (basePart.trans current.symm)
      (congrArg Options.instructionLimit (settings.trans serves.settings.symm))
  rw [current, Option.getD_some] at save
  refine ⟨_, saved, loaded, save, load, follows, fun noSwitch noKey moves => ?_,
    fun other requested different input => ?_⟩
  · rw [follows]
    exact follow_eq_of_alike moves serves settledServes (settle_alike noSwitch noKey running)
  · refine advance_ne_of_switch running ?_ ?_ requested ?_ different input
    · rw [machine]
      rfl
    · rw [machine, current]
      exact basePart
    · rw [machine]
      rfl

/-- A program whose first part asks for the last one in its first frame. -/
def switching : Program :=
  { parts := [⟨Part.first, #[0x19, 0x3E, 0x89, 0x06, 0x07, 0, 3]⟩, ⟨Part.last, #[0x03, 1, 0, 1, 0x06, 0x07, 0, 0]⟩] }

private theorem eq_ok_of_isOk {result : Except Fault Unit} (well : result.isOk = true) : result = .ok () := by
  cases result with
  | error fault => cases well
  | ok _ => rfl

theorem saveFile_loadFile_follow_switching :
    let begun := (Engine.start ({ program := switching } : Headless) .headless Part.first).2
    let e := (begun.advance {}).2
    Reached switching .headless e ∧ Built switching .headless begun ∧
      e.world.machine.requestedPart = some Part.last ∧ e.world.machine.currentPart ≠ some Part.last ∧
      ∃ file saved loaded, e.saveFile = (.ok file, saved) ∧ begun.loadFile file = (.ok (), loaded) ∧
        follow [.advance {}] loaded ≠ follow [.advance {}] e := by
  intro begun e
  have startedWell : (Engine.start ({ program := switching } : Headless) .headless Part.first).1 = .ok () :=
    eq_ok_of_isOk (by decide +kernel)
  have advancedWell : (begun.advance {}).1 = .ok () := eq_ok_of_isOk (by decide +kernel)
  have started : Engine.start ({ program := switching } : Headless) .headless Part.first = (.ok (), begun) := by
    rw [← startedWell]
  have advanced : (Move.advance {}).run begun = (.ok (), e) := by
    show begun.advance {} = _
    rw [← advancedWell]
  have reached : Reached switching .headless e := .move (.advance {}) (.start false rfl started) advanced
  have built : Built switching .headless begun := .start false rfl started
  have requested : e.world.machine.requestedPart = some Part.last := by decide +kernel
  have different : e.world.machine.currentPart ≠ some Part.last := by decide +kernel
  obtain ⟨file, saved, loaded, save, load, _, _, lost⟩ := saveFile_loadFile_follow reached built
  exact ⟨reached, built, requested, different, file, saved, loaded, save, load, lost _ requested different {}⟩

end Engine

end Framescript
