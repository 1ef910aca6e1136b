import Framescript.Engine
import Framescript.Host.Headless
import Framescript.Proofs.Answers
import Framescript.Proofs.ScriptFaults

/-!
A machine that has stopped. Whatever goes wrong in a phase of a frame is fatal, as long as the host does not blame the
player for a part that it cannot open, so a frame stops the machine if and only if it fails (`FrameCall.stops_iff`). From
then on every frame is refused and changes nothing, and whatever else is done leaves the machine stopped, until it is
reset or a state is loaded into it (`stopped_until_cleared`).
-/
namespace Framescript

/-- A host that never answers the opening of a part with a fault of the player's input. -/
def Host.NeverBlamesInput (H : Type) [Host H] : Prop :=
  ∀ (part : UInt16) (host : H) (token : List Char), (Host.openPart part host).1 ≠ .error (.invalidInput token)

/-- All that can be done to a machine with its host. -/
inductive Act where
  | operation (op : Operation)
  | setVariable (index : UInt8) (value : Int16)
  | setOptions (options : Options)
  | startPart (part : UInt16)
  | save (buffer : Option Bytes)
  /-- Saves, loads or counts the state as a block among others. -/
  | walk (walker : Walker)
  | load (bytes : Bytes) (version : UInt16)
  | reset

section acts

variable {H : Type} [Host H]

namespace Act

/-- What an act comes to. -/
def run : Act → World H → Except Fault Unit × World H
  | operation op, w => op.run w
  | setVariable index value, w => (.ok (), w.setVariable index value)
  | setOptions options, w => (.ok (), w.mapMachine fun m => { m with options })
  | startPart part, w => w.startPart part
  | save buffer, w =>
    let saved := w.machine.save buffer
    (saved.result.mapError .state |>.map fun _ => (), { w with log := w.log ++ saved.log })
  | walk walker, w =>
    let walked := w.machine.walk walker
    (walked.result.mapError .state, { w with machine := walked.machine, log := w.log ++ walked.log })
  | load bytes version, w =>
    let loaded := w.machine.load bytes version
    (loaded.1.mapError .state |>.map fun _ => (), { w with machine := loaded.2.1, log := w.log ++ loaded.2.2 })
  | reset, w => (.ok (), w.mapMachine (·.reset))

/-- The world after acts that are done one after the other, whatever comes of them. -/
def after : List Act → World H → World H
  | [], w => w
  | act :: acts, w => after acts (act.run w).2

/-- Whether an act starts a stopped machine again: a reset, or a load that goes well. -/
def clears : Act → World H → Bool
  | load bytes version, w => (w.machine.load bytes version).1.isOk
  | reset, _ => true
  | _, _ => false

/-- Acts of which none starts the machine again when its turn comes. -/
def NoneClears : List Act → World H → Prop
  | [], _ => True
  | act :: acts, w => act.clears w = false ∧ NoneClears acts (act.run w).2

end Act

end acts

/-! ### Frames -/

theorem Fault.isFatal_of_ofScript {fault : Fault} (ofScript : fault.ofScript = true) : fault.isFatal = true := by
  cases fault with
  | invalidInput token => cases ofScript
  | _ => rfl

theorem Machine.commitWith_aborted (m : Machine) (answers : Option (Except Fault Code) × Option Int16) :
    (m.commitWith answers).2.aborted = m.aborted := by
  rcases answers with ⟨_ | _ | code, _ | mark⟩ <;> rfl

theorem Machine.commitWith_fault {m : Machine} {answers : Option (Except Fault Code) × Option Int16} {fault : Fault}
    (failed : (m.commitWith answers).1 = .error fault) : answers.1 = some (.error fault) := by
  rcases answers with ⟨_ | first | code, mark⟩
  · cases failed
  · cases failed
    rfl
  · cases failed

variable {H : Type} [Host H]

theorem Host.openPart_of_answers {host : H} {request : Option UInt16} {fault : Fault}
    (answered : (Host.answers host request).1 = some (.error fault)) :
    ∃ part before, (Host.openPart part (before : H)).1 = .error fault := by
  cases request with
  | none => cases answered
  | some part =>
    refine ⟨part, Host.perform .stopAll host, ?_⟩
    simp only [answers] at answered
    rcases opened : Host.openPart part (Host.perform .stopAll host) with ⟨first | code, later⟩
    · simp only [opened] at answered
      cases answered
      rfl
    · simp only [opened] at answered
      cases answered

namespace World

omit [Host H] in
/-- A phase of which every fault is fatal, and which does not stop the machine by itself, stops it by failing. -/
theorem guarded_stops_iff {phase : World H → Except Fault Unit × World H} {w : World H}
    (running : w.machine.aborted = false) (kept : (phase w).2.machine.aborted = w.machine.aborted)
    (fatal : ∀ fault, (phase w).1 = .error fault → fault.isFatal = true) :
    (guarded phase w).2.machine.aborted = true ↔ ∃ fault, (guarded phase w).1 = .error fault := by
  obtain ⟨result, _, machine⟩ := guarded_of_running phase running
  rw [result, machine, kept, running, Bool.false_or]
  rcases outcome : (phase w).1 with fault | _
  · simp [stops, fatal fault outcome]
  · simp [stops]

theorem commit_stops_iff (fair : Host.NeverBlamesInput H) {w : World H} (running : w.machine.aborted = false) :
    w.commit.2.machine.aborted = true ↔ ∃ fault, w.commit.1 = .error fault := by
  have committed := commitRequests_eq w
  refine guarded_stops_iff running ?_ ?_
  · exact (congrArg (·.2.aborted) committed).trans (Machine.commitWith_aborted _ _)
  · intro fault failed
    have answered := Machine.commitWith_fault ((congrArg Prod.fst committed).symm.trans failed)
    obtain ⟨part, host, opened⟩ := Host.openPart_of_answers answered
    cases fault with
    | invalidInput token => exact absurd opened (fair part host token)
    | _ => rfl

theorem runPhase_stops_iff {w : World H} (running : w.machine.aborted = false) :
    w.runPhase.2.machine.aborted = true ↔ ∃ fault, w.runPhase.1 = .error fault :=
  guarded_stops_iff running w.runAll_stays.aborted fun _ failed => Fault.isFatal_of_ofScript (runAll_fault failed)

/-- A frame stops a machine that runs in the phase that fails. -/
theorem framed_stops_iff (fair : Host.NeverBlamesInput H) (between : Machine → Machine)
    (kept : ∀ m : Machine, (between m).aborted = m.aborted) {w : World H} (running : w.machine.aborted = false) :
    (w.framed between).2.machine.aborted = true ↔ ∃ fault, (w.framed between).1 = .error fault := by
  have committed := commit_stops_iff fair running
  unfold framed
  rcases ran : w.commit with ⟨fault | _, next⟩
  · rw [ran] at committed
    exact committed
  · rw [ran] at committed
    have goesOn : (next.mapMachine between).machine.aborted = false := by
      refine (kept next.machine).trans (Bool.eq_false_iff.mpr fun stopped => ?_)
      obtain ⟨fault, failed⟩ := committed.mp stopped
      cases failed
    exact runPhase_stops_iff goesOn

theorem framed_of_aborted (between : Machine → Machine) {w : World H} (stopped : w.machine.aborted = true) :
    w.framed between = (.error .aborted, w) := by
  have refused : w.commit = (.error .aborted, w) := guarded_of_aborted commitRequests stopped
  simp only [framed, refused]

end World

namespace FrameCall

/-- A machine that runs is stopped by a call if and only if the call fails. -/
theorem stops_iff (fair : Host.NeverBlamesInput H) (call : FrameCall) {w : World H}
    (running : w.machine.aborted = false) :
    (call.run w).2.machine.aborted = true ↔ ∃ fault, (call.run w).1 = .error fault := by
  cases call with
  | commit => exact World.commit_stops_iff fair running
  | runPhase => exact World.runPhase_stops_iff running
  | runFrame => exact World.framed_stops_iff fair id (fun _ => rfl) running
  | advance input => exact World.framed_stops_iff fair (·.applyInput input) (fun _ => rfl) running

/-- A machine that has stopped refuses every call, and nothing changes. -/
theorem run_of_aborted (call : FrameCall) {w : World H} (stopped : w.machine.aborted = true) :
    call.run w = (.error .aborted, w) := by
  cases call with
  | commit => exact World.guarded_of_aborted World.commitRequests stopped
  | runPhase => exact World.guarded_of_aborted World.runAll stopped
  | runFrame => exact World.framed_of_aborted id stopped
  | advance input => exact World.framed_of_aborted (·.applyInput input) stopped

end FrameCall

/-! ### Other acts -/

namespace Machine

/-- A walk changes nothing but what is saved. -/
theorem walk_changes (m : Machine) (walker : Walker) :
    ∃ vars threads callStack, (m.walk walker).machine = { m with vars, threads, callStack } := by
  have restored (entries : List Entry) :
      ∃ vars threads callStack, m.restore entries = { m with vars, threads, callStack } := by
    unfold restore
    split
    · exact ⟨_, _, _, rfl⟩
    · exact ⟨m.vars, m.threads, m.callStack, rfl⟩
  simp only [walk]
  split
  · exact restored _
  · exact ⟨m.vars, m.threads, m.callStack, rfl⟩

theorem walk_aborted (m : Machine) (walker : Walker) : (m.walk walker).machine.aborted = m.aborted := by
  obtain ⟨vars, threads, callStack, machine⟩ := m.walk_changes walker
  exact (congrArg aborted machine :)

/-- A load starts the machine again if it goes well, and otherwise leaves it stopped or running as it was. -/
theorem load_aborted (m : Machine) (bytes : Bytes) (version : UInt16) :
    (m.load bytes version).2.1.aborted = (m.aborted && !(m.load bytes version).1.isOk) := by
  have walked := m.walk_aborted { buffer := .load bytes, version }
  unfold load
  rcases m.checkState bytes version with e | _
  · exact (Bool.and_true _).symm
  · rcases result : (m.walk { buffer := .load bytes, version }).result with e | _
    · simp only [result, walked]
      exact (Bool.and_true _).symm
    · simp only [result]
      exact (Bool.and_false _).symm

end Machine

theorem World.startPart_aborted (w : World H) (part : UInt16) :
    (w.startPart part).2.machine.aborted = w.machine.aborted := by
  obtain ⟨fault, host, _, started⟩ | ⟨code, host, log, _, started⟩ := w.startPart_cases part
  · rw [started]
    rfl
  · rw [started]
    rfl

namespace Act

/-- What is neither a frame nor starts a machine again leaves it stopped or running as it was. -/
theorem run_aborted {act : Act} {w : World H} (noFrame : ∀ call, act ≠ .operation (.frame call))
    (keeps : act.clears w = false) : (act.run w).2.machine.aborted = w.machine.aborted := by
  cases act with
  | operation op =>
    cases op with
    | frame call => exact absurd rfl (noFrame call)
    | applyInput | requestPart => rfl
  | startPart part => exact w.startPart_aborted part
  | walk walker => exact w.machine.walk_aborted walker
  | load bytes version =>
    have failed : (w.machine.load bytes version).1.isOk = false := keeps
    refine (w.machine.load_aborted bytes version).trans ?_
    rw [failed, Bool.not_false, Bool.and_true]
  | reset => cases keeps
  | setVariable | setOptions | save => rfl

theorem run_of_clears {act : Act} {w : World H} (clears : act.clears w = true) :
    (act.run w).2.machine.aborted = false := by
  cases act with
  | load bytes version =>
    have well : (w.machine.load bytes version).1.isOk = true := clears
    refine (w.machine.load_aborted bytes version).trans ?_
    rw [well, Bool.not_true, Bool.and_false]
  | reset => rfl
  | _ => cases clears

/-- An act that does not start a stopped machine again leaves it stopped. -/
theorem run_stopped {act : Act} {w : World H} (stopped : w.machine.aborted = true) (keeps : act.clears w = false) :
    (act.run w).2.machine.aborted = true := by
  by_cases isFrame : ∃ call, act = .operation (.frame call)
  · obtain ⟨call, rfl⟩ := isFrame
    show (call.run w).2.machine.aborted = true
    rw [call.run_of_aborted stopped]
    exact stopped
  · exact (run_aborted (not_exists.mp isFrame) keeps).trans stopped

/-- Neither do any number of them. -/
theorem after_stopped {acts : List Act} {w : World H} (stopped : w.machine.aborted = true)
    (noneClears : NoneClears acts w) : (after acts w).machine.aborted = true := by
  induction acts generalizing w with
  | nil => exact stopped
  | cons act acts ih =>
    obtain ⟨keeps, later⟩ := noneClears
    exact ih (run_stopped stopped keeps) later

end Act

/-- How a machine stops, and for how long. -/
structure StoppedUntilCleared (H : Type) [Host H] : Prop where
  /-- A frame or a phase of one stops a machine that runs if and only if it fails. -/
  stops : ∀ (call : FrameCall) (w : World H), w.machine.aborted = false →
    ((call.run w).2.machine.aborted = true ↔ ∃ fault, (call.run w).1 = .error fault)
  /-- A machine that has stopped refuses it, and neither the machine nor the host nor the log changes. -/
  refuses : ∀ (call : FrameCall) (w : World H), w.machine.aborted = true → call.run w = (.error .aborted, w)
  /-- Nothing else stops a machine or starts it again. -/
  leaves : ∀ (act : Act) (w : World H), (∀ call, act ≠ .operation (.frame call)) → act.clears w = false →
    (act.run w).2.machine.aborted = w.machine.aborted
  /-- A machine that has stopped stays so, whatever is done, until one act starts it again. -/
  stays : ∀ (acts : List Act) (w : World H), w.machine.aborted = true → Act.NoneClears acts w →
    (Act.after acts w).machine.aborted = true
  /-- A reset starts it again, and so does a load that goes well. -/
  clears : ∀ (act : Act) (w : World H), act.clears w = true → (act.run w).2.machine.aborted = false
  /-- An engine that starts over is not stopped, even if its part cannot be opened. -/
  anew : ∀ (e : Engine H) (part : UInt16), (e.reset part).2.world.machine.aborted = false

/-- With a host that never blames the player's input for a part, a machine stops exactly when a frame fails, and then it
    refuses all frames until it is reset or a state is loaded. -/
theorem stopped_until_cleared (fair : Host.NeverBlamesInput H) : StoppedUntilCleared H where
  stops call _ running := call.stops_iff fair running
  refuses call _ stopped := call.run_of_aborted stopped
  leaves _ _ noFrame keeps := Act.run_aborted noFrame keeps
  stays _ _ stopped noneClears := Act.after_stopped stopped noneClears
  clears _ _ clears := Act.run_of_clears clears
  anew e part := (e.world.mapMachine (·.reset)).startPart_aborted part

theorem stopped_until_cleared_unknownOpcode :
    let w : World Headless := { machine := { script := { code := #[0x1B] }, threads := .started }, host := {} }
    let stopped : World Headless := (FrameCall.run (.advance {}) w).2
    let acts : List Act :=
      [.setVariable 3 7, .operation (.requestPart Part.last), .startPart Part.last, .load [] currentVersion,
        .operation (.frame (.advance {}))]
    Host.NeverBlamesInput Headless ∧ w.machine.aborted = false ∧
      (∃ fault, (FrameCall.run (.advance {}) w).1 = .error fault) ∧ stopped.machine.aborted = true ∧
      FrameCall.run .runFrame stopped = (.error .aborted, stopped) ∧
      Act.NoneClears acts stopped ∧ (Act.after acts stopped).machine.aborted = true ∧
      (Act.run .reset (Act.after acts stopped)).2.machine.aborted = false := by
  intro w stopped acts
  have fair : Host.NeverBlamesInput Headless := by
    intro part host token
    show (Headless.openPart part host).1 ≠ _
    unfold Headless.openPart
    split <;> nofun
  have law := stopped_until_cleared fair
  have bad : (FrameCall.run (.advance {}) w).1.isOk = false := by decide +kernel
  have failed : ∃ fault, (FrameCall.run (.advance {}) w).1 = .error fault := by
    rcases outcome : (FrameCall.run (.advance {}) w).1 with fault | _
    · exact ⟨fault, rfl⟩
    · rw [outcome] at bad
      cases bad
  have halted : stopped.machine.aborted = true := (law.stops (.advance {}) w rfl).mpr failed
  have noneClears : Act.NoneClears acts stopped := ⟨rfl, rfl, rfl, by decide +kernel, rfl, trivial⟩
  exact ⟨fair, rfl, failed, halted, law.refuses .runFrame stopped halted, noneClears,
    law.stays acts stopped halted noneClears, law.clears .reset _ rfl⟩

end Framescript
