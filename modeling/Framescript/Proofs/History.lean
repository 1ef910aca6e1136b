import Framescript.Host.Headless
import Framescript.Proofs.Residue
import Framescript.Proofs.SavedState

/-!
A load erases history. Machines that are alike stay alike under everything that is done to them, as long as their
hosts answer alike (`trace_eq_of_alike`). Machines with the same code are alike once the same bytes are loaded into
them, whatever they did before (`load_erases_history`).
-/
namespace Framescript

namespace Operation

open Machine (Alike)

variable {H K : Type} [Host H] [Host K]

/-- The results of operations that are done one after the other, whatever comes of them, and what is seen of the
    machine after each. -/
def trace : List Operation → World H → List (Except Fault Unit × Visible)
  | [], _ => []
  | op :: ops, w => ((op.run w).1, (op.run w).2.machine.visible) :: trace ops (op.run w).2

/-- Whenever operations that are done in two worlds make requests take effect, the two hosts answer alike. -/
def AnsweredAlike : List Operation → World H → World K → Prop
  | [], _, _ => True
  | op :: ops, w, v =>
    (op.commits = true → ∀ request, Host.answers v.host request = Host.answers w.host request) ∧
      AnsweredAlike ops (op.run w).2 (op.run v).2

/-- Machines that are alike cannot be told apart by what is done to them. -/
theorem trace_eq_of_alike (ops : List Operation) {w : World H} {v : World K} (alike : Alike w.machine v.machine)
    (answered : AnsweredAlike ops w v) : trace ops v = trace ops w := by
  induction ops generalizing w v with
  | nil => rfl
  | cons op ops ih =>
    obtain ⟨answers, later⟩ := answered
    obtain ⟨result, machine⟩ :=
      Machine.twin_alike_indifferent.run op alike fun commits _ => answers commits w.machine.requestedPart
    rw [trace, trace, result, machine.visible, ih machine later]

end Operation

/-- With the saved fields of the same machine, machines with the same code on the same part are alike. -/
theorem Machine.withSaved_alike {a b : Machine} (source : Machine) (sameCode : b.script.code = a.script.code)
    (samePart : b.currentPart = a.currentPart) (sameLimit : b.options.instructionLimit = a.options.instructionLimit) :
    Alike (a.withSaved source) (b.withSaved source) := by
  refine ⟨(b.withSaved source).residue, ?_⟩
  simp only [rested, withSaved, withResidue, residue, ← sameCode, ← samePart, ← sameLimit]

/-- A load erases history: whatever happened to two machines with the same code on the same part and to their
    hosts, once the same bytes are loaded into both, all that is done to them comes to the same on both, as long
    as the hosts answer alike. -/
theorem World.load_erases_history {H K : Type} [Host H] [Host K] (w : World H) (v : World K) (bytes : Bytes)
    (sameCode : v.machine.script.code = w.machine.script.code)
    (samePart : v.machine.currentPart = w.machine.currentPart)
    (sameOptions : v.machine.options = w.machine.options) (full : bytes.length = w.machine.stateSize currentVersion) :
    ∃ m n log log',
      w.machine.load bytes currentVersion = (.ok bytes.length, m, log) ∧
      v.machine.load bytes currentVersion = (.ok bytes.length, n, log') ∧ n.visible = m.visible ∧
      ∀ ops, Operation.AnsweredAlike ops { w with machine := m } { v with machine := n } →
        Operation.trace ops { v with machine := n } = Operation.trace ops { w with machine := m } := by
  obtain ⟨source, rfl⟩ := Machine.exists_image (full.trans w.machine.stateSize_eq)
  obtain ⟨log, load⟩ := source.load_image w.machine
  obtain ⟨log', load'⟩ := source.load_image v.machine
  have alike := Machine.withSaved_alike source sameCode samePart (congrArg Options.instructionLimit sameOptions)
  rw [Machine.stateSize_eq, ← source.length_image] at load load'
  exact ⟨_, _, log, log', load, load', alike.visible, fun ops => Operation.trace_eq_of_alike ops alike⟩

theorem Headless.answers_some (host : Headless) (part : UInt16) : Host.answers host (some part) =
    match host.program.code? part with
    | none => (some (.error (.unknownPart part)), none)
    | some code => (some (.ok code), none) := by
  have served : Host.openPart part (Host.perform .stopAll host) = Headless.openPart part host := rfl
  rw [Host.answers, served, Headless.openPart]
  cases host.program.code? part <;> rfl

/-- Hosts without screen and sound answer alike if they serve the same program. -/
theorem Headless.answers_congr {h k : Headless} (sameProgram : k.program = h.program) (request : Option UInt16) :
    Host.answers k request = Host.answers h request := by
  cases request with
  | none => rfl
  | some part => rw [answers_some, answers_some, sameProgram]

/-- A machine that has stopped in the middle of a call, with keys waiting and a switch to another part requested,
    and one that has just started, each with a host that serves the same part. Bytes that are all zero start all
    threads. -/
theorem World.load_erases_history_stopped :
    let program : Program := { parts := [⟨Part.first, #[0x03, 1, 0, 1, 0x06]⟩] }
    let code : Code := #[0x03, 1, 0, 1, 0x06]
    let w : World Headless :=
      { machine := { script := { code }, threads := .started, currentPart := some Part.first }, host := { program } }
    let v : World Headless :=
      { machine :=
          { script := { code, pc := 3 }, callStack := { depth := 7 }, currentPart := some Part.first
            requestedPart := some Part.last, keys := ⟨true, true⟩, profile := { slices := 9 }, aborted := true }
        host := { program, now := 5, lastPage := some 1 } }
    let bytes : Bytes := List.replicate 1408 0
    let input : PlayerInput := { up := true, keys := ⟨true, false⟩ }
    v.machine.script.code = w.machine.script.code ∧ v.machine.currentPart = w.machine.currentPart ∧
    v.machine.options = w.machine.options ∧ bytes.length = w.machine.stateSize currentVersion ∧
    ∃ m n log log',
      w.machine.load bytes currentVersion = (.ok bytes.length, m, log) ∧
      v.machine.load bytes currentVersion = (.ok bytes.length, n, log') ∧ n.visible = m.visible ∧
      Operation.AnsweredAlike [.frame (.advance input)] { w with machine := m } { v with machine := n } ∧
        Operation.trace [.frame (.advance input)] { v with machine := n } =
          Operation.trace [.frame (.advance input)] { w with machine := m } := by
  intro program code w v bytes input
  have full : bytes.length = w.machine.stateSize currentVersion := by
    rw [Machine.stateSize_eq]
    exact List.length_replicate
  obtain ⟨m, n, log, log', load, load', same, follow⟩ := load_erases_history w v bytes rfl rfl rfl full
  have answered : Operation.AnsweredAlike [.frame (.advance input)] { w with machine := m } { v with machine := n } := by
    exact ⟨fun _ => Headless.answers_congr rfl, trivial⟩
  exact ⟨rfl, rfl, rfl, full, m, n, log, log', load, load', same, answered, follow _ answered⟩

end Framescript
