import Framescript.Proofs.Indifference

/-!
What scripts cannot find out. The measurements, the time when the last page was shown, the offset of the instruction
that was begun last, the pause key, and whether pages are shown and paced are a residue: no instruction lets them reach
anything else, and neither does the host, which is only told things (`step_twin`). Where the last slice ended, whether it
yielded and how deep its calls were is forgotten when the next one begins, so between two slices it is residue too
(`beginSlice_twin`).
-/
namespace Framescript

/-- What of a machine no script can find out. -/
structure Residue where
  lastShown : UInt32
  instrOffset : Nat
  profile : Profile
  pauseKey : Bool
  render : Bool
  pacing : Bool

/-- What is seen of a machine between two frames. -/
structure Visible where
  vars : Variables
  threads : ThreadTable
  slots : Vector UInt16 callStackSize
  currentPart : Option UInt16
  requestedPart : Option UInt16
  aborted : Bool

namespace Machine

/-- What is seen of a machine. -/
def visible (m : Machine) : Visible where
  vars := m.vars
  threads := m.threads
  slots := m.callStack.slots
  currentPart := m.currentPart
  requestedPart := m.requestedPart
  aborted := m.aborted

/-- The residue of a machine. -/
def residue (m : Machine) : Residue where
  lastShown := m.lastShown
  instrOffset := m.instrOffset
  profile := m.profile
  pauseKey := m.keys.pause
  render := m.options.render
  pacing := m.options.pacing

/-- The machine with another residue. -/
def withResidue (m : Machine) (r : Residue) : Machine :=
  { m with
    lastShown := r.lastShown, instrOffset := r.instrOffset, profile := r.profile, keys.pause := r.pauseKey
    options.render := r.render, options.pacing := r.pacing }

section withResidue

variable (m : Machine) (r : Residue)

@[simp] theorem withResidue_script : (m.withResidue r).script = m.script := rfl
@[simp] theorem withResidue_threads : (m.withResidue r).threads = m.threads := rfl
@[simp] theorem withResidue_callStack : (m.withResidue r).callStack = m.callStack := rfl

end withResidue

/-- The machine with the script at its beginning, no call open and no slice ended. -/
def rested (m : Machine) : Machine :=
  { m with script.pc := 0, callStack := m.callStack.rewind, yielded := false }

/-- In the course of a slice, machines are twins if they differ in their residue only. -/
def Twin (m n : Machine) : Prop :=
  ∃ r, n = m.withResidue r

/-- Between two slices, machines are alike if they differ only in their residue and in where the last slice ended. -/
def Alike (m n : Machine) : Prop :=
  Twin m.rested n.rested

theorem Twin.alike {m n : Machine} (twin : Twin m n) : Alike m n := by
  obtain ⟨r, rfl⟩ := twin
  exact ⟨r, rfl⟩

/-- Machines that are alike look the same. -/
theorem Alike.visible {m n : Machine} (alike : Alike m n) : n.visible = m.visible := by
  obtain ⟨r, same⟩ := alike
  have seen : n.rested.visible = (m.rested.withResidue r).visible := congrArg Machine.visible same
  exact seen

/-- Machines stay alike under a change that neither depends on the residue nor on where the last slice ended. -/
theorem Alike.map {m n : Machine} (alike : Alike m n) (change : Machine → Machine)
    (restedFirst : ∀ m : Machine, (change m).rested = (change m.rested).rested)
    (residueKept : ∀ (m : Machine) (r : Residue), ∃ r', change (m.withResidue r) = (change m).withResidue r') :
    Alike (change m) (change n) := by
  obtain ⟨r, same⟩ := alike
  obtain ⟨r', changed⟩ := residueKept m.rested r
  refine ⟨r', ?_⟩
  rw [restedFirst n, restedFirst m, same, changed]
  rfl

end Machine

namespace World

open Machine (Twin Alike)

variable {H K : Type} {w : World H} {v : World K}

/-! ### Instructions -/

/-- Seen from a machine, a twin world is one with another residue, another host and another log. -/
theorem exists_residue (twin : Twin w.machine v.machine) :
    ∃ r host log, v = { machine := w.machine.withResidue r, host, log } := by
  obtain ⟨r, same⟩ := twin
  exact ⟨r, v.host, v.log, by rw [← same]⟩

theorem jumpIf_twin (twin : Twin w.machine v.machine) (origin : Nat) (c : Condition) :
    Twin (w.jumpIf origin c).machine (v.jumpIf origin c).machine := by
  obtain ⟨r, host, log, rfl⟩ := exists_residue twin
  rw [jumpIf_machine, jumpIf_machine]
  show Twin _ (if c.comparison.holds (w.read c.var) (w.comparand c.comparand) then _ else _)
  split <;> exact ⟨r, rfl⟩

theorem resetThreads_twin (twin : Twin w.machine v.machine) (origin : Nat) (range : ThreadRange) :
    Twin (w.resetThreads origin range).machine (v.resetThreads origin range).machine := by
  obtain ⟨r, host, log, rfl⟩ := exists_residue twin
  unfold resetThreads resetRange
  simp only
  split
  · exact ⟨r, rfl⟩
  · split
    · exact ⟨r, rfl⟩
    · split <;> exact ⟨r, rfl⟩

theorem enter_twin (twin : Twin w.machine v.machine) (origin : Nat) (target : UInt16) :
    SameOutcome Twin (w.enter origin target) (v.enter origin target) := by
  obtain ⟨r, host, log, rfl⟩ := exists_residue twin
  simp only [enter, Machine.withResidue_script, Machine.withResidue_callStack]
  cases w.machine.script.offset16 with
  | error fault => exact ⟨rfl, r, rfl⟩
  | ok offset =>
    simp only
    cases w.machine.callStack.push offset origin with
    | error fault => exact ⟨rfl, r, rfl⟩
    | ok callStack => exact ⟨rfl, r, rfl⟩

theorem leave_twin (twin : Twin w.machine v.machine) (origin : Nat) :
    SameOutcome Twin (w.leave origin) (v.leave origin) := by
  obtain ⟨r, host, log, rfl⟩ := exists_residue twin
  simp only [leave, Machine.withResidue_callStack]
  cases w.machine.callStack.pop origin with
  | error fault => exact ⟨rfl, r, rfl⟩
  | ok popped => exact ⟨rfl, r, rfl⟩

theorem setVector_twin (twin : Twin w.machine v.machine) (thread : UInt8) (target : UInt16) :
    SameOutcome Twin (w.setVector thread target) (v.setVector thread target) := by
  obtain ⟨r, host, log, rfl⟩ := exists_residue twin
  simp only [setVector, Machine.withResidue_threads]
  cases w.machine.threads.requestPc thread target with
  | error fault => exact ⟨rfl, r, rfl⟩
  | ok threads => exact ⟨rfl, r, rfl⟩

variable [Host H] [Host K]

theorem blit_twin (twin : Twin w.machine v.machine) (page : UInt8) :
    Twin (w.blit page).machine (v.blit page).machine := by
  obtain ⟨r, same⟩ := twin
  obtain ⟨_, machine⟩ := blit_machine w page
  obtain ⟨shown, machine'⟩ := blit_machine v page
  rw [machine, machine', same]
  exact ⟨{ r with lastShown := shown, pauseKey := false }, rfl⟩

theorem loadResource_twin (twin : Twin w.machine v.machine) (resource : UInt16) :
    Twin (w.loadResource resource).machine (v.loadResource resource).machine := by
  obtain ⟨r, host, log, rfl⟩ := exists_residue twin
  unfold loadResource
  split
  · exact ⟨r, rfl⟩
  · split <;> exact ⟨r, rfl⟩

theorem executeTable_twin (twin : Twin w.machine v.machine) (origin : Nat) (op : Opcode)
    (operands : Operands op.operands) :
    SameOutcome Twin (w.executeTable origin op operands) (v.executeTable origin op operands) := by
  cases op with
  | call => exact enter_twin twin origin operands.1
  | ret => exact leave_twin twin origin
  | jmpIf => exact ⟨rfl, jumpIf_twin twin origin operands.1⟩
  | setVec => exact setVector_twin twin operands.1 operands.2.1
  | resetThreads => exact ⟨rfl, resetThreads_twin twin origin operands.1⟩
  | blit => exact ⟨rfl, blit_twin twin operands.1⟩
  | loadResource => exact ⟨rfl, loadResource_twin twin operands.1⟩
  | djnz =>
    obtain ⟨r, host, log, rfl⟩ := exists_residue twin
    obtain ⟨counter, target, _⟩ := operands
    refine ⟨rfl, ?_⟩
    show Twin (w.countDown counter target).machine (World.countDown _ counter target).machine
    unfold countDown
    show Twin (if (w.update counter (· - 1)).read counter = 0 then _ else _ : World H).machine
      (if (w.update counter (· - 1)).read counter = 0 then _ else _ : World K).machine
    split <;> exact ⟨r, rfl⟩
  | _ =>
    obtain ⟨r, host, log, rfl⟩ := exists_residue twin
    exact ⟨rfl, r, rfl⟩

theorem execute_twin (twin : Twin w.machine v.machine) (origin : Nat) (instr : Instr) :
    SameOutcome Twin (w.execute origin instr) (v.execute origin instr) := by
  cases instr with
  | table op operands => exact executeTable_twin twin origin op operands
  | background halved x y =>
    refine ⟨rfl, ?_⟩
    rw [execute, execute, drawBackground_machine, drawBackground_machine]
    exact twin
  | sprite halved x y zoom => exact ⟨rfl, twin⟩

/-- Twins take the same step and stay twins, whatever their hosts. -/
theorem step_twin (twin : Twin w.machine v.machine) : SameOutcome Twin w.step v.step := by
  obtain ⟨r, host, log, rfl⟩ := exists_residue twin
  rw [step_eq, step_eq, Machine.withResidue_script]
  rcases Instr.read .twoBytes w.machine.script with fault | ⟨instr, script⟩
  · refine ⟨rfl, { r with
      instrOffset := w.machine.script.pc
      profile := (Lead.next? w.machine.script).elim r.profile fun lead => r.profile.record lead.category }, rfl⟩
  · exact execute_twin ⟨{ r with
      instrOffset := w.machine.script.pc, profile := r.profile.record instr.lead.category }, rfl⟩ _ _

/-! ### Slices -/

omit [Host H] [Host K] in
/-- A slice forgets where the last one ended. -/
theorem beginSlice_twin (alike : Alike w.machine v.machine) (thread : Fin threadCount) :
    Twin (w.beginSlice thread).machine (v.beginSlice thread).machine := by
  obtain ⟨r, same⟩ := alike
  have rested {I : Type} (u : World I) :
      (u.beginSlice thread).machine = ({ u with machine := u.machine.rested }.beginSlice thread).machine := rfl
  rw [rested w, rested v, same]
  exact ⟨{ r with profile.slices := r.profile.slices + 1 }, rfl⟩

omit [Host H] [Host K] in
theorem endSlice_twin (twin : Twin w.machine v.machine) (thread : Fin threadCount) :
    SameOutcome Twin (w.endSlice thread) (v.endSlice thread) := by
  obtain ⟨r, host, log, rfl⟩ := exists_residue twin
  simp only [endSlice, Machine.withResidue_script]
  cases w.machine.script.offset16 with
  | error fault => exact ⟨rfl, r, rfl⟩
  | ok pc => exact ⟨rfl, r, rfl⟩

end World

/-! ### Between slices -/

namespace Machine

theorem commitThreads_alike {m n : Machine} (alike : Alike m n) (mark : Option Int16) :
    Alike (m.commitThreads mark) (n.commitThreads mark) := by
  refine alike.map (·.commitThreads mark) (fun _ => ?_) fun _ r => ⟨r, ?_⟩
  · cases mark <;> rfl
  · cases mark <;> rfl

theorem commitWith_alike {m n : Machine} (alike : Alike m n) (answers : Option (Except Fault Code) × Option Int16) :
    (n.commitWith answers).1 = (m.commitWith answers).1 ∧ Alike (m.commitWith answers).2 (n.commitWith answers).2 := by
  obtain ⟨opened, mark⟩ := answers
  cases opened with
  | none => exact ⟨rfl, commitThreads_alike alike mark⟩
  | some opened =>
    cases opened with
    | error fault =>
      refine ⟨rfl, ?_⟩
      exact alike.map (fun m => { m with requestedPart := none }.setVariable Variables.partFlag partStarted)
        (fun _ => rfl) fun _ r => ⟨r, rfl⟩
    | ok code =>
      refine ⟨rfl, commitThreads_alike ?_ mark⟩
      exact alike.map (fun m => { m.setVariable Variables.partFlag partStarted with
          script := { code }, threads := .started, currentPart := m.requestedPart, requestedPart := none })
        (fun _ => rfl) fun _ r => ⟨r, rfl⟩

theorem applyInput_alike {m n : Machine} (input : PlayerInput) (alike : Alike m n) :
    Alike (m.applyInput input) (n.applyInput input) :=
  alike.map (·.applyInput input) (fun _ => rfl) fun _ r => ⟨{ r with pauseKey := r.pauseKey || input.keys.pause }, rfl⟩

/-- Nothing that is done to machines lets their residue reach anything else, and a slice forgets where the last one
    ended. -/
theorem twin_alike_indifferent : Indifferent Twin Alike where
  step := World.step_twin
  yielded := by
    rintro m _ ⟨r, rfl⟩
    rfl
  limit := by
    rintro m _ ⟨r, rfl⟩
    rfl
  beginSlice thread alike := World.beginSlice_twin alike thread
  endSlice thread twin := (World.endSlice_twin twin thread).imp Twin.alike
  ended := Twin.alike
  threads alike := congrArg Visible.threads alike.visible
  requestedPart alike := congrArg Visible.requestedPart alike.visible
  aborted alike := congrArg Visible.aborted alike.visible
  unmeasured alike :=
    alike.map (fun m => { m with profile := {} }) (fun _ => rfl) fun _ r => ⟨{ r with profile := {} }, rfl⟩
  stopped stop alike :=
    alike.map (fun m => { m with aborted := m.aborted || stop }) (fun _ => rfl) fun _ r => ⟨r, rfl⟩
  commitWith answers alike := commitWith_alike alike answers
  applyInput := applyInput_alike
  requestPart part alike := alike.map (·.requestPart part) (fun _ => rfl) fun _ r => ⟨r, rfl⟩

end Machine

end Framescript
