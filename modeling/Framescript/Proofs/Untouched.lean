import Framescript.Machine.Frame
import Framescript.Proofs.Executing

/-!
What instructions leave alone. Reading moves only the offset, and executing never touches the code, the
offsets and paused flags of the threads, the current part, the settings, the number of slices and the
abort (`step_keeps`). So any number of instructions leaves them alone too (`afterSteps_keeps`), and of the
offsets of the threads only the end of a slice changes one, that of its own thread (`runThread_keeps`).
-/
namespace Framescript

/-! ### Executing -/

/-- A sum is the exact one, unless it is more than the largest number. -/
theorem Profile.checkedAdd_eq (a b : UInt64) : checkedAdd a b =
    if 0xFFFFFFFFFFFFFFFF < a.toNat + b.toNat then .error .overflow else .ok (a + b) := by
  have wraps : a + b < a ↔ 0xFFFFFFFFFFFFFFFF < a.toNat + b.toNat := by
    have small := a.toNat_lt
    have small' := b.toNat_lt
    rw [UInt64.lt_iff_toNat_lt, UInt64.toNat_add]
    omega
  simp only [checkedAdd, wraps]

/-- One more slice can be counted unless the largest number of them has been. -/
theorem Profile.recordSlice_eq (p : Profile) : p.recordSlice =
    if p.slices = 0xFFFFFFFFFFFFFFFF then .error .overflow else .ok { p with slices := p.slices + 1 } := by
  have full : 0xFFFFFFFFFFFFFFFF < p.slices.toNat + (1 : UInt64).toNat ↔ p.slices = 0xFFFFFFFFFFFFFFFF := by
    have small := p.slices.toNat_lt
    rw [← UInt64.toNat_inj]
    show 18446744073709551615 < p.slices.toNat + 1 ↔ p.slices.toNat = 18446744073709551615
    omega
  simp only [recordSlice, checkedAdd_eq, full]
  split <;> rename_i result <;> split at result <;> simp_all

/-- What a run phase does not change. -/
structure Machine.Stays (m n : Machine) : Prop where
  code : n.script.code = m.script.code
  paused : n.threads.paused = m.threads.paused
  currentPart : n.currentPart = m.currentPart
  options : n.options = m.options
  aborted : n.aborted = m.aborted

/-- What no instruction changes. -/
structure Machine.Keeps (m n : Machine) : Prop extends Stays m n where
  pc : n.threads.pc = m.threads.pc
  slices : n.profile.slices = m.profile.slices

theorem Machine.Stays.refl (m : Machine) : Stays m m :=
  ⟨rfl, rfl, rfl, rfl, rfl⟩

theorem Machine.Stays.trans {a b c : Machine} (first : Stays a b) (second : Stays b c) : Stays a c where
  code := second.code.trans first.code
  paused := second.paused.trans first.paused
  currentPart := second.currentPart.trans first.currentPart
  options := second.options.trans first.options
  aborted := second.aborted.trans first.aborted

theorem Machine.Keeps.refl (m : Machine) : Keeps m m :=
  ⟨Stays.refl m, rfl, rfl⟩

theorem Machine.Keeps.trans {a b c : Machine} (first : Keeps a b) (second : Keeps b c) : Keeps a c :=
  ⟨first.toStays.trans second.toStays, second.pc.trans first.pc, second.slices.trans first.slices⟩

/-- Whether an instruction shows a page. -/
def Instr.showsPage : Instr → Bool
  | .table .blit _ => true
  | _ => false

/-- Whether an instruction ends the slice. -/
def Instr.endsSlice : Instr → Bool
  | .table .pause _ | .table .kill _ => true
  | _ => false

/-- What executing an instruction does to the rest of a machine: the measurements stay, the keys are used up if a page is
    shown, and the slice ends if the instruction says so. -/
structure Machine.Consumes (instr : Instr) (m n : Machine) : Prop where
  instrOffset : n.instrOffset = m.instrOffset
  profile : n.profile = m.profile
  keys : n.keys = if instr.showsPage then {} else m.keys
  yielded : n.yielded = (m.yielded || instr.endsSlice)

/-- An instruction that neither shows a page nor ends the slice consumes nothing. -/
theorem Machine.Consumes.nothing {instr : Instr} {m n : Machine} {script : Script} {vars : Variables}
    {threads : ThreadTable} {callStack : CallStack} {requestedPart : Option UInt16}
    (same : n = { m with script, vars, threads, callStack, requestedPart }) (showsNone : instr.showsPage = false)
    (goesOn : instr.endsSlice = false) : Consumes instr m n := by
  subst same
  refine ⟨rfl, rfl, ?_, ?_⟩
  · rw [showsNone]
    rfl
  · rw [goesOn, Bool.or_false]

namespace World

open Machine (Stays Keeps Consumes)

variable {H : Type}

theorem warned_machine (w : World H) (origin : Nat) (c : Comparison) : (w.warned origin c).machine = w.machine := by
  cases c <;> rfl

theorem jumpIf_machine (w : World H) (origin : Nat) (c : Condition) : (w.jumpIf origin c).machine =
    if c.comparison.holds (w.read c.var) (w.comparand c.comparand) then
      { w.machine with script := w.machine.script.jump c.target }
    else w.machine := by
  simp only [jumpIf]
  split
  · simp only [jump, mapMachine, warned_machine]
  · exact warned_machine w origin c.comparison

theorem jumpIf_keeps (w : World H) (origin : Nat) (c : Condition) : Keeps w.machine (w.jumpIf origin c).machine := by
  rw [jumpIf_machine]
  split <;> exact ⟨⟨rfl, rfl, rfl, rfl, rfl⟩, rfl, rfl⟩

theorem resetThreads_keeps (w : World H) (origin : Nat) (r : ThreadRange) :
    Keeps w.machine (w.resetThreads origin r).machine := by
  unfold resetThreads resetRange
  simp only
  split
  · exact ⟨⟨rfl, rfl, rfl, rfl, rfl⟩, rfl, rfl⟩
  · split
    · exact ⟨⟨rfl, rfl, rfl, rfl, rfl⟩, rfl, rfl⟩
    · split <;> exact ⟨⟨rfl, rfl, rfl, rfl, rfl⟩, rfl, rfl⟩

/-- The part that keys ask for: the password screen, on parts between the first and the last. -/
def keyedPart (m : Machine) : Option UInt16 :=
  if m.keys.code && m.currentPart ≠ some Part.first && m.currentPart ≠ some Part.last then some Part.last
  else m.requestedPart

theorem handleKeys_machine (w : World H) :
    w.handleKeys.machine = { w.machine with keys := {}, requestedPart := keyedPart w.machine } := by
  have noted (u : World H) (level : Level) (text : String) (p : Prop) [Decidable p] :
      (if p then u.say level text else u).machine = u.machine := by
    split <;> rfl
  rw [handleKeys, noted, keyedPart]
  simp only
  generalize acknowledged : (if w.machine.keys.pause = true then w.say .debug "Pause key acknowledged" else w) = u
  rw [← noted w .debug "Pause key acknowledged" (w.machine.keys.pause = true), acknowledged]
  split <;> rfl

theorem enter_keeps (w : World H) (origin : Nat) (target : UInt16) :
    Keeps w.machine (w.enter origin target).2.machine := by
  unfold enter
  split
  · exact Keeps.refl _
  · split
    · exact Keeps.refl _
    · exact ⟨⟨rfl, rfl, rfl, rfl, rfl⟩, rfl, rfl⟩

theorem leave_keeps (w : World H) (origin : Nat) : Keeps w.machine (w.leave origin).2.machine := by
  unfold leave
  split
  · exact Keeps.refl _
  · exact ⟨⟨rfl, rfl, rfl, rfl, rfl⟩, rfl, rfl⟩

theorem setVector_keeps (w : World H) (thread : UInt8) (target : UInt16) :
    Keeps w.machine (w.setVector thread target).2.machine := by
  unfold setVector
  split
  · exact Keeps.refl _
  · rename_i threads requested
    unfold ThreadTable.requestPc at requested
    split at requested
    · cases requested
      exact ⟨⟨rfl, rfl, rfl, rfl, rfl⟩, rfl, rfl⟩
    · cases requested

/-! What the instructions that take several ways may change of a machine. -/

theorem jumpIf_changes (w : World H) (origin : Nat) (c : Condition) :
    ∃ script, (w.jumpIf origin c).machine = { w.machine with script } := by
  rw [jumpIf_machine]
  split
  · exact ⟨_, rfl⟩
  · exact ⟨w.machine.script, rfl⟩

theorem countDown_changes (w : World H) (counter : UInt8) (target : UInt16) :
    ∃ script vars, (w.countDown counter target).machine = { w.machine with script, vars } := by
  unfold countDown
  simp only
  split
  · exact ⟨w.machine.script, (w.update counter (· - 1)).machine.vars, rfl⟩
  · exact ⟨w.machine.script.jump target, (w.update counter (· - 1)).machine.vars, rfl⟩

theorem enter_changes (w : World H) (origin : Nat) (target : UInt16) :
    ∃ script callStack, (w.enter origin target).2.machine = { w.machine with script, callStack } := by
  unfold enter
  split
  · exact ⟨w.machine.script, w.machine.callStack, rfl⟩
  · split
    · exact ⟨w.machine.script, w.machine.callStack, rfl⟩
    · exact ⟨w.machine.script.jump target, _, rfl⟩

theorem leave_changes (w : World H) (origin : Nat) :
    ∃ script callStack, (w.leave origin).2.machine = { w.machine with script, callStack } := by
  unfold leave
  split
  · exact ⟨w.machine.script, w.machine.callStack, rfl⟩
  · exact ⟨w.machine.script.jump _, _, rfl⟩

theorem setVector_changes (w : World H) (thread : UInt8) (target : UInt16) :
    ∃ threads, (w.setVector thread target).2.machine = { w.machine with threads } := by
  unfold setVector
  split
  · exact ⟨w.machine.threads, rfl⟩
  · exact ⟨_, rfl⟩

theorem resetThreads_changes (w : World H) (origin : Nat) (r : ThreadRange) :
    ∃ threads, (w.resetThreads origin r).machine = { w.machine with threads } := by
  unfold resetThreads resetRange
  simp only
  split
  · exact ⟨w.machine.threads, rfl⟩
  · split
    · exact ⟨_, rfl⟩
    · split
      · exact ⟨_, rfl⟩
      · exact ⟨w.machine.threads, rfl⟩

variable [Host H]

theorem pace_machine (w : World H) : w.pace.machine = w.machine := by
  unfold pace
  simp only
  split <;> rfl

theorem blit_machine (w : World H) (page : UInt8) : ∃ shown, (w.blit page).machine =
    { w.machine with
      vars := w.machine.vars.set Variables.blitFlag 0, requestedPart := keyedPart w.machine, keys := {}
      lastShown := shown } := by
  have paced (u : World H) : (if u.machine.options.pacing then u.pace else u).machine = u.machine := by
    split
    · exact pace_machine u
    · rfl
  have displayed (u : World H) :
      (if u.machine.options.render then u.call (.updateDisplay page) else u).machine = u.machine := by
    split <;> rfl
  refine ⟨Host.now (if w.handleKeys.machine.options.pacing then w.handleKeys.pace else w.handleKeys).host, ?_⟩
  rw [blit, displayed, mapMachine, paced, handleKeys_machine]
  rfl

theorem blit_keeps (w : World H) (page : UInt8) : Keeps w.machine (w.blit page).machine := by
  obtain ⟨shown, machine⟩ := blit_machine w page
  rw [machine]
  exact ⟨⟨rfl, rfl, rfl, rfl, rfl⟩, rfl, rfl⟩

theorem loadResource_machine (w : World H) (resource : UInt16) : (w.loadResource resource).machine =
    { w.machine with requestedPart := if Part.isId resource then some resource else w.machine.requestedPart } := by
  unfold loadResource
  split
  · rename_i drops
    subst drops
    rfl
  · split <;> rfl

theorem loadResource_keeps (w : World H) (resource : UInt16) : Keeps w.machine (w.loadResource resource).machine := by
  rw [loadResource_machine]
  exact ⟨⟨rfl, rfl, rfl, rfl, rfl⟩, rfl, rfl⟩

theorem drawBackground_machine (w : World H) (halved : UInt16) (x y : Int16) :
    (w.drawBackground halved x y).machine = w.machine := by
  unfold drawBackground
  simp only
  split <;> rfl

theorem executeTable_keeps (w : World H) (origin : Nat) (op : Opcode) (operands : Operands op.operands) :
    Keeps w.machine (w.executeTable origin op operands).2.machine := by
  cases op with
  | call => exact enter_keeps w origin operands.1
  | ret => exact leave_keeps w origin
  | djnz =>
    show Keeps w.machine (w.countDown operands.1 operands.2.1).machine
    unfold countDown
    simp only
    split <;> exact ⟨⟨rfl, rfl, rfl, rfl, rfl⟩, rfl, rfl⟩
  | jmpIf => exact jumpIf_keeps w origin operands.1
  | setVec => exact setVector_keeps w operands.1 operands.2.1
  | resetThreads => exact resetThreads_keeps w origin operands.1
  | blit => exact blit_keeps w operands.1
  | loadResource => exact loadResource_keeps w operands.1
  | _ => exact ⟨⟨rfl, rfl, rfl, rfl, rfl⟩, rfl, rfl⟩

theorem execute_keeps (w : World H) (origin : Nat) (instr : Instr) :
    Keeps w.machine (w.execute origin instr).2.machine := by
  cases instr with
  | table op operands => exact executeTable_keeps w origin op operands
  | background halved x y => rw [execute, drawBackground_machine]; exact Keeps.refl _
  | sprite halved x y zoom => exact Keeps.refl _

theorem executeTable_consumes (w : World H) (origin : Nat) (op : Opcode) (operands : Operands op.operands) :
    Consumes (.table op operands) w.machine (w.executeTable origin op operands).2.machine := by
  cases op with
  | call =>
    obtain ⟨script, callStack, machine⟩ := enter_changes w origin operands.1
    exact .nothing machine rfl rfl
  | ret =>
    obtain ⟨script, callStack, machine⟩ := leave_changes w origin
    exact .nothing machine rfl rfl
  | jmpIf =>
    obtain ⟨script, machine⟩ := jumpIf_changes w origin operands.1
    exact .nothing machine rfl rfl
  | setVec =>
    obtain ⟨threads, machine⟩ := setVector_changes w operands.1 operands.2.1
    exact .nothing machine rfl rfl
  | resetThreads =>
    obtain ⟨threads, machine⟩ := resetThreads_changes w origin operands.1
    exact .nothing machine rfl rfl
  | djnz =>
    obtain ⟨script, vars, machine⟩ := countDown_changes w operands.1 operands.2.1
    exact .nothing machine rfl rfl
  | loadResource => exact .nothing (loadResource_machine w operands.1) rfl rfl
  | blit =>
    obtain ⟨shown, machine⟩ := blit_machine w operands.1
    refine ⟨(congrArg Machine.instrOffset machine :), (congrArg Machine.profile machine :),
      (congrArg Machine.keys machine :), ?_⟩
    exact (congrArg Machine.yielded machine :).trans (Bool.or_false _).symm
  | pause | kill => exact ⟨rfl, rfl, rfl, (Bool.or_true _).symm⟩
  | _ => exact ⟨rfl, rfl, rfl, (Bool.or_false _).symm⟩

theorem execute_consumes (w : World H) (origin : Nat) (instr : Instr) :
    Consumes instr w.machine (w.execute origin instr).2.machine := by
  cases instr with
  | table op operands => exact executeTable_consumes w origin op operands
  | background halved x y =>
    rw [execute, drawBackground_machine]
    exact ⟨rfl, rfl, rfl, (Bool.or_false _).symm⟩
  | sprite halved x y zoom => exact ⟨rfl, rfl, rfl, (Bool.or_false _).symm⟩

/-- No instruction touches the current side of the threads, whether it succeeds or not. -/
theorem step_keeps (w : World H) : Keeps w.machine w.step.2.machine := by
  rw [step_eq]
  rcases read : Instr.read .twoBytes w.machine.script with fault | ⟨instr, script⟩
  · refine ⟨⟨rfl, rfl, rfl, rfl, rfl⟩, rfl, ?_⟩
    show (Option.elim _ _ _ : Profile).slices = _
    cases Lead.next? w.machine.script <;> rfl
  · refine Keeps.trans ?_ (execute_keeps (w.fetched instr script) _ instr)
    exact ⟨⟨Instr.code_of_read read, rfl, rfl, rfl, rfl⟩, rfl, rfl⟩

/-! ### Slices -/

/-- The world after some instructions, whatever comes of them. -/
def afterSteps : Nat → World H → World H
  | 0, w => w
  | count + 1, w => afterSteps count w.step.2

theorem afterSteps_succ (count : Nat) (w : World H) : afterSteps (count + 1) w = (afterSteps count w).step.2 := by
  induction count generalizing w with
  | zero => rfl
  | succ count ih => exact ih w.step.2

/-- Any number of instructions touches no more than one does. -/
theorem afterSteps_keeps (count : Nat) (w : World H) : Keeps w.machine (afterSteps count w).machine := by
  induction count generalizing w with
  | zero => exact Keeps.refl _
  | succ count ih => exact (step_keeps w).trans (ih w.step.2)

section slices

variable (thread : Fin threadCount) (fuel : Nat) {w : World H}

theorem runSlice_of_yielded (yielded : w.machine.yielded = true) : runSlice thread fuel w = (.ok (), w) := by
  cases fuel <;> rw [runSlice, if_pos yielded]

theorem runSlice_zero (running : w.machine.yielded = false) :
    runSlice thread 0 w = (.error (.limitExceeded thread.val w.machine.options.instructionLimit), w) := by
  rw [runSlice, if_neg (Bool.eq_false_iff.mp running)]

theorem runSlice_succ (running : w.machine.yielded = false) : runSlice thread (fuel + 1) w =
    match w.step with
    | (.error fault, after) => (.error fault, after)
    | (.ok (), after) => runSlice thread fuel after := by
  rcases stepped : w.step with ⟨_ | _, after⟩ <;> rw [runSlice, if_neg (Bool.eq_false_iff.mp running), stepped]

end slices

/-- A slice, finished or not, is a number of instructions. -/
theorem runSlice_eq_afterSteps (thread : Fin threadCount) (fuel : Nat) (w : World H) :
    ∃ count, count ≤ fuel ∧ (runSlice thread fuel w).2 = afterSteps count w := by
  cases running : w.machine.yielded with
  | true => exact ⟨0, Nat.zero_le fuel, by rw [runSlice_of_yielded thread fuel running]; rfl⟩
  | false =>
    induction fuel generalizing w with
    | zero => exact ⟨0, Nat.le_refl 0, by rw [runSlice_zero thread running]; rfl⟩
    | succ fuel ih =>
      rw [runSlice_succ thread fuel running]
      rcases result : w.step with ⟨_ | _, next⟩
      · exact ⟨1, Nat.le_add_left 1 fuel, by rw [afterSteps, afterSteps, result]⟩
      · cases later : next.machine.yielded with
        | true =>
          refine ⟨1, Nat.le_add_left 1 fuel, ?_⟩
          simp only [runSlice_of_yielded thread fuel later, afterSteps, result]
        | false =>
          obtain ⟨count, bound, same⟩ := ih next later
          exact ⟨count + 1, Nat.succ_le_succ bound, by rw [afterSteps, result, same]⟩

/-- The world at the start of a thread's slice. -/
def beginSlice (w : World H) (thread : Fin threadCount) : World H :=
  (w.turnTo thread).startSlice { w.machine.profile with slices := w.machine.profile.slices + 1 }

/-- What comes of the instructions of a thread's slice. -/
def sliceEnd (w : World H) (thread : Fin threadCount) : Except Fault Unit × World H :=
  runSlice thread w.machine.options.instructionLimit.toNat (w.beginSlice thread)

theorem sliceEnd_keeps (w : World H) (thread : Fin threadCount) :
    Keeps (w.beginSlice thread).machine (w.sliceEnd thread).2.machine := by
  obtain ⟨count, _, same⟩ :=
    runSlice_eq_afterSteps thread w.machine.options.instructionLimit.toNat (w.beginSlice thread)
  rw [sliceEnd, same]
  exact afterSteps_keeps count _

/-- A slice runs unless no more slices can be counted. -/
theorem runThread_eq (w : World H) (thread : Fin threadCount) : w.runThread thread =
    if w.machine.profile.slices = 0xFFFFFFFFFFFFFFFF then (.error .overflow, w.turnTo thread)
    else
      match w.sliceEnd thread with
      | (.error fault, w) => (.error fault, w)
      | (.ok (), w) => w.endSlice thread := by
  have recorded : (w.turnTo thread).machine.profile.recordSlice = _ := w.machine.profile.recordSlice_eq
  by_cases full : w.machine.profile.slices = 0xFFFFFFFFFFFFFFFF
  · rw [if_pos full] at recorded ⊢
    simp only [runThread, recorded]
  · rw [if_neg full] at recorded ⊢
    simp only [runThread, recorded]
    rfl

/-- All that a slice can come to: no more slices can be counted; its instructions or the storing of the offset fail, and
    the world stays as the instructions left it; or the offset is stored. -/
theorem runThread_cases (w : World H) (thread : Fin threadCount) :
    (w.machine.profile.slices = 0xFFFFFFFFFFFFFFFF ∧ w.runThread thread = (.error .overflow, w.turnTo thread)) ∨
    (∃ fault, w.runThread thread = (.error fault, (w.sliceEnd thread).2)) ∨
    ∃ pc, (w.sliceEnd thread).2.machine.script.offset16 = .ok pc ∧
      w.runThread thread =
        (.ok (), (w.sliceEnd thread).2.mapMachine fun m => { m with threads := m.threads.setPc thread pc }) := by
  rw [runThread_eq]
  split
  · rename_i full
    exact .inl ⟨full, rfl⟩
  · rcases w.sliceEnd thread with ⟨_ | _, after⟩
    · exact .inr (.inl ⟨_, rfl⟩)
    · cases offset : after.machine.script.offset16 with
      | error fault => exact .inr (.inl ⟨fault, by simp only [endSlice, offset]⟩)
      | ok pc => exact .inr (.inr ⟨pc, rfl, by simp only [endSlice, offset]⟩)

/-- What a slice of a thread leaves alone: of the offsets all but that of the thread. -/
structure SliceKeeps (thread : Fin threadCount) (m n : Machine) : Prop extends Stays m n where
  pc : ∀ other, other ≠ thread → n.threads.pc.get other = m.threads.pc.get other

/-- A slice changes no offset but that of its thread. -/
theorem runThread_keeps (w : World H) (thread : Fin threadCount) :
    SliceKeeps thread w.machine (w.runThread thread).2.machine := by
  have run := sliceEnd_keeps w thread
  have stays : Stays w.machine (w.sliceEnd thread).2.machine :=
    ⟨run.code, run.paused, run.currentPart, run.options, run.aborted⟩
  obtain ⟨_, result⟩ | ⟨fault, result⟩ | ⟨pc, _, result⟩ := w.runThread_cases thread
  · rw [result]
    exact ⟨⟨rfl, rfl, rfl, rfl, rfl⟩, fun _ _ => rfl⟩
  · rw [result]
    refine ⟨stays, fun other _ => ?_⟩
    rw [run.pc]
    rfl
  · rw [result]
    refine ⟨stays.trans ⟨rfl, rfl, rfl, rfl, rfl⟩, fun other different => ?_⟩
    have apart : thread.val ≠ other.val := fun same => different (Fin.ext same.symm)
    show ((w.sliceEnd thread).2.machine.threads.pc.set thread.val pc thread.isLt)[other.val] =
      w.machine.threads.pc[other.val]
    rw [Vector.getElem_set_ne _ _ apart, run.pc]
    rfl

/-- A slice that goes well is counted. -/
theorem runThread_slices {w : World H} {thread : Fin threadCount} (well : (w.runThread thread).1 = .ok ()) :
    (w.runThread thread).2.machine.profile.slices = w.machine.profile.slices + 1 := by
  obtain ⟨_, result⟩ | ⟨fault, result⟩ | ⟨pc, _, result⟩ := w.runThread_cases thread
  · rw [result] at well
    cases well
  · rw [result] at well
    cases well
  · rw [result]
    exact (sliceEnd_keeps w thread).slices

/-- Whether so many more slices can be counted. -/
def Room (w : World H) (count : Nat) : Prop :=
  w.machine.profile.slices.toNat + count ≤ 0xFFFFFFFFFFFFFFFF

omit [Host H] in
/-- All threads can get a slice when counting begins. -/
theorem room_order (w : World H) : (w.mapMachine fun m => { m with profile := {} }).Room ThreadTable.order.length := by
  show 0 + ThreadTable.order.length ≤ 0xFFFFFFFFFFFFFFFF
  rw [ThreadTable.order, List.length_finRange]
  decide

namespace Room

variable {w : World H} {count : Nat}

omit [Host H] in
theorem fewer (room : w.Room (count + 1)) : w.Room count :=
  Nat.le_of_succ_le room

omit [Host H] in
theorem ne_largest (room : w.Room (count + 1)) : w.machine.profile.slices ≠ 0xFFFFFFFFFFFFFFFF := by
  intro full
  have largest : w.machine.profile.slices.toNat = 0xFFFFFFFFFFFFFFFF := congrArg UInt64.toNat full
  unfold Room at room
  omega

theorem later {thread : Fin threadCount} (room : w.Room (count + 1)) (well : (w.runThread thread).1 = .ok ()) :
    (w.runThread thread).2.Room count := by
  have next : (w.runThread thread).2.machine.profile.slices.toNat ≤ w.machine.profile.slices.toNat + 1 := by
    rw [runThread_slices well, UInt64.toNat_add]
    exact Nat.mod_le _ _
  unfold Room at room ⊢
  omega

end Room

section related

variable (related : World H → World H → Prop) (refl : ∀ w, related w w)
  (trans : ∀ {a b c}, related a b → related b c → related a c)
  (slice : ∀ w thread, related w (w.runThread thread).2)

include refl trans slice

/-- What every slice does to the world, the slices of a list of threads do. -/
theorem runThreads_of_slices (threads : List (Fin threadCount)) (w : World H) :
    related w (runThreads threads w).2 := by
  induction threads generalizing w with
  | nil => exact refl w
  | cons thread threads ih =>
    have first := slice w thread
    unfold runThreads
    split
    · rcases ran : w.runThread thread with ⟨result, after⟩
      rw [ran] at first
      cases result with
      | error fault => exact first
      | ok _ => exact trans first (ih after)
    · exact ih w

/-- What every slice does to the world, and what is done to it around them, a run of all threads does. -/
theorem runAll_of_slices (cleared : ∀ w : World H, related w (w.mapMachine fun m => { m with profile := {} }))
    (said : ∀ (w : World H) level text, related w (w.say level text)) (w : World H) : related w w.runAll.2 := by
  have slices := runThreads_of_slices related refl trans slice ThreadTable.order
    (w.mapMachine fun m => { m with profile := {} })
  unfold runAll
  rcases ran : runThreads ThreadTable.order (w.mapMachine fun m => { m with profile := {} }) with ⟨result, after⟩
  rw [ran] at slices
  cases result with
  | error fault => exact trans (cleared w) slices
  | ok _ => exact trans (trans (cleared w) slices) (said after _ _)

end related

theorem runAll_stays (w : World H) : Stays w.machine w.runAll.2.machine :=
  runAll_of_slices (fun w v => Stays w.machine v.machine) (fun w => Stays.refl w.machine) Stays.trans
    (fun w thread => (w.runThread_keeps thread).toStays) (fun _ => ⟨rfl, rfl, rfl, rfl, rfl⟩)
    (fun w _ _ => Stays.refl w.machine) w

/-! ### Phases -/

/-- Whether a phase that ends with `result` stops the machine for good. -/
def stops : Except Fault Unit → Bool
  | .ok () => false
  | .error fault => fault.isFatal

omit [Host H] in
theorem guarded_of_aborted (phase : World H → Except Fault Unit × World H) {w : World H}
    (stopped : w.machine.aborted = true) : guarded phase w = (.error .aborted, w) := by
  rw [guarded, if_pos stopped]

omit [Host H] in
theorem running_of_guarded {phase : World H → Except Fault Unit × World H} {w : World H}
    (well : (guarded phase w).1 = .ok ()) : w.machine.aborted = false := by
  cases aborted : w.machine.aborted with
  | false => rfl
  | true =>
    rw [guarded_of_aborted phase aborted] at well
    cases well

omit [Host H] in
/-- On a machine that runs, a guarded phase is the phase, save that a fatal fault stops the machine. -/
theorem guarded_of_running (phase : World H → Except Fault Unit × World H) {w : World H}
    (running : w.machine.aborted = false) :
    (guarded phase w).1 = (phase w).1 ∧ (guarded phase w).2.host = (phase w).2.host ∧
      (guarded phase w).2.machine =
        { (phase w).2.machine with aborted := (phase w).2.machine.aborted || stops (phase w).1 } := by
  rw [guarded, if_neg (Bool.eq_false_iff.mp running)]
  rcases phase w with ⟨result, after⟩
  cases result with
  | ok _ => exact ⟨rfl, rfl, by simp only [stops, Bool.or_false]⟩
  | error fault =>
    by_cases fatal : fault.isFatal = true
    · simp only [fatal, stops, if_true, Bool.or_true]
      exact ⟨trivial, rfl, rfl⟩
    · simp only [Bool.eq_false_iff.mpr fatal, stops, Bool.or_false]
      exact ⟨rfl, rfl, rfl⟩

theorem runPhase_currentPart (w : World H) : w.runPhase.2.machine.currentPart = w.machine.currentPart := by
  by_cases stopped : w.machine.aborted = true
  · rw [runPhase, guarded_of_aborted runAll stopped]
  · obtain ⟨_, _, machine⟩ := guarded_of_running runAll (Bool.eq_false_iff.mpr stopped)
    rw [runPhase, machine]
    exact w.runAll_stays.currentPart

theorem runPhase_running {w : World H} (well : w.runPhase.1 = .ok ()) : w.runPhase.2.machine.aborted = false := by
  have running := running_of_guarded well
  obtain ⟨result, _, machine⟩ := guarded_of_running runAll running
  have ran : w.runAll.1 = .ok () := result.symm.trans well
  rw [runPhase, machine, ran]
  simp only [stops, Bool.or_false]
  exact w.runAll_stays.aborted.trans running

end World

end Framescript
