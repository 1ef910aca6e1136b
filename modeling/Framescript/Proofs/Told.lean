import Framescript.Host.Headless
import Framescript.Proofs.Untouched

/-!
What happens to a host while threads run. Each instruction only tells it things (`step_told`), and so does a
whole run phase (`runAll_told`), so whatever a host keeps when it is told something is the same afterwards.
-/
namespace Framescript

/-- A host after it was told any number of things. -/
inductive Host.Told {H : Type} [Host H] (host : H) : H → Prop
  | nothing : Told host host
  | more (call : Call) {later : H} : Told host later → Told host (Host.perform call later)

theorem Host.Told.trans {H : Type} [Host H] {a b c : H} (first : Told a b) (second : Told b c) : Told a c := by
  induction second with
  | nothing => exact first
  | more call _ ih => exact ih.more call

namespace World

open Host (Told)

variable {H : Type}

theorem warned_host (w : World H) (origin : Nat) (c : Comparison) : (w.warned origin c).host = w.host := by
  cases c <;> rfl

theorem jumpIf_host (w : World H) (origin : Nat) (c : Condition) : (w.jumpIf origin c).host = w.host := by
  unfold jumpIf
  simp only
  split <;> exact w.warned_host origin c.comparison

theorem countDown_host (w : World H) (counter : UInt8) (target : UInt16) : (w.countDown counter target).host = w.host := by
  unfold countDown
  simp only
  split <;> rfl

theorem resetThreads_host (w : World H) (origin : Nat) (range : ThreadRange) :
    (w.resetThreads origin range).host = w.host := by
  unfold resetThreads resetRange
  simp only
  split
  · rfl
  · split
    · rfl
    · split <;> rfl

theorem handleKeys_host (w : World H) : w.handleKeys.host = w.host := by
  unfold handleKeys
  simp only
  split <;> split <;> split <;> rfl

theorem enter_host (w : World H) (origin : Nat) (target : UInt16) : (w.enter origin target).2.host = w.host := by
  unfold enter
  split
  · rfl
  · split <;> rfl

theorem leave_host (w : World H) (origin : Nat) : (w.leave origin).2.host = w.host := by
  unfold leave
  split <;> rfl

theorem setVector_host (w : World H) (thread : UInt8) (target : UInt16) :
    (w.setVector thread target).2.host = w.host := by
  unfold setVector
  split <;> rfl

variable [Host H]

theorem pace_told (w : World H) : Told w.host w.pace.host := by
  unfold pace
  simp only
  split
  · exact Told.nothing.more _
  · exact Told.nothing

theorem blit_told (w : World H) (page : UInt8) : Told w.host (w.blit page).host := by
  have told : Told w.host (if w.handleKeys.machine.options.pacing then w.handleKeys.pace else w.handleKeys).host := by
    rw [← handleKeys_host w]
    split
    · exact pace_told _
    · exact Told.nothing
  unfold blit
  simp only
  generalize (if w.handleKeys.machine.options.pacing = true then w.handleKeys.pace else w.handleKeys) = paced at told ⊢
  split
  · exact told.more (.updateDisplay page)
  · exact told

theorem loadResource_told (w : World H) (resource : UInt16) : Told w.host (w.loadResource resource).host := by
  unfold loadResource
  split
  · exact (Told.nothing.more .stopAll).more .invalidateResources
  · split
    · exact Told.nothing
    · exact Told.nothing.more _

theorem drawBackground_told (w : World H) (halved : UInt16) (x y : Int16) :
    Told w.host (w.drawBackground halved x y).host := by
  unfold drawBackground
  simp only
  split <;> exact Told.nothing.more _

theorem executeTable_told (w : World H) (origin : Nat) (op : Opcode) (operands : Operands op.operands) :
    Told w.host (w.executeTable origin op operands).2.host := by
  have same {v : World H} (unchanged : v.host = w.host) : Told w.host v.host := by
    rw [unchanged]
    exact Told.nothing
  cases op with
  | call => exact same (w.enter_host origin operands.1)
  | ret => exact same (w.leave_host origin)
  | djnz => exact same (w.countDown_host operands.1 operands.2.1)
  | jmpIf => exact same (w.jumpIf_host origin operands.1)
  | setVec => exact same (w.setVector_host operands.1 operands.2.1)
  | resetThreads => exact same (w.resetThreads_host origin operands.1)
  | blit => exact w.blit_told operands.1
  | loadResource => exact w.loadResource_told operands.1
  | setPalette | selectPage | fillPage | copyPage | drawString | playSound | playMusic => exact Told.nothing.more _
  | _ => exact Told.nothing

theorem execute_told (w : World H) (origin : Nat) (instr : Instr) : Told w.host (w.execute origin instr).2.host := by
  cases instr with
  | table op operands => exact w.executeTable_told origin op operands
  | background halved x y => exact w.drawBackground_told halved (widen x) (widen y)
  | sprite halved x y zoom => exact Told.nothing.more _

/-- An instruction only tells the host things. -/
theorem step_told (w : World H) : Told w.host w.step.2.host := by
  rw [step_eq]
  rcases Instr.read .twoBytes w.machine.script with fault | ⟨instr, script⟩
  · exact Told.nothing
  · exact execute_told (w.fetched instr script) w.machine.script.pc instr

theorem afterSteps_told (count : Nat) (w : World H) : Told w.host (afterSteps count w).host := by
  induction count generalizing w with
  | zero => exact Told.nothing
  | succ count ih => exact w.step_told.trans (ih w.step.2)

theorem runThread_told (w : World H) (thread : Fin threadCount) : Told w.host (w.runThread thread).2.host := by
  have told : Told w.host (w.sliceEnd thread).2.host := by
    obtain ⟨count, _, same⟩ :=
      runSlice_eq_afterSteps thread w.machine.options.instructionLimit.toNat (w.beginSlice thread)
    rw [sliceEnd, same]
    exact afterSteps_told count (w.beginSlice thread)
  obtain ⟨_, result⟩ | ⟨fault, result⟩ | ⟨pc, _, result⟩ := w.runThread_cases thread
  · rw [result]
    exact Told.nothing
  · rw [result]
    exact told
  · rw [result]
    exact told

/-- While threads run the host is only told things. -/
theorem runAll_told (w : World H) : Told w.host w.runAll.2.host :=
  runAll_of_slices (fun w v => Told w.host v.host) (fun _ => Told.nothing) Told.trans runThread_told
    (fun _ => Told.nothing) (fun _ _ _ => Told.nothing) w

end World

end Framescript
