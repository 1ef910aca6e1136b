import Framescript.Proofs.Boundaries

/-!
What threads can fail with. Reading fails only at the end of the code, and executing only with the calls, the
thread or the limit at fault (`runAll_fault`), so a run phase never fails for lack of a part. It has too few slices for
their number to overflow.
-/
namespace Framescript

/-- Whether running code can fail with a fault. -/
def Fault.ofScript : Fault → Bool
  | .invalidInstruction .. | .endOfCode .. | .invalidOffset _ | .callStackOverflow .. | .callStackUnderflow _
  | .limitExceeded .. | .invalidThread _ => true
  | .unknownPart _ | .aborted | .invalidInput _ | .state _ | .overflow => false

/-- Whether a single instruction can fail with a fault. -/
def Fault.ofStep : Fault → Bool
  | .invalidInstruction .. | .endOfCode .. | .invalidOffset _ | .callStackOverflow .. | .callStackUnderflow _
  | .invalidThread _ => true
  | _ => false

theorem Fault.ofStep_of_isEndOfCode {fault : Fault} (atEnd : fault.isEndOfCode) : fault.ofStep = true := by
  obtain ⟨offset, requested, available, rfl⟩ := exists_of_isEndOfCode atEnd
  rfl

theorem Fault.ofStep_of_ofExecution {fault : Fault} (ofExecution : fault.ofExecution = true) :
    fault.ofStep = true := by
  cases fault with
  | invalidOffset | callStackOverflow | callStackUnderflow | invalidThread => rfl
  | _ => cases ofExecution

theorem Fault.ofScript_of_ofStep {fault : Fault} (ofStep : fault.ofStep = true) : fault.ofScript = true := by
  cases fault with
  | limitExceeded | unknownPart | aborted | invalidInput | state | overflow => cases ofStep
  | _ => rfl

theorem Script.offset16_fault {s : Script} {fault : Fault} (failed : s.offset16 = .error fault) :
    fault.ofScript = true := by
  unfold offset16 at failed
  split at failed
  · cases failed
  · cases failed; rfl

namespace World

variable {H : Type}

variable [Host H]

/-- A step fails for how the instruction is written or for what it does, and never for its place in a slice. -/
theorem step_ofStep {w : World H} {fault : Fault} (failed : w.step.1 = .error fault) : fault.ofStep = true := by
  rcases Instr.read_cases w.machine.script with ended | ⟨opcode, invalid⟩ | ⟨bytes, instr, _, front, takes⟩
  · obtain ⟨unreadable, unread, atEnd⟩ := ended .twoBytes
    rw [step_of_unread unread] at failed
    cases failed
    exact Fault.ofStep_of_isEndOfCode atEnd
  · rw [step_of_unread (invalid .twoBytes)] at failed
    cases failed
    rfl
  · rw [step_of_read ((takes .twoBytes).whole _ front)] at failed
    exact Fault.ofStep_of_ofExecution (execute_fault failed)

theorem runSlice_fault {thread : Fin threadCount} {fuel : Nat} {w : World H} {fault : Fault}
    (failed : (runSlice thread fuel w).1 = .error fault) : fault.ofScript = true := by
  induction fuel generalizing w with
  | zero =>
    cases running : w.machine.yielded with
    | true =>
      rw [runSlice_of_yielded thread 0 running] at failed
      cases failed
    | false =>
      rw [runSlice_zero thread running] at failed
      cases failed
      rfl
  | succ fuel ih =>
    cases running : w.machine.yielded with
    | true =>
      rw [runSlice_of_yielded thread (fuel + 1) running] at failed
      cases failed
    | false =>
      rw [runSlice_succ thread fuel running] at failed
      rcases stepped : w.step with ⟨first | _, after⟩
      · rw [stepped] at failed
        cases failed
        exact Fault.ofScript_of_ofStep (step_ofStep (by rw [stepped]))
      · rw [stepped] at failed
        exact ih failed

/-- A slice fails as code does, or because it cannot be counted. -/
theorem runThread_fault {w : World H} {thread : Fin threadCount} {fault : Fault}
    (failed : (w.runThread thread).1 = .error fault) :
    fault.ofScript = true ∨ w.machine.profile.slices = 0xFFFFFFFFFFFFFFFF := by
  rw [runThread_eq] at failed
  split at failed
  · rename_i full
    exact .inr full
  · left
    rcases ended : w.sliceEnd thread with ⟨first | _, after⟩
    · rw [ended] at failed
      cases failed
      exact runSlice_fault (congrArg Prod.fst ended)
    · rw [ended] at failed
      simp only [endSlice] at failed
      rcases offset : after.machine.script.offset16 with unfit | pc
      · rw [offset] at failed
        cases failed
        exact Script.offset16_fault offset
      · rw [offset] at failed
        cases failed

/-- Slices fail as code does as long as they can all be counted. -/
theorem runThreads_fault {threads : List (Fin threadCount)} {w : World H} {fault : Fault} (room : w.Room threads.length)
    (failed : (runThreads threads w).1 = .error fault) : fault.ofScript = true := by
  induction threads generalizing w with
  | nil => cases failed
  | cons thread threads ih =>
    rw [runThreads] at failed
    split at failed
    · rcases ran : w.runThread thread with ⟨first | _, after⟩
      · rw [ran] at failed
        cases failed
        exact (runThread_fault (congrArg Prod.fst ran)).resolve_right room.ne_largest
      · have later := room.later (congrArg Prod.fst ran)
        rw [ran] at failed later
        exact ih later failed
    · exact ih room.fewer failed

/-- A run phase fails only as code does. -/
theorem runAll_fault {w : World H} {fault : Fault} (failed : w.runAll.1 = .error fault) : fault.ofScript = true := by
  unfold runAll at failed
  split at failed
  · rename_i ran
    cases failed
    exact runThreads_fault w.room_order (congrArg Prod.fst ran)
  · cases failed

theorem runPhase_ne_unknownPart (w : World H) (part : UInt16) : w.runPhase.1 ≠ .error (.unknownPart part) := by
  intro failed
  by_cases stopped : w.machine.aborted = true
  · rw [runPhase, guarded_of_aborted runAll stopped] at failed
    cases failed
  · obtain ⟨result, _⟩ := guarded_of_running runAll (Bool.eq_false_iff.mpr stopped)
    have ofScript := runAll_fault (result.symm.trans failed)
    cases ofScript

end World

end Framescript
