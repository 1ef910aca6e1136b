import Framescript.Host.Headless
import Framescript.Proofs.ScriptFaults

/-!
Steps that fail. All operands are read before an instruction acts, and an instruction that fails to act does so on
what the machine holds. So a failed step moves the read position and the counts at most, next to the note of where the
instruction began, and no host hears of it (`step_all_or_nothing`).
-/
namespace Framescript

namespace World

variable {H K : Type}

theorem enter_result_of_machine {w : World H} {v : World K} (same : v.machine = w.machine) (origin : Nat)
    (target : UInt16) : (v.enter origin target).1 = (w.enter origin target).1 := by
  unfold enter
  rw [same]
  rcases w.machine.script.offset16 with _ | offset
  · rfl
  · dsimp only
    rcases w.machine.callStack.push offset origin with _ | _ <;> rfl

theorem leave_result_of_machine {w : World H} {v : World K} (same : v.machine = w.machine) (origin : Nat) :
    (v.leave origin).1 = (w.leave origin).1 := by
  unfold leave
  rw [same]
  rcases w.machine.callStack.pop origin with _ | _ <;> rfl

theorem setVector_result_of_machine {w : World H} {v : World K} (same : v.machine = w.machine) (thread : UInt8)
    (target : UInt16) : (v.setVector thread target).1 = (w.setVector thread target).1 := by
  unfold setVector
  rw [same]
  rcases w.machine.threads.requestPc thread target with _ | _ <;> rfl

variable [Host H] [Host K]

/-- Whether an instruction fails depends on the machine alone. -/
theorem execute_result_of_failed {w : World H} {v : World K} {origin : Nat} {instr : Instr} {fault : Fault}
    (same : v.machine = w.machine) (failed : (w.execute origin instr).1 = .error fault) :
    (v.execute origin instr).1 = .error fault := by
  cases instr with
  | table op operands =>
    cases op with
    | call => exact (enter_result_of_machine same ..).trans failed
    | ret => exact (leave_result_of_machine same ..).trans failed
    | setVec => exact (setVector_result_of_machine same ..).trans failed
    | _ => cases failed
  | background halved x y => cases failed
  | sprite halved x y zoom => cases failed

/-- A step that fails does so beside every host, with the same read position and counts. -/
theorem step_eq_of_failed {w : World H} {fault : Fault} (failed : w.step.1 = .error fault) :
    ∃ pc profile, (profile = w.machine.profile ∨ ∃ category, profile = w.machine.profile.record category) ∧
      ∀ (K : Type) [Host K] (host : K) (log : Log),
        ({ machine := w.machine, host, log } : World K).step =
          (.error fault,
            { machine :=
                { w.machine with
                  script := { w.machine.script with pc }, instrOffset := w.machine.script.pc, profile }
              host, log }) := by
  rcases read : Instr.read .twoBytes w.machine.script with unreadable | ⟨instr, script⟩
  · rw [step_of_unread read] at failed
    cases failed
    refine ⟨fault.cursor, (w.broken fault).machine.profile, ?_, fun K _ host log => ?_⟩
    · show (Option.elim _ _ _ : Profile) = _ ∨ ∃ category, Option.elim _ _ _ = _
      cases Lead.next? w.machine.script with
      | none => exact .inl rfl
      | some lead => exact .inr ⟨lead.category, rfl⟩
    · exact step_eq_of_unread (w := { machine := w.machine, host, log }) read
  · have moved : ({ code := w.machine.script.code, pc := script.pc } : Script) = script := by
      rw [← Instr.code_of_read read]
    rw [step_of_read read] at failed
    refine ⟨script.pc, w.machine.profile.record instr.lead.category, .inr ⟨_, rfl⟩, fun K _ host log => ?_⟩
    -- the same machine beside another host fails for the same reason, and what it executed changed nothing
    let v : World K := { machine := w.machine, host, log }
    have alone : ((v.fetched instr script).execute w.machine.script.pc instr).1 = .error fault :=
      execute_result_of_failed (w := w.fetched instr script) rfl failed
    rw [step_of_read (w := v) read, moved]
    exact Prod.ext alone (execute_of_failed alone)

/-- A step that fails is not half done: the machine differs in its read position, in the offset of the instruction that
    was begun last and in one more count at most, the host and the log not at all, and no answer of a host was needed to
    fail. A slice that has not yielded then does not yield but fails. -/
theorem step_all_or_nothing {w : World H} {fault : Fault} (failed : w.step.1 = .error fault) :
    fault.ofStep = true ∧
    (∀ thread fuel, w.machine.yielded = false → runSlice thread (fuel + 1) w = (.error fault, w.step.2)) ∧
    ∃ pc profile, (profile = w.machine.profile ∨ ∃ category, profile = w.machine.profile.record category) ∧
      w.step.2 =
        { w with
          machine :=
            { w.machine with
              script := { w.machine.script with pc }, instrOffset := w.machine.script.pc, profile } } ∧
      ∀ (K : Type) [Host K] (host : K) (log : Log),
        ({ machine := w.machine, host, log } : World K).step =
          (.error fault,
            { machine :=
                { w.machine with
                  script := { w.machine.script with pc }, instrOffset := w.machine.script.pc, profile }
              host, log }) := by
  obtain ⟨pc, profile, counted, alone⟩ := step_eq_of_failed failed
  refine ⟨step_ofStep failed, fun thread fuel running => ?_, pc, profile, counted, by rw [alone H w.host w.log], alone⟩
  rw [runSlice_succ thread fuel running]
  rcases stepped : w.step with ⟨result, after⟩
  rw [stepped] at failed
  cases failed
  rfl

/-- A machine at the start of its code, with no room for another call. -/
def crowded (code : Code) : World Headless where
  machine :=
    { script := { code }, threads := .started
      callStack := { slots := .replicate callStackSize 0x1234, depth := callStackSize, depth_le := Nat.le_refl _ } }
  host := {}

/-- A range of threads whose action is cut off, a jump of a thread that there is not, a call without room and an opcode
    without a meaning: of each there is nothing but a count. -/
theorem step_all_or_nothing_crowded :
    ((crowded #[0x0C, 2, 63]).step.1 = .error (.endOfCode 3 1 0) ∧
      (crowded #[0x08, 64, 0, 0]).step.1 = .error (.invalidThread 64) ∧
      (crowded #[0x04, 0, 0]).step.1 = .error (.callStackOverflow 0 256) ∧
      (crowded #[0x1B]).step.1 = .error (.invalidInstruction 0x1B 0)) ∧
    ∀ code ∈ [#[0x0C, 2, 63], #[0x08, 64, 0, 0], #[0x04, 0, 0], #[0x1B]],
      ∃ pc profile,
        (crowded code).step.2 =
          { crowded code with machine := { (crowded code).machine with script := { code, pc }, profile } } := by
  refine ⟨⟨rfl, rfl, rfl, rfl⟩, fun code member => ?_⟩
  have failed : ∃ fault, (crowded code).step.1 = .error fault := by
    rcases member with _ | ⟨_, _ | ⟨_, _ | ⟨_, _ | ⟨_, ⟨⟩⟩⟩⟩⟩ <;> exact ⟨_, rfl⟩
  obtain ⟨fault, failed⟩ := failed
  obtain ⟨-, -, pc, profile, -, after, -⟩ := step_all_or_nothing failed
  exact ⟨pc, profile, after⟩

end World

end Framescript
