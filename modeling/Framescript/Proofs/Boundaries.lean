import Framescript.Proofs.Listed
import Framescript.Proofs.Untouched

/-!
Where instructions end. A step of a machine reads one instruction, counts it and executes it behind its last byte
(`step_of_read`). Although each decodes instructions in its own way, it reads what a listing lists: both fail for the
same reason, or both take the same bytes (`step_lineAt_agree`).
-/
namespace Framescript

open Reader (Takes)

theorem Fault.exists_of_isEndOfCode {fault : Fault} (atEnd : fault.isEndOfCode) :
    ∃ offset requested available, fault = .endOfCode offset requested available := by
  cases fault with
  | endOfCode offset requested available => exact ⟨offset, requested, available, rfl⟩
  | _ => cases atEnd

/-- Whether a fault says that an instruction could be read and not executed. -/
def Fault.ofExecution : Fault → Bool
  | .invalidOffset _ | .callStackOverflow .. | .callStackUnderflow _ | .invalidThread _ => true
  | _ => false

namespace Listing

theorem lineAt_of_unread {s : Script} {fault : Fault} (failed : Instr.read .oneWord s = .error fault) :
    lineAt s = .error fault := by
  simp only [lineAt_eq, failed]

/-- The bytes that are taken for an instruction are the bytes of its line. -/
theorem lineAt_of_takes {s : Script} {bytes : Bytes} {instr : Instr} (takes : Takes (Instr.read .oneWord) bytes instr)
    (front : bytes <+: s.rest) : lineAt s = .ok (⟨s.pc, bytes, instr.render⟩, s.advance bytes.length) := by
  have same : (s.code.extract s.pc (s.pc + bytes.length)).toList = bytes := by
    rw [Array.toList_extract, List.extract_eq_take_drop, Nat.add_sub_cancel_left]
    exact (List.prefix_iff_eq_take.mp front).symm
  simp only [lineAt_eq, takes.whole s front, Script.advance_pc, same]

end Listing

namespace World

variable {H : Type} [Host H]

/-- A step executes what is read at its position. -/
theorem step_of_read {w : World H} {instr : Instr} {script : Script}
    (read : Instr.read .twoBytes w.machine.script = .ok (instr, script)) :
    w.step = (w.fetched instr script).execute w.machine.script.pc instr := by
  rw [step_eq, read]

theorem step_eq_of_unread {w : World H} {fault : Fault}
    (failed : Instr.read .twoBytes w.machine.script = .error fault) : w.step = (.error fault, w.broken fault) := by
  rw [step_eq, failed]

theorem step_of_unread {w : World H} {fault : Fault}
    (failed : Instr.read .twoBytes w.machine.script = .error fault) : w.step.1 = .error fault := by
  rw [step_eq_of_unread failed]

/-! ### Executing -/

omit [Host H] in
theorem enter_fault {w : World H} {origin : Nat} {target : UInt16} {fault : Fault}
    (failed : (w.enter origin target).1 = .error fault) : fault.ofExecution = true := by
  unfold enter at failed
  split at failed
  · rename_i offset
    unfold Script.offset16 at offset
    split at offset <;> cases offset
    cases failed
    rfl
  · split at failed
    · rename_i pushed
      unfold CallStack.push at pushed
      split at pushed <;> cases pushed
      cases failed
      rfl
    · cases failed

omit [Host H] in
theorem leave_fault {w : World H} {origin : Nat} {fault : Fault} (failed : (w.leave origin).1 = .error fault) :
    fault.ofExecution = true := by
  unfold leave at failed
  split at failed
  · rename_i popped
    unfold CallStack.pop at popped
    split at popped <;> cases popped
    cases failed
    rfl
  · cases failed

omit [Host H] in
theorem setVector_fault {w : World H} {thread : UInt8} {target : UInt16} {fault : Fault}
    (failed : (w.setVector thread target).1 = .error fault) : fault.ofExecution = true := by
  unfold setVector at failed
  split at failed
  · rename_i requested
    unfold ThreadTable.requestPc at requested
    split at requested <;> cases requested
    cases failed
    rfl
  · cases failed

/-- Executing fails for what an instruction does, never for how it is written. -/
theorem execute_fault {w : World H} {origin : Nat} {instr : Instr} {fault : Fault}
    (failed : (w.execute origin instr).1 = .error fault) : fault.ofExecution = true := by
  cases instr with
  | table op operands =>
    cases op with
    | call => exact enter_fault failed
    | ret => exact leave_fault failed
    | setVec => exact setVector_fault failed
    | _ => cases failed
  | background halved x y => cases failed
  | sprite halved x y zoom => cases failed

omit [Host H] in
theorem enter_of_failed {w : World H} {origin : Nat} {target : UInt16} {fault : Fault}
    (failed : (w.enter origin target).1 = .error fault) : (w.enter origin target).2 = w := by
  unfold enter at failed ⊢
  rcases fits : w.machine.script.offset16 with _ | offset
  · rfl
  · simp only [fits] at failed ⊢
    rcases pushed : w.machine.callStack.push offset origin with _ | callStack
    · rfl
    · rw [pushed] at failed
      cases failed

omit [Host H] in
theorem leave_of_failed {w : World H} {origin : Nat} {fault : Fault} (failed : (w.leave origin).1 = .error fault) :
    (w.leave origin).2 = w := by
  unfold leave at failed ⊢
  rcases popped : w.machine.callStack.pop origin with _ | ⟨offset, callStack⟩
  · rfl
  · rw [popped] at failed
    cases failed

omit [Host H] in
theorem setVector_of_failed {w : World H} {thread : UInt8} {target : UInt16} {fault : Fault}
    (failed : (w.setVector thread target).1 = .error fault) : (w.setVector thread target).2 = w := by
  unfold setVector at failed ⊢
  rcases requested : w.machine.threads.requestPc thread target with _ | threads
  · rfl
  · rw [requested] at failed
    cases failed

/-- An instruction that fails changes nothing. -/
theorem execute_of_failed {w : World H} {origin : Nat} {instr : Instr} {fault : Fault}
    (failed : (w.execute origin instr).1 = .error fault) : (w.execute origin instr).2 = w := by
  cases instr with
  | table op operands =>
    cases op with
    | call => exact enter_of_failed failed
    | ret => exact leave_of_failed failed
    | setVec => exact setVector_of_failed failed
    | _ => cases failed
  | background halved x y => cases failed
  | sprite halved x y zoom => cases failed

/-- A step that fails has read and counted an instruction at most. -/
theorem step_of_failed {w : World H} {fault : Fault} (failed : w.step.1 = .error fault) :
    ∃ script instrOffset profile, w.step.2.machine = { w.machine with script, instrOffset, profile } := by
  rcases read : Instr.read .twoBytes w.machine.script with unread | ⟨instr, script⟩
  · rw [step_eq_of_unread read]
    exact ⟨_, _, _, rfl⟩
  · rw [step_of_read read] at failed ⊢
    rw [execute_of_failed failed]
    exact ⟨script, _, _, rfl⟩

/-- Whether an instruction goes on elsewhere than behind itself: a jump, a call, a return, the end of the thread, a
    count that is not over, or a comparison that holds. -/
def Transfers (w : World H) : Instr → Prop
  | .table .jmp _ | .table .call _ | .table .ret _ | .table .kill _ => True
  | .table .djnz (counter, _) => w.read counter - 1 ≠ 0
  | .table .jmpIf (condition, _) =>
    condition.comparison.holds (w.read condition.var) (w.comparand condition.comparand) = true
  | _ => False

omit [Host H] in
@[simp] theorem read_update (w : World H) (index : UInt8) (f : Int16 → Int16) :
    (w.update index f).read index = f (w.read index) :=
  Variables.get_set_self _ _ _

omit [Host H] in
theorem countDown_script {w : World H} {counter : UInt8} (target : UInt16) (zero : w.read counter - 1 = 0) :
    (w.countDown counter target).machine.script = w.machine.script := by
  rw [countDown, read_update, if_pos zero]
  rfl

omit [Host H] in
theorem jumpIf_script {w : World H} (origin : Nat) {c : Condition}
    (fails : ¬ c.comparison.holds (w.read c.var) (w.comparand c.comparand)) :
    (w.jumpIf origin c).machine.script = w.machine.script := by
  rw [jumpIf_machine, if_neg fails]

/-- An instruction that transfers no control leaves the script behind itself. -/
theorem execute_onward {w : World H} {origin : Nat} {instr : Instr} (onward : ¬ w.Transfers instr) :
    (w.execute origin instr).2.machine.script = w.machine.script := by
  cases instr with
  | table op operands =>
    cases op with
    | jmp | call | ret | kill => exact absurd trivial onward
    | djnz =>
      obtain ⟨counter, target, _⟩ := operands
      exact countDown_script target (Decidable.not_not.mp onward)
    | jmpIf => exact jumpIf_script origin onward
    | setVec =>
      obtain ⟨threads, machine⟩ := setVector_changes w operands.1 operands.2.1
      exact (congrArg Machine.script machine :)
    | resetThreads =>
      obtain ⟨threads, machine⟩ := resetThreads_changes w origin operands.1
      exact (congrArg Machine.script machine :)
    | blit =>
      obtain ⟨shown, machine⟩ := blit_machine w operands.1
      exact (congrArg Machine.script machine :)
    | loadResource => exact (congrArg Machine.script (loadResource_machine w operands.1) :)
    | _ => rfl
  | background halved x y =>
    show (w.drawBackground halved (widen x) (widen y)).machine.script = _
    rw [drawBackground_machine]
  | sprite halved x y zoom => rfl

omit [Host H] in
/-- A call that is opened returns to where the script stands. -/
theorem enter_pushes {w : World H} {origin : Nat} {target : UInt16}
    (well : (w.enter origin target).1 = .ok ()) :
    ∃ (room : w.machine.callStack.depth < callStackSize) (offset : UInt16),
      offset.toNat = w.machine.script.pc ∧
      (w.enter origin target).2.machine.callStack.depth = w.machine.callStack.depth + 1 ∧
      (w.enter origin target).2.machine.callStack.slots =
        w.machine.callStack.slots.set w.machine.callStack.depth offset room := by
  by_cases small : w.machine.script.pc < 0x10000
  · by_cases room : w.machine.callStack.depth < callStackSize
    · refine ⟨room, UInt16.ofNat w.machine.script.pc, UInt16.toNat_ofNat_of_lt small, ?_⟩
      simp only [enter, Script.offset16, small, if_true, CallStack.push, room, dif_pos]
      exact ⟨rfl, rfl⟩
    · simp only [enter, Script.offset16, small, if_true, CallStack.push, room, dif_neg, not_false_eq_true] at well
      cases well
  · simp only [enter, Script.offset16, small, if_false] at well
    cases well

/-! ### Agreement -/

/-- A machine at `bytes` reads exactly them, for `instr`: wherever they stand, `instr` is executed behind their last
    one, and wherever the code ends among them the step fails for that. An instruction that goes well and transfers
    no control ends behind them, and a call that goes well returns there. -/
structure ReadsExactly (w : World H) (bytes : Bytes) (instr : Instr) : Prop where
  whole : ∀ v : World H, bytes <+: v.machine.script.rest →
    v.step = (v.fetched instr (v.machine.script.advance bytes.length)).execute v.machine.script.pc instr
  cut : ∀ v : World H, v.machine.script.rest <+: bytes → v.machine.script.rest.length < bytes.length →
    ∃ offset requested available, v.step.1 = .error (.endOfCode offset requested available)
  onward : w.step.1 = .ok () → ¬ w.Transfers instr →
    w.step.2.machine.script.pc = w.machine.script.pc + bytes.length
  pushed : ∀ target, instr = .table .call (target, ()) → w.step.1 = .ok () →
    ∃ (room : w.machine.callStack.depth < callStackSize) (offset : UInt16),
      offset.toNat = w.machine.script.pc + bytes.length ∧
      w.step.2.machine.callStack.depth = w.machine.callStack.depth + 1 ∧
      w.step.2.machine.callStack.slots = w.machine.callStack.slots.set w.machine.callStack.depth offset room

theorem readsExactly_of_takes {w : World H} {bytes : Bytes} {instr : Instr}
    (takes : Takes (Instr.read .twoBytes) bytes instr) (front : bytes <+: w.machine.script.rest) :
    w.ReadsExactly bytes instr := by
  have whole (v : World H) (front : bytes <+: v.machine.script.rest) := step_of_read (takes.whole _ front)
  refine ⟨whole, fun v among short => ?_, fun _ onward => ?_, fun target called well => ?_⟩
  · obtain ⟨fault, failed, atEnd⟩ := takes.cut _ among short
    obtain ⟨offset, requested, available, rfl⟩ := Fault.exists_of_isEndOfCode atEnd
    exact ⟨offset, requested, available, step_of_unread failed⟩
  · rw [whole w front]
    have same : ¬ (w.fetched instr (w.machine.script.advance bytes.length)).Transfers instr := onward
    rw [execute_onward same]
    rfl
  · subst called
    rw [whole w front] at well ⊢
    exact enter_pushes well

/-- A machine and a listing agree on every instruction: an opcode has no meaning for both or for neither, the code
    ends for both or for neither, and otherwise the listing shows a line of at least a byte, and the machine reads
    exactly the bytes of that line. -/
theorem step_lineAt_agree (w : World H) :
    (∀ opcode offset, w.step.1 = .error (.invalidInstruction opcode offset) ↔
      Listing.lineAt w.machine.script = .error (.invalidInstruction opcode offset)) ∧
    ((∃ offset requested available, w.step.1 = .error (.endOfCode offset requested available)) ↔
      ∃ offset requested available,
        Listing.lineAt w.machine.script = .error (.endOfCode offset requested available)) ∧
    ((∃ opcode offset, w.step.1 = .error (.invalidInstruction opcode offset)) ∨
      (∃ offset requested available, w.step.1 = .error (.endOfCode offset requested available)) ∨
      ∃ line instr,
        Listing.lineAt w.machine.script = .ok (line, w.machine.script.advance line.bytes.length) ∧
        line.offset = w.machine.script.pc ∧ line.text = instr.render ∧ 1 ≤ line.bytes.length ∧
        line.bytes <+: w.machine.script.rest ∧ w.ReadsExactly line.bytes instr) := by
  rcases Instr.read_cases w.machine.script with ended | ⟨opcode, invalid⟩ | ⟨bytes, instr, nonempty, front, takes⟩
  · obtain ⟨fault, failed, atEnd⟩ := ended .twoBytes
    obtain ⟨fault', failed', atEnd'⟩ := ended .oneWord
    obtain ⟨o, r, a, rfl⟩ := Fault.exists_of_isEndOfCode atEnd
    obtain ⟨o', r', a', rfl⟩ := Fault.exists_of_isEndOfCode atEnd'
    rw [step_of_unread failed, Listing.lineAt_of_unread failed']
    exact ⟨fun _ _ => ⟨nofun, nofun⟩, ⟨fun _ => ⟨o', r', a', rfl⟩, fun _ => ⟨o, r, a, rfl⟩⟩, .inr (.inl ⟨o, r, a, rfl⟩)⟩
  · rw [step_of_unread (invalid .twoBytes), Listing.lineAt_of_unread (invalid .oneWord)]
    refine ⟨fun _ _ => ⟨?_, ?_⟩, ⟨nofun, nofun⟩, .inl ⟨opcode, _, rfl⟩⟩
    · rintro ⟨⟩
      rfl
    · rintro ⟨⟩
      rfl
  · have listed := Listing.lineAt_of_takes (takes .oneWord) front
    have reads := readsExactly_of_takes (takes .twoBytes) front
    have executed {fault : Fault} (failed : w.step.1 = .error fault) : fault.ofExecution = true := by
      rw [reads.whole w front] at failed
      exact execute_fault failed
    rw [listed]
    refine ⟨fun _ _ => ⟨fun failed => ?_, nofun⟩, ⟨fun ⟨_, _, _, failed⟩ => ?_, nofun⟩, .inr (.inr ?_)⟩
    · cases executed failed
    · cases executed failed
    · exact ⟨_, instr, rfl, rfl, rfl, List.length_pos_iff.mpr nonempty, front, reads⟩

end World

end Framescript
