import Framescript.Proofs.Boundaries
import Framescript.Proofs.Requests
import Framescript.Proofs.RunPhase

/-!
Calls and returns within a slice. The slots of the call stack outlive the slice, and so does whatever earlier slices,
other threads and loaded states have left in them, but none of it is ever seen: in the course of a slice the open calls
are those that the slice itself has opened and not yet closed (`Slice.call_discipline`).
-/
namespace Framescript

/-! ### Open calls -/

/-- What an instruction does to the open calls. -/
inductive Nesting where
  | opens
  | closes
  | stays
  deriving DecidableEq, Repr

def Instr.nesting : Instr → Nesting
  | .table .call _ => .opens
  | .table .ret _ => .closes
  | _ => .stays

theorem Instr.eq_call_of_opens {instr : Instr} (opens : instr.nesting = .opens) :
    ∃ target, instr = .table .call (target, ()) := by
  cases instr with
  | table op operands =>
    cases op with
    | call => exact ⟨operands.1, rfl⟩
    | _ => cases opens
  | background halved x y => cases opens
  | sprite halved x y zoom => cases opens

theorem Instr.eq_ret_of_closes {instr : Instr} (closes : instr.nesting = .closes) : instr = .table .ret () := by
  cases instr with
  | table op operands =>
    cases op with
    | ret => rfl
    | _ => cases closes
  | background halved x y => cases closes
  | sprite halved x y zoom => cases closes

/-- The calls that are still open after some instructions, the latest first, as the instructions are. On the way back
    through them, `closed` is the number of calls yet to be met that are closed already. -/
def openCalls (closed : Nat) : List Executed → List Executed
  | [] => []
  | e :: past =>
    match e.instr.nesting, closed with
    | .closes, closed => openCalls (closed + 1) past
    | .stays, closed => openCalls closed past
    | .opens, 0 => e :: openCalls 0 past
    | .opens, closed + 1 => openCalls closed past

theorem openCalls_succ (closed : Nat) (past : List Executed) :
    openCalls (closed + 1) past = (openCalls closed past).tail := by
  induction past generalizing closed with
  | nil => rfl
  | cons e past ih =>
    cases nesting : e.instr.nesting with
    | closes =>
      simp only [openCalls, nesting]
      exact ih (closed + 1)
    | stays =>
      simp only [openCalls, nesting]
      exact ih closed
    | opens =>
      cases closed with
      | zero => simp only [openCalls, nesting, List.tail_cons]
      | succ closed =>
        simp only [openCalls, nesting]
        exact ih closed

/-- How many of some instructions do this or that to the open calls. -/
def countNesting (kind : Nesting) (past : List Executed) : Nat :=
  past.countP (·.instr.nesting = kind)

theorem countNesting_cons (kind : Nesting) (e : Executed) (past : List Executed) :
    countNesting kind (e :: past) = countNesting kind past + if e.instr.nesting = kind then 1 else 0 := by
  simp only [countNesting, List.countP_cons, decide_eq_true_eq]

/-- The last call that is open is one since which calls and returns are balanced. -/
theorem openCalls_split {closed : Nat} {past : List Executed} {call : Executed} {earlier : List Executed}
    (opened : openCalls closed past = call :: earlier) :
    ∃ recent older, past = recent ++ call :: older ∧ call.instr.nesting = .opens ∧
      countNesting .closes recent + closed = countNesting .opens recent ∧ openCalls closed recent = [] ∧
      openCalls 0 older = earlier := by
  -- On the way back, `closed` is what the instructions that were passed are short of calls.
  induction past generalizing closed with
  | nil => cases opened
  | cons e past ih =>
    cases nesting : e.instr.nesting with
    | closes =>
      simp only [openCalls, nesting] at opened
      obtain ⟨recent, older, rfl, opens, balanced, none, others⟩ := ih opened
      refine ⟨e :: recent, older, rfl, opens, ?_, ?_, others⟩
      · rw [countNesting_cons, countNesting_cons, nesting, if_pos rfl, if_neg nofun]
        omega
      · simp only [openCalls, nesting]
        exact none
    | stays =>
      simp only [openCalls, nesting] at opened
      obtain ⟨recent, older, rfl, opens, balanced, none, others⟩ := ih opened
      refine ⟨e :: recent, older, rfl, opens, ?_, ?_, others⟩
      · rw [countNesting_cons, countNesting_cons, nesting, if_neg nofun, if_neg nofun]
        exact balanced
      · simp only [openCalls, nesting]
        exact none
    | opens =>
      cases closed with
      | zero =>
        simp only [openCalls, nesting] at opened
        obtain ⟨rfl, others⟩ := List.cons.inj opened
        exact ⟨[], past, rfl, nesting, rfl, rfl, others⟩
      | succ closed =>
        simp only [openCalls, nesting] at opened
        obtain ⟨recent, older, rfl, opens, balanced, none, others⟩ := ih opened
        refine ⟨e :: recent, older, rfl, opens, ?_, ?_, others⟩
        · rw [countNesting_cons, countNesting_cons, nesting, if_neg nofun, if_pos rfl]
          omega
        · simp only [openCalls, nesting]
          exact none

/-! ### The call stack -/

namespace CallStack

/-- The offsets to which the open calls return, the last one first. -/
def frames (s : CallStack) : List UInt16 :=
  (s.slots.toList.take s.depth).reverse

theorem length_frames (s : CallStack) : s.frames.length = s.depth := by
  have := s.depth_le
  simp only [frames, List.length_reverse, List.length_take, Vector.length_toList]
  omega

theorem frames_rewind (s : CallStack) : s.rewind.frames = [] := rfl

theorem push_of_full {s : CallStack} (full : s.depth = callStackSize) (offset : UInt16) (origin : Nat) :
    s.push offset origin = .error (.callStackOverflow origin callStackSize) := by
  rw [push, dif_neg (by omega), full]

theorem push_of_room {s : CallStack} (room : s.depth < callStackSize) (offset : UInt16) (origin : Nat) :
    ∃ s', s.push offset origin = .ok s' ∧ s'.frames = offset :: s.frames := by
  refine ⟨_, dif_pos room, ?_⟩
  have inside : s.depth < (s.slots.toList.set s.depth offset).length := by
    rw [List.length_set, Vector.length_toList]
    exact room
  have below : (s.slots.set s.depth offset room).toList.take (s.depth + 1) = s.slots.toList.take s.depth ++ [offset] := by
    rw [Vector.toList_set, List.take_succ_eq_append_getElem inside, List.getElem_set_self,
      List.take_set_of_le (Nat.le_refl _)]
  rw [frames, below, List.reverse_append]
  rfl

theorem pop_of_empty {s : CallStack} (none : s.frames = []) (origin : Nat) :
    s.pop origin = .error (.callStackUnderflow origin) := by
  have zero : s.depth = 0 := by rw [← s.length_frames, none, List.length_nil]
  rw [pop, dif_neg (by omega)]

theorem pop_of_open {s : CallStack} {offset : UInt16} {others : List UInt16} (opened : s.frames = offset :: others)
    (origin : Nat) : ∃ s', s.pop origin = .ok (offset, s') ∧ s'.frames = others := by
  have some : 0 < s.depth := by
    rw [← s.length_frames, opened]
    exact Nat.succ_pos _
  have inside : s.depth - 1 < s.slots.toList.length := by
    rw [Vector.length_toList]
    exact Nat.lt_of_lt_of_le (Nat.sub_one_lt_of_lt some) s.depth_le
  have top : s.frames = s.slots.toList[s.depth - 1] :: (s.slots.toList.take (s.depth - 1)).reverse := by
    have below := List.take_succ_eq_append_getElem inside
    rw [Nat.sub_one_add_one (Nat.ne_of_gt some)] at below
    rw [frames, below, List.reverse_append]
    rfl
  obtain ⟨isTop, rest⟩ := List.cons.inj (top.symm.trans opened)
  refine ⟨{ s with depth := s.depth - 1, depth_le := Nat.le_trans (Nat.sub_le _ _) s.depth_le }, ?_, rest⟩
  rw [pop, dif_pos some, ← isTop]
  rfl

end CallStack

/-! ### Instructions -/

theorem Script.pc_of_byte {s s' : Script} {value : UInt8} (read : s.byte = .ok (value, s')) : s'.pc = s.pc + 1 := by
  unfold Script.byte at read
  split at read
  · cases read
    rfl
  · cases read

theorem Script.pc_of_word {s s' : Script} {value : UInt16} (read : s.word = .ok (value, s')) : s'.pc = s.pc + 2 := by
  unfold Script.word at read
  split at read
  · cases read
    rfl
  · cases read

/-- A call takes three bytes. -/
theorem Instr.pc_of_read_call {how : CoordinateRead} {s s' : Script} {operands : Operands Opcode.call.operands}
    (read : Instr.read how s = .ok (.table .call operands, s')) : s'.pc = s.pc + 3 := by
  obtain ⟨opcode, behind, lead, first, meaning, read⟩ := Instr.of_read read
  have isCall : lead = .table .call := (Instr.lead_of_readAfter read).symm
  subst isCall
  rcases second : behind.word with fault | ⟨target, last⟩
  · simp only [Instr.readAfter, Opcode.operands, Operands.read, OperandKind.read, second] at read
    cases read
  · simp only [Instr.readAfter, Opcode.operands, Operands.read, OperandKind.read, second] at read
    cases read
    rw [Script.pc_of_word second, Script.pc_of_byte first]

namespace World

variable {H : Type} [Host H]

theorem execute_callStack (w : World H) (origin : Nat) {instr : Instr} (stays : instr.nesting = .stays) :
    (w.execute origin instr).2.machine.callStack = w.machine.callStack := by
  cases instr with
  | table op operands =>
    cases op with
    | call | ret => cases stays
    | jmpIf =>
      obtain ⟨script, machine⟩ := jumpIf_changes w origin operands.1
      exact (congrArg Machine.callStack machine :)
    | setVec =>
      obtain ⟨threads, machine⟩ := setVector_changes w operands.1 operands.2.1
      exact (congrArg Machine.callStack machine :)
    | resetThreads =>
      obtain ⟨threads, machine⟩ := resetThreads_changes w origin operands.1
      exact (congrArg Machine.callStack machine :)
    | djnz =>
      obtain ⟨script, vars, machine⟩ := countDown_changes w operands.1 operands.2.1
      exact (congrArg Machine.callStack machine :)
    | blit =>
      obtain ⟨shown, machine⟩ := blit_machine w operands.1
      exact (congrArg Machine.callStack machine :)
    | loadResource => exact (congrArg Machine.callStack (loadResource_machine w operands.1) :)
    | _ => rfl
  | background halved x y =>
    rw [execute, drawBackground_machine]
  | sprite halved x y zoom => rfl

omit [Host H] in
/-- A call fails if its return offset does not fit, or if there is no room, and is open otherwise. -/
theorem enter_cases (w : World H) (origin : Nat) (target : UInt16) :
    (∃ fault, w.enter origin target = (.error fault, w) ∧
      (w.machine.script.pc < 0x10000 →
        w.machine.callStack.depth = callStackSize ∧ fault = .callStackOverflow origin callStackSize)) ∨
    ∃ after offset, w.enter origin target = (.ok (), after) ∧ offset.toNat = w.machine.script.pc ∧
      w.machine.callStack.depth < callStackSize ∧
      after.machine.callStack.frames = offset :: w.machine.callStack.frames := by
  unfold enter Script.offset16
  by_cases fits : w.machine.script.pc < 0x10000
  · rw [if_pos fits]
    by_cases room : w.machine.callStack.depth < callStackSize
    · obtain ⟨stack, pushed, frames⟩ := CallStack.push_of_room room (UInt16.ofNat w.machine.script.pc) origin
      simp only [pushed]
      exact .inr ⟨_, _, rfl, UInt16.toNat_ofNat_of_lt fits, room, frames⟩
    · have full : w.machine.callStack.depth = callStackSize :=
        Nat.le_antisymm w.machine.callStack.depth_le (Nat.le_of_not_lt room)
      simp only [CallStack.push_of_full full]
      exact .inl ⟨_, rfl, fun _ => ⟨full, rfl⟩⟩
  · rw [if_neg fits]
    exact .inl ⟨_, rfl, fun fits' => absurd fits' fits⟩

omit [Host H] in
/-- A return fails if no call is open, and otherwise goes to where the last open call returns. -/
theorem leave_cases (w : World H) (origin : Nat) :
    (w.machine.callStack.frames = [] ∧ w.leave origin = (.error (.callStackUnderflow origin), w)) ∨
    ∃ after offset, w.leave origin = (.ok (), after) ∧ after.machine.script.pc = offset.toNat ∧
      w.machine.callStack.frames = offset :: after.machine.callStack.frames := by
  unfold leave
  cases frames : w.machine.callStack.frames with
  | nil =>
    rw [CallStack.pop_of_empty frames]
    exact .inl ⟨rfl, rfl⟩
  | cons offset others =>
    obtain ⟨stack, popped, left⟩ := CallStack.pop_of_open frames origin
    simp only [popped]
    refine .inr ⟨_, offset, rfl, rfl, ?_⟩
    rw [← left]
    rfl

/-- A step fails and leaves the call stack alone, or it executes what stands there. -/
theorem executed_cases (w : World H) :
    (w.executed? = none ∧ w.step.2.machine.callStack = w.machine.callStack) ∨
    ∃ instr script, Instr.read .twoBytes w.machine.script = .ok (instr, script) ∧
      w.step.1 = .ok () ∧ w.executed? = some ⟨w.machine.script.pc, instr, script.pc⟩ := by
  rcases stepped : w.step.1 with fault | _
  · obtain ⟨script, instrOffset, profile, machine⟩ := step_of_failed stepped
    refine .inl ⟨executed_of_error stepped, ?_⟩
    rw [machine]
  · obtain ⟨instr, script, read⟩ := read_of_ok stepped
    exact .inr ⟨instr, script, read, rfl, executed_of_read read stepped⟩

/-- What an instruction that goes well does to the open calls. -/
theorem frames_of_executed {w : World H} {e : Executed} (went : w.executed? = some e) :
    (e.instr.nesting = .opens ∧ e.behind = e.origin + 3 ∧
      w.step.2.machine.callStack.frames.map UInt16.toNat = e.behind :: w.machine.callStack.frames.map UInt16.toNat) ∨
    (e.instr.nesting = .closes ∧ ∃ offset,
      w.machine.callStack.frames = offset :: w.step.2.machine.callStack.frames) ∨
    (e.instr.nesting = .stays ∧ w.step.2.machine.callStack = w.machine.callStack) := by
  obtain ⟨none, -⟩ | ⟨instr, script, read, well, found⟩ := w.executed_cases
  · cases none.symm.trans went
  cases found.symm.trans went
  rw [step_of_read read] at well ⊢
  cases nesting : instr.nesting with
  | stays => exact .inr (.inr ⟨rfl, execute_callStack (w.fetched instr script) w.machine.script.pc nesting⟩)
  | opens =>
    obtain ⟨target, rfl⟩ := Instr.eq_call_of_opens nesting
    refine .inl ⟨rfl, Instr.pc_of_read_call read, ?_⟩
    obtain ⟨_, refused, -⟩ | ⟨after, offset, entered, returns, -, frames⟩ :=
      (w.fetched (.table .call (target, ())) script).enter_cases w.machine.script.pc target
    · cases (congrArg Prod.fst refused :).symm.trans well
    · show List.map UInt16.toNat (World.enter _ w.machine.script.pc target).2.machine.callStack.frames = _
      rw [entered, frames, List.map_cons, returns]
      rfl
  | closes =>
    cases Instr.eq_ret_of_closes nesting
    refine .inr (.inl ⟨rfl, ?_⟩)
    obtain ⟨-, refused⟩ | ⟨after, offset, left, -, frames⟩ :=
      (w.fetched (.table .ret ()) script).leave_cases w.machine.script.pc
    · cases (congrArg Prod.fst refused :).symm.trans well
    · refine ⟨offset, ?_⟩
      show w.machine.callStack.frames = offset :: (World.leave _ w.machine.script.pc).2.machine.callStack.frames
      rw [left]
      exact frames

theorem step_of_return {w : World H} (next : w.next? = some (.table .ret ())) :
    (w.machine.callStack.frames = [] ∧ w.step.1 = .error (.callStackUnderflow w.machine.script.pc)) ∨
    ∃ offset others, w.machine.callStack.frames = offset :: others ∧
      w.step.1 = .ok () ∧ w.step.2.machine.yielded = w.machine.yielded ∧
      w.step.2.machine.script.pc = offset.toNat := by
  obtain ⟨script, read⟩ := read_of_next next
  have step : w.step = (w.fetched (.table .ret ()) script).leave w.machine.script.pc := step_of_read read
  obtain ⟨_, _, machine⟩ := leave_changes (w.fetched (.table .ret ()) script) w.machine.script.pc
  obtain ⟨frames, refused⟩ | ⟨after, offset, left, pc, frames⟩ :=
    (w.fetched (.table .ret ()) script).leave_cases w.machine.script.pc
  · rw [step, refused]
    exact .inl ⟨frames, rfl⟩
  · rw [left] at machine
    rw [step, left]
    exact .inr ⟨offset, _, frames, rfl, (congrArg Machine.yielded machine :), pc⟩

theorem step_of_call {w : World H} {target : UInt16} (next : w.next? = some (.table .call (target, ())))
    (fits : w.machine.script.pc + 3 < 0x10000) :
    (w.machine.callStack.depth = callStackSize ∧
      w.step.1 = .error (.callStackOverflow w.machine.script.pc callStackSize)) ∨
    (w.machine.callStack.depth < callStackSize ∧
      w.step.1 = .ok () ∧ w.step.2.machine.yielded = w.machine.yielded) := by
  obtain ⟨script, read⟩ := read_of_next next
  obtain ⟨_, _, machine⟩ := enter_changes (w.fetched (.table .call (target, ())) script) w.machine.script.pc target
  have step : w.step = (w.fetched (.table .call (target, ())) script).enter w.machine.script.pc target :=
    step_of_read read
  have behind : script.pc < 0x10000 := by
    rw [Instr.pc_of_read_call read]
    exact fits
  obtain ⟨fault, refused, full⟩ | ⟨after, offset, entered, -, room, -⟩ :=
    (w.fetched (.table .call (target, ())) script).enter_cases w.machine.script.pc target
  · obtain ⟨depth, rfl⟩ := full behind
    rw [step, refused]
    exact .inl ⟨depth, rfl⟩
  · rw [entered] at machine
    rw [step, entered]
    exact .inr ⟨room, rfl, (congrArg Machine.yielded machine :)⟩

end World

namespace Slice

variable {H : Type} [Host H]

/-- The instructions that were executed in the course of a slice, the latest first. -/
def past (s : Slice H) : Nat → List Executed
  | 0 => []
  | count + 1 => (s.after count).executed?.toList ++ s.past count

theorem after_succ (s : Slice H) (count : Nat) : s.after (count + 1) = (s.after count).step.2 :=
  World.afterSteps_succ count _

/-- The open calls are those that the slice has opened and not yet closed. -/
theorem frames_after (s : Slice H) (count : Nat) :
    (s.after count).machine.callStack.frames.map UInt16.toNat = (openCalls 0 (s.past count)).map Executed.behind := by
  induction count with
  | zero =>
    -- Whatever the slots hold, a slice begins without an open call.
    show (CallStack.rewind _).frames.map UInt16.toNat = []
    rw [CallStack.frames_rewind, List.map_nil]
  | succ count ih =>
    rw [after_succ, past]
    rcases (s.after count).executed_cases with ⟨none, same⟩ | ⟨instr, script, read, well, went⟩
    · rw [same, none]
      exact ih
    · rw [went]
      rcases World.frames_of_executed went with ⟨opens, -, frames⟩ | ⟨closes, offset, frames⟩ | ⟨stays, same⟩
      · rw [frames, ih]
        simp only [Option.toList_some, List.singleton_append, openCalls, opens, List.map_cons]
      · rw [frames, List.map_cons] at ih
        simp only [Option.toList_some, List.singleton_append, openCalls, closes, openCalls_succ, List.map_tail, ← ih,
          List.tail_cons]
      · rw [same, ih]
        simp only [Option.toList_some, List.singleton_append, openCalls, stays]

theorem depth_after (s : Slice H) (count : Nat) :
    (s.after count).machine.callStack.depth = (openCalls 0 (s.past count)).length := by
  have lengths := congrArg List.length (s.frames_after count)
  rw [List.length_map, List.length_map, CallStack.length_frames] at lengths
  exact lengths

theorem balance_after (s : Slice H) (count : Nat) :
    (s.after count).machine.callStack.depth + countNesting .closes (s.past count) =
      countNesting .opens (s.past count) := by
  induction count with
  | zero => rfl
  | succ count ih =>
    rw [after_succ, past]
    rw [← CallStack.length_frames] at ih ⊢
    rcases (s.after count).executed_cases with ⟨none, same⟩ | ⟨instr, script, read, well, went⟩
    · rw [same, none]
      exact ih
    · rw [went, Option.toList_some, List.singleton_append, countNesting_cons, countNesting_cons]
      rcases World.frames_of_executed went with ⟨opens, -, frames⟩ | ⟨closes, offset, frames⟩ | ⟨stays, same⟩
      · have grown := congrArg List.length frames
        rw [List.length_map, List.length_cons, List.length_map] at grown
        rw [opens, if_neg nofun, if_pos rfl, grown]
        omega
      · rw [frames, List.length_cons] at ih
        rw [closes, if_pos rfl, if_neg nofun]
        omega
      · rw [same, stays, if_neg nofun, if_neg nofun]
        exact ih

theorem behind_of_past {s : Slice H} {count : Nat} {e : Executed} (member : e ∈ s.past count)
    (opens : e.instr.nesting = .opens) : e.behind = e.origin + 3 := by
  induction count with
  | zero => cases member
  | succ count ih =>
    rcases List.mem_append.mp member with latest | earlier
    · have went := Option.mem_toList.mp latest
      rcases World.frames_of_executed went with ⟨-, behind, -⟩ | ⟨closes, -⟩ | ⟨stays, -⟩
      · exact behind
      · cases opens.symm.trans closes
      · cases opens.symm.trans stays
    · exact ih earlier

/-- A return goes right behind the call that was opened last, and fails if there is none. -/
theorem return_after {s : Slice H} {count : Nat} (next : (s.after count).next? = some (.table .ret ())) :
    ((s.after count).step.1 = .error (.callStackUnderflow (s.after count).machine.script.pc) ↔
      openCalls 0 (s.past count) = []) ∧
    ∀ call earlier, openCalls 0 (s.past count) = call :: earlier →
      (s.after count).step.1 = .ok () ∧ (s.after count).step.2.machine.yielded = (s.after count).machine.yielded ∧
        (s.after count).step.2.machine.script.pc = call.behind := by
  have frames := s.frames_after count
  obtain ⟨empty, failed⟩ | ⟨offset, others, top, well, runs, goes⟩ := World.step_of_return next
  · rw [empty] at frames
    have none : openCalls 0 (s.past count) = [] := List.map_eq_nil_iff.mp frames.symm
    refine ⟨⟨fun _ => none, fun _ => failed⟩, fun call earlier some => ?_⟩
    cases none.symm.trans some
  · rw [top, List.map_cons] at frames
    refine ⟨⟨fun failed => ?_, fun none => ?_⟩, fun call earlier some => ?_⟩
    · cases well.symm.trans failed
    · rw [none] at frames
      cases frames
    · rw [some, List.map_cons] at frames
      exact ⟨well, runs, goes.trans (List.cons.inj frames).1⟩

/-- A call whose return offset fits is opened, unless 256 are open. -/
theorem call_after {s : Slice H} {count : Nat} {target : UInt16}
    (next : (s.after count).next? = some (.table .call (target, ())))
    (fits : (s.after count).machine.script.pc + 3 < 0x10000) :
    ((s.after count).step.1 = .error (.callStackOverflow (s.after count).machine.script.pc 256) ↔
      (openCalls 0 (s.past count)).length = 256) ∧
    ((openCalls 0 (s.past count)).length < 256 →
      (s.after count).step.1 = .ok () ∧ (s.after count).step.2.machine.yielded = (s.after count).machine.yielded) := by
  rw [← s.depth_after count]
  obtain ⟨full, failed⟩ | ⟨room, well⟩ := World.step_of_call next fits
  · exact ⟨⟨fun _ => full, fun _ => failed⟩, fun room => absurd full (Nat.ne_of_lt room)⟩
  · refine ⟨⟨fun failed => ?_, fun full => absurd full (Nat.ne_of_lt room)⟩, fun _ => well⟩
    cases well.1.symm.trans failed

/-- Calls and returns are matched within their slice. Whatever the call stack holds when a slice of a thread begins, at
    each point of the slice the depth is the number of calls less that of returns that the slice has executed, and the
    calls that are open are the slice's own. A return goes right behind the call that was opened last, the one since
    which calls and returns are balanced, and fails if none is open. A call whose return offset fits fails if 256 are
    open. -/
theorem call_discipline (s : Slice H) (count : Nat) :
    let here := s.after count
    let past := s.past count
    let opened := openCalls 0 past
    let pc := here.machine.script.pc
    here.machine.callStack.depth = opened.length ∧
      here.machine.callStack.depth + countNesting .closes past = countNesting .opens past ∧
      here.machine.callStack.depth ≤ 256 ∧
      (here.next? = some (.table .ret ()) →
        (here.step.1 = .error (.callStackUnderflow pc) ↔ opened = []) ∧
        ∀ call earlier, opened = call :: earlier →
          here.step.1 = .ok () ∧ here.step.2.machine.yielded = here.machine.yielded ∧
          here.step.2.machine.script.pc = call.behind ∧ call.behind = call.origin + 3 ∧
          ∃ recent older, past = recent ++ call :: older ∧ call.instr.nesting = .opens ∧
            countNesting .closes recent = countNesting .opens recent ∧ openCalls 0 recent = []) ∧
      (∀ target, here.next? = some (.table .call (target, ())) → pc + 3 < 0x10000 →
        (here.step.1 = .error (.callStackOverflow pc 256) ↔ opened.length = 256) ∧
        (opened.length < 256 → here.step.1 = .ok () ∧ here.step.2.machine.yielded = here.machine.yielded)) ∧
      ∃ last, last ≤ s.before.machine.options.instructionLimit.toNat ∧
        (s.before.sliceEnd s.thread).2 = s.after last := by
  intro here past opened pc
  refine ⟨s.depth_after count, s.balance_after count, here.machine.callStack.depth_le, fun next => ?_,
    fun target next fits => call_after next fits, World.runSlice_eq_afterSteps s.thread _ _⟩
  obtain ⟨underflow, returns⟩ := return_after next
  refine ⟨underflow, fun call earlier some => ?_⟩
  obtain ⟨well, runs, goes⟩ := returns call earlier some
  obtain ⟨recent, older, split, opens, balanced, closed, -⟩ := openCalls_split some
  have member : call ∈ past := by
    rw [split]
    exact List.mem_append_right _ List.mem_cons_self
  exact ⟨well, runs, goes, behind_of_past member opens, recent, older, split, opens, balanced, closed⟩

/-- A call stack that is full of what was left behind. -/
def stale (code : Code) : World Headless where
  machine :=
    { script := { code }, threads := .started
      callStack := { slots := .replicate callStackSize 0x1234, depth := callStackSize, depth_le := Nat.le_refl _ } }
  host := {}

/-- A slice that calls and returns, and one that returns without a call. -/
theorem call_discipline_stale :
    let calling : Slice Headless := ⟨0, stale #[0x04, 0, 4, 0x06, 0x05]⟩
    let returning : Slice Headless := ⟨0, stale #[0x05]⟩
    (calling.after 1).next? = some (.table .ret ()) ∧ (returning.after 0).next? = some (.table .ret ()) ∧
      (calling.after 1).machine.callStack.depth = 1 ∧ (calling.after 1).step.2.machine.script.pc = 3 ∧
      (returning.after 0).step.1 = .error (.callStackUnderflow (returning.after 0).machine.script.pc) := by
  intro calling returning
  have facts : (calling.after 1).next? = some (.table .ret ()) ∧ (returning.after 0).next? = some (.table .ret ()) ∧
      openCalls 0 (calling.past 1) = [⟨0, .table .call ((4 : UInt16), ()), 3⟩] := by
    decide +kernel
  obtain ⟨next, next', opened⟩ := facts
  obtain ⟨depth, -, -, returns, -⟩ := call_discipline calling 1
  obtain ⟨-, -, -, returns', -⟩ := call_discipline returning 0
  obtain ⟨-, -, goes, -⟩ := (returns next).2 _ _ opened
  rw [opened] at depth
  exact ⟨next, next', depth, goes, (returns' next').1.mpr rfl⟩

end Slice

end Framescript
