import Framescript.Proofs.Boundaries
import Mathlib.Data.List.FinRange

/-!
The record of a run. Which threads get a slice is settled when the run begins: each thread that is runnable then gets
one, the lowest first (`runThreads_order`), since nothing that a slice does reaches the paused flags or the offset of
another thread. The slices are on record with the worlds in which they began (`giveSlices`), and so are the moments of
each slice, the worlds in which an instruction is begun, and with them the instructions. What holds between a world and
what one instruction makes of it, and adds up along moments, holds between a world and what the whole run makes of it
(`Traced.loop`).
-/
namespace Framescript

namespace ThreadTable

/-- The threads that are runnable, the lowest first. -/
def runnable (t : ThreadTable) : List (Fin threadCount) :=
  order.filter t.isRunnable

theorem runnable_ascending (t : ThreadTable) : t.runnable.Pairwise (· < ·) :=
  (List.pairwise_lt_finRange threadCount).filter _

theorem mem_runnable {t : ThreadTable} {thread : Fin threadCount} :
    thread ∈ t.runnable ↔ t.isRunnable thread = true := by
  simp [runnable, order]

end ThreadTable

/-- An instruction that was executed: where it stands, and the offset right behind it. -/
structure Executed where
  origin : Nat
  instr : Instr
  behind : Nat
  deriving DecidableEq

namespace World

variable {H : Type}

/-- The instruction at which a machine stands. -/
def next? (w : World H) : Option Instr :=
  (Instr.read .twoBytes w.machine.script).toOption.map Prod.fst

theorem next_of_read {w : World H} {instr : Instr} {script : Script}
    (read : Instr.read .twoBytes w.machine.script = .ok (instr, script)) : w.next? = some instr := by
  rw [next?, read]
  rfl

theorem read_of_next {w : World H} {instr : Instr} (next : w.next? = some instr) :
    ∃ script, Instr.read .twoBytes w.machine.script = .ok (instr, script) := by
  rcases read : Instr.read .twoBytes w.machine.script with fault | ⟨found, script⟩
  · rw [next?, read] at next
    cases next
  · rw [next_of_read read] at next
    cases next
    exact ⟨script, rfl⟩

variable [Host H]

/-- An instruction that goes well was read first. -/
theorem read_of_ok {w : World H} (well : w.step.1 = .ok ()) :
    ∃ instr script, Instr.read .twoBytes w.machine.script = .ok (instr, script) := by
  rcases read : Instr.read .twoBytes w.machine.script with fault | ⟨instr, script⟩
  · rw [step_of_unread read] at well
    cases well
  · exact ⟨instr, script, rfl⟩

/-- The instruction that a step executes, if it goes well. -/
def executed? (w : World H) : Option Executed :=
  match Instr.read .twoBytes w.machine.script, w.step.1 with
  | .ok (instr, after), .ok () => some ⟨w.machine.script.pc, instr, after.pc⟩
  | _, _ => none

theorem executed_of_read {w : World H} {instr : Instr} {script : Script}
    (read : Instr.read .twoBytes w.machine.script = .ok (instr, script)) (well : w.step.1 = .ok ()) :
    w.executed? = some ⟨w.machine.script.pc, instr, script.pc⟩ := by
  rw [executed?, read, well]

theorem executed_of_error {w : World H} {fault : Fault} (failed : w.step.1 = .error fault) : w.executed? = none := by
  unfold executed?
  rw [failed]
  cases Instr.read .twoBytes w.machine.script <;> rfl

/-- The instructions that are executed in some worlds and go well. -/
def instrs (moments : List (World H)) : List Instr :=
  moments.filterMap fun w => w.executed?.map Executed.instr

theorem instrs_append (first second : List (World H)) : instrs (first ++ second) = instrs first ++ instrs second :=
  List.filterMap_append

theorem instrs_of_ok {w : World H} (well : w.step.1 = .ok ()) : instrs [w] = w.next?.toList := by
  obtain ⟨instr, script, read⟩ := read_of_ok well
  rw [instrs, List.filterMap_cons, executed_of_read read well, next_of_read read]
  rfl

theorem instrs_of_error {w : World H} {fault : Fault} (failed : w.step.1 = .error fault) : instrs [w] = [] := by
  rw [instrs, List.filterMap_cons, executed_of_error failed]
  rfl

/-- The worlds in which the instructions of a slice are begun, in order. -/
def sliceMoments : Nat → World H → List (World H)
  | 0, _ => []
  | fuel + 1, w =>
    if w.machine.yielded then []
    else
      w ::
        match w.step with
        | (.error _, _) => []
        | (.ok (), after) => sliceMoments fuel after

end World

/-- A slice that was given: the thread, and the world when its turn came. -/
structure Slice (H : Type) where
  thread : Fin threadCount
  before : World H

namespace Slice

variable {H : Type} [Host H]

/-- The world in the course of a slice, after some of its instructions. -/
def after (s : Slice H) (count : Nat) : World H :=
  World.afterSteps count (s.before.beginSlice s.thread)

/-- What came of a slice. -/
def outcome (s : Slice H) : Except Fault Unit × World H :=
  s.before.runThread s.thread

/-- The worlds in which the instructions of a slice are begun. There are none if the slice cannot be counted. -/
def moments (s : Slice H) : List (World H) :=
  if s.before.machine.profile.slices = 0xFFFFFFFFFFFFFFFF then []
  else World.sliceMoments s.before.machine.options.instructionLimit.toNat (s.before.beginSlice s.thread)

end Slice

namespace World

variable {H : Type} [Host H]

/-- One slice for each thread of a list, whether it is runnable or not, with a record of the slices. -/
def giveSlices : List (Fin threadCount) → World H → List (Slice H) × Except Fault Unit × World H
  | [], w => ([], .ok (), w)
  | thread :: threads, w =>
    match w.runThread thread with
    | (.error fault, after) => ([⟨thread, w⟩], .error fault, after)
    | (.ok (), after) => (⟨thread, w⟩ :: (giveSlices threads after).1, (giveSlices threads after).2)

/-- A slice leaves all other threads as runnable as they were. -/
theorem isRunnable_runThread (w : World H) {thread other : Fin threadCount} (different : other ≠ thread) :
    (w.runThread thread).2.machine.threads.isRunnable other = w.machine.threads.isRunnable other := by
  have keeps := w.runThread_keeps thread
  rw [ThreadTable.isRunnable, ThreadTable.isPaused, keeps.paused, keeps.pc other different]
  rfl

/-- Which threads of a list get a slice is settled before the first of them runs. -/
theorem runThreads_eq_giveSlices (threads : List (Fin threadCount)) (distinct : threads.Nodup) (w : World H) :
    runThreads threads w = (giveSlices (threads.filter w.machine.threads.isRunnable) w).2 := by
  induction threads generalizing w with
  | nil => rfl
  | cons thread threads ih =>
    obtain ⟨absent, distinct⟩ := List.nodup_cons.mp distinct
    by_cases runnable : w.machine.threads.isRunnable thread = true
    · rw [runThreads, if_pos runnable, List.filter_cons_of_pos runnable, giveSlices]
      have others : threads.filter (w.runThread thread).2.machine.threads.isRunnable =
          threads.filter w.machine.threads.isRunnable :=
        List.filter_congr fun other member => w.isRunnable_runThread (fun same => absent (same ▸ member))
      cases ran : w.runThread thread with
      | mk result after =>
        rw [ran] at others
        cases result with
        | error fault => rfl
        | ok _ => simp only [ih distinct after, others]
    · rw [runThreads, if_neg runnable, List.filter_cons_of_neg runnable, ih distinct w]

/-- The first slice fails and is the last one, or the others follow it. -/
theorem giveSlices_cons (thread : Fin threadCount) (threads : List (Fin threadCount)) (w : World H) :
    (∃ fault after, w.runThread thread = (.error fault, after) ∧
      giveSlices (thread :: threads) w = ([⟨thread, w⟩], .error fault, after)) ∨
    ∃ after, w.runThread thread = (.ok (), after) ∧
      giveSlices (thread :: threads) w =
        (⟨thread, w⟩ :: (giveSlices threads after).1, (giveSlices threads after).2) := by
  cases ran : w.runThread thread with
  | mk result after =>
    cases result with
    | error fault => exact .inl ⟨fault, after, rfl, by rw [giveSlices, ran]⟩
    | ok _ => exact .inr ⟨after, rfl, by rw [giveSlices, ran]⟩

/-- The loop over all threads gives a slice to each thread that is runnable when it begins. -/
theorem runThreads_order (w : World H) :
    runThreads ThreadTable.order w = (giveSlices w.machine.threads.runnable w).2 :=
  runThreads_eq_giveSlices ThreadTable.order (List.nodup_finRange threadCount) w

/-- The worlds in which the instructions of the loop over all threads are begun, in order. -/
def moments (w : World H) : List (World H) :=
  (giveSlices w.machine.threads.runnable w).1.flatMap Slice.moments

/-- The slices of a run phase. -/
def phaseSlices (w : World H) : List (Slice H) :=
  if w.machine.aborted then []
  else (giveSlices w.machine.threads.runnable (w.mapMachine fun m => { m with profile := {} })).1

/-- The instructions of a run phase, in the order in which they are executed. -/
def frameInstrs (w : World H) : List Instr :=
  instrs (w.mapMachine fun m => { m with profile := {} }).moments

/-- A relation between worlds, the moments between them and the result of these, which holds for single instructions and
    for what stands around slices, and adds up. -/
structure Traced (related : Except Fault Unit → List (World H) → World H → World H → Prop) : Prop where
  rests : ∀ result w, related result [] w w
  ran : ∀ {w : World H}, w.step.1 = .ok () → related (.ok ()) [w] w w.step.2
  failed : ∀ {w : World H} {fault : Fault}, w.step.1 = .error fault → related (.error fault) [w] w w.step.2
  turned : ∀ (w : World H) thread, related (.error .overflow) [] w (w.turnTo thread)
  begun : ∀ (w : World H) thread, related (.ok ()) [] w (w.beginSlice thread)
  stored : ∀ (w : World H) thread pc,
    related (.ok ()) [] w (w.mapMachine fun m => { m with threads := m.threads.setPc thread pc })
  append : ∀ {first second : List (World H)} {result : Except Fault Unit} {a b c : World H},
    related (.ok ()) first a b → related result second b c → related result (first ++ second) a c

namespace Traced

variable {related : Except Fault Unit → List (World H) → World H → World H → Prop} (traced : Traced related)

include traced

theorem slice (thread : Fin threadCount) (fuel : Nat) (w : World H) :
    related (runSlice thread fuel w).1 (sliceMoments fuel w) w (runSlice thread fuel w).2 := by
  induction fuel generalizing w with
  | zero =>
    cases running : w.machine.yielded with
    | true =>
      rw [runSlice_of_yielded thread 0 running]
      exact traced.rests _ w
    | false =>
      rw [runSlice_zero thread running]
      exact traced.rests _ w
  | succ fuel ih =>
    rw [sliceMoments]
    cases running : w.machine.yielded with
    | true =>
      rw [runSlice_of_yielded thread (fuel + 1) running]
      exact traced.rests _ w
    | false =>
      have ran (goes : w.step.1 = .ok ()) := traced.ran goes
      have failed {fault : Fault} (fails : w.step.1 = .error fault) := traced.failed fails
      rw [runSlice_succ thread fuel running]
      rcases stepped : w.step with ⟨fault | _, after⟩
      · rw [stepped] at failed
        exact failed rfl
      · rw [stepped] at ran
        exact traced.append (ran rfl) (ih after)

theorem turn (w : World H) (thread : Fin threadCount) :
    related (w.runThread thread).1 (Slice.moments ⟨thread, w⟩) w (w.runThread thread).2 := by
  rw [runThread_eq, Slice.moments]
  by_cases full : w.machine.profile.slices = 0xFFFFFFFFFFFFFFFF
  · rw [if_pos full, if_pos full]
    exact traced.turned w thread
  · rw [if_neg full, if_neg full]
    have ran := traced.append (traced.begun w thread)
      (traced.slice thread w.machine.options.instructionLimit.toNat (w.beginSlice thread))
    rw [List.nil_append] at ran
    rcases ended : w.sliceEnd thread with ⟨fault | _, after⟩
    · rw [← sliceEnd, ended] at ran
      exact ran
    · rw [← sliceEnd, ended] at ran
      -- storing the offset is one more piece, without a moment of its own
      rw [← List.append_nil (sliceMoments _ _)]
      simp only [endSlice]
      rcases after.machine.script.offset16 with fault | pc
      · exact traced.append ran (traced.rests _ after)
      · exact traced.append ran (traced.stored after thread pc)

/-- What every instruction does, the slices of a list of threads do. -/
theorem turns (threads : List (Fin threadCount)) (w : World H) :
    related (giveSlices threads w).2.1 ((giveSlices threads w).1.flatMap Slice.moments) w (giveSlices threads w).2.2 := by
  induction threads generalizing w with
  | nil => exact traced.rests _ w
  | cons thread threads ih =>
    have turn := traced.turn w thread
    obtain ⟨fault, after, ran, given⟩ | ⟨after, ran, given⟩ := giveSlices_cons thread threads w
    · rw [given, List.flatMap_singleton]
      rw [ran] at turn
      exact turn
    · rw [given, List.flatMap_cons]
      rw [ran] at turn
      exact traced.append turn (ih after)

/-- What every instruction does, the loop over all threads does. -/
theorem loop (w : World H) :
    related (runThreads ThreadTable.order w).1 w.moments w (runThreads ThreadTable.order w).2 := by
  rw [runThreads_order]
  exact traced.turns w.machine.threads.runnable w

end Traced

end World

end Framescript
