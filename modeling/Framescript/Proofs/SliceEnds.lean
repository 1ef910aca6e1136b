import Framescript.Proofs.CallDiscipline
import Framescript.Proofs.ScriptFaults

/-!
How slices end. A slice runs on until an instruction yields or fails, or until as many instructions as the limit
allows have run on (`runSlice_ends`). The instructions that yield are a pause, which stops right behind itself, and
the end of the thread (`step_yields_iff`).
-/
namespace Framescript

/-- A pause takes one byte. -/
theorem Instr.pc_of_read_pause {how : CoordinateRead} {s s' : Script} {operands : Operands Opcode.pause.operands}
    (read : Instr.read how s = .ok (.table .pause operands, s')) : s'.pc = s.pc + 1 := by
  obtain ⟨opcode, behind, lead, first, meaning, read⟩ := Instr.of_read read
  have isPause : lead = .table .pause := (Instr.lead_of_readAfter read).symm
  subst isPause
  cases read
  exact Script.pc_of_byte first

theorem Instr.eq_of_endsSlice {instr : Instr} (ends : instr.endsSlice = true) :
    instr = .table .pause () ∨ instr = .table .kill () := by
  cases instr with
  | table op operands =>
    cases op with
    | pause => exact .inl rfl
    | kill => exact .inr rfl
    | _ => cases ends
  | background halved x y => cases ends
  | sprite halved x y zoom => cases ends

namespace World

variable {H : Type} [Host H]

/-- Whether the next instruction goes well and the slice goes on. -/
def GoesOn (w : World H) : Prop :=
  w.step.1 = .ok () ∧ w.step.2.machine.yielded = false

/-- Whether the next instruction goes well and ends the slice. -/
def Yields (w : World H) : Prop :=
  w.step.1 = .ok () ∧ w.step.2.machine.yielded = true

instance (w : World H) : Decidable w.GoesOn :=
  inferInstanceAs (Decidable (_ ∧ _))

instance (w : World H) : Decidable w.Yields :=
  inferInstanceAs (Decidable (_ ∧ _))

theorem Yields.not_goesOn {w : World H} (yields : w.Yields) : ¬ w.GoesOn :=
  fun goesOn => Bool.false_ne_true (goesOn.2.symm.trans yields.2)

theorem not_goesOn_of_error {w : World H} {fault : Fault} (failed : w.step.1 = .error fault) : ¬ w.GoesOn := by
  intro goesOn
  cases goesOn.1.symm.trans failed

/-- Whether so many instructions go well in a row, and none of them yields. -/
def RunsOn (w : World H) (count : Nat) : Prop :=
  ∀ earlier < count, (afterSteps earlier w).GoesOn

theorem RunsOn.cons {w : World H} {count : Nat} (first : w.GoesOn) (others : w.step.2.RunsOn count) :
    w.RunsOn (count + 1) := by
  intro earlier within
  cases earlier with
  | zero => exact first
  | succ earlier => exact others earlier (Nat.lt_of_succ_lt_succ within)

/-- There is one first instruction that does not run on. -/
theorem RunsOn.last_unique {w : World H} {last other : Nat} (earlier : w.RunsOn last)
    (stops : ¬ (afterSteps last w).GoesOn) (earlier' : w.RunsOn other) (stops' : ¬ (afterSteps other w).GoesOn) :
    last = other := by
  rcases Nat.lt_trichotomy last other with less | same | more
  · exact absurd (earlier' last less) stops
  · exact same
  · exact absurd (earlier other more) stops'

/-- As long as instructions run on, the slice has not ended. -/
theorem RunsOn.running {w : World H} {count : Nat} (begins : w.machine.yielded = false) (runsOn : w.RunsOn count) :
    (afterSteps count w).machine.yielded = false := by
  cases count with
  | zero => exact begins
  | succ count =>
    rw [afterSteps_succ]
    exact (runsOn count (Nat.lt_succ_self count)).2

/-- The ways in which `fuel` instructions from a world on come to an end: after so many of them, and with a result. -/
inductive Ends (thread : Fin threadCount) (fuel : Nat) (w : World H) : Nat → Except Fault Unit → Prop where
  | yielded {last : Nat} (within : last < fuel) (earlier : w.RunsOn last)
      (yields : (afterSteps last w).Yields) : Ends thread fuel w (last + 1) (.ok ())
  | failed {last : Nat} {fault : Fault} (within : last < fuel) (earlier : w.RunsOn last)
      (fails : (afterSteps last w).step.1 = .error fault) : Ends thread fuel w (last + 1) (.error fault)
  | exhausted (all : w.RunsOn fuel) :
      Ends thread fuel w fuel (.error (.limitExceeded thread.val w.machine.options.instructionLimit))

namespace Ends

variable {thread : Fin threadCount} {fuel count : Nat} {w : World H} {result : Except Fault Unit}

/-- An instruction in front that runs on changes nothing about the end. -/
theorem cons (first : w.GoesOn) (ends : w.step.2.Ends thread fuel count result) :
    w.Ends thread (fuel + 1) (count + 1) result := by
  cases ends with
  | yielded within earlier yields => exact .yielded (Nat.succ_lt_succ within) (.cons first earlier) yields
  | failed within earlier fails => exact .failed (Nat.succ_lt_succ within) (.cons first earlier) fails
  | exhausted all =>
    -- the limit that is named is the one of the world at the start
    rw [(step_keeps w).options]
    exact .exhausted (.cons first all)

theorem count_le (ends : w.Ends thread fuel count result) : count ≤ fuel := by
  cases ends with
  | yielded within | failed within => exact within
  | exhausted => exact Nat.le_refl fuel

/-- If all runs on for as long as it may, the limit is what ends it. -/
theorem of_runsOn (ends : w.Ends thread fuel count result) (all : w.RunsOn fuel) :
    result = .error (.limitExceeded thread.val w.machine.options.instructionLimit) := by
  cases ends with
  | yielded within _ yields => exact absurd (all _ within) yields.not_goesOn
  | failed within _ fails => exact absurd (all _ within) (not_goesOn_of_error fails)
  | exhausted => rfl

/-- No instruction fails for the limit. -/
theorem of_limitExceeded {number : Nat} {limit : UInt64}
    (ends : w.Ends thread fuel count (.error (.limitExceeded number limit))) :
    w.RunsOn fuel ∧ number = thread.val ∧ limit = w.machine.options.instructionLimit := by
  cases ends with
  | failed _ _ fails => cases step_ofStep fails
  | exhausted all => exact ⟨all, rfl, rfl⟩

/-- What yields within the limit ends the slice well, also as the last instruction that the limit allows. -/
theorem of_yields {last : Nat} (ends : w.Ends thread fuel count result) (within : last < fuel) (earlier : w.RunsOn last)
    (yields : (afterSteps last w).Yields) : result = .ok () := by
  cases ends with
  | yielded => rfl
  | failed _ earlier' fails =>
    cases earlier.last_unique yields.not_goesOn earlier' (not_goesOn_of_error fails)
    cases fails.symm.trans yields.1
  | exhausted all => exact absurd (all last within) yields.not_goesOn

end Ends

/-- A slice that has not yielded ends in one of the three ways. -/
theorem runSlice_ends (thread : Fin threadCount) (fuel : Nat) {w : World H} (running : w.machine.yielded = false) :
    ∃ count, (runSlice thread fuel w).2 = afterSteps count w ∧
      w.Ends thread fuel count (runSlice thread fuel w).1 := by
  induction fuel generalizing w with
  | zero =>
    rw [runSlice_zero thread running]
    exact ⟨0, rfl, .exhausted fun _ within => absurd within (Nat.not_lt_zero _)⟩
  | succ fuel ih =>
    have none : w.RunsOn 0 := fun _ within => absurd within (Nat.not_lt_zero _)
    rw [runSlice_succ thread fuel running]
    rcases stepped : w.step with ⟨fault | _, after⟩
    · exact ⟨1, by rw [afterSteps, afterSteps, stepped],
        .failed (Nat.succ_pos fuel) none (congrArg Prod.fst stepped)⟩
    · cases flag : after.machine.yielded with
      | true =>
        have yields : w.Yields := by
          rw [Yields, stepped]
          exact ⟨rfl, flag⟩
        simp only [runSlice_of_yielded thread fuel flag]
        exact ⟨1, by rw [afterSteps, afterSteps, stepped], .yielded (Nat.succ_pos fuel) none yields⟩
      | false =>
        have goesOn : w.GoesOn := by
          rw [GoesOn, stepped]
          exact ⟨rfl, flag⟩
        obtain ⟨count, same, ends⟩ := ih flag
        refine ⟨count + 1, by rw [afterSteps, stepped, same], .cons goesOn ?_⟩
        rw [stepped]
        exact ends

theorem runThread_of_failed {w after : World H} {thread : Fin threadCount} {fault : Fault}
    (room : w.machine.profile.slices ≠ 0xFFFFFFFFFFFFFFFF) (ended : w.sliceEnd thread = (.error fault, after)) :
    w.runThread thread = (.error fault, after) := by
  rw [runThread_eq, if_neg room, ended]

theorem runThread_of_ended {w after : World H} {thread : Fin threadCount}
    (room : w.machine.profile.slices ≠ 0xFFFFFFFFFFFFFFFF) (ended : w.sliceEnd thread = (.ok (), after)) :
    w.runThread thread = after.endSlice thread := by
  rw [runThread_eq, if_neg room, ended]

/-- A slice that goes well could be counted. -/
theorem room_of_ok {w : World H} {thread : Fin threadCount} (well : (w.runThread thread).1 = .ok ()) :
    w.machine.profile.slices ≠ 0xFFFFFFFFFFFFFFFF := by
  intro full
  rw [runThread_eq, if_pos full] at well
  cases well

theorem sliceEnd_ends (w : World H) (thread : Fin threadCount) :
    ∃ count, (w.sliceEnd thread).2 = Slice.after ⟨thread, w⟩ count ∧
      (w.beginSlice thread).Ends thread w.machine.options.instructionLimit.toNat count (w.sliceEnd thread).1 :=
  runSlice_ends thread w.machine.options.instructionLimit.toNat rfl

/-- The instructions of a slice. -/
def sliceInstrs (fuel : Nat) (w : World H) : List Instr :=
  instrs (sliceMoments fuel w)

theorem sliceInstrs_succ {fuel : Nat} {w : World H} (running : w.machine.yielded = false) (well : w.step.1 = .ok ()) :
    (sliceInstrs (fuel + 1) w).map some = w.next? :: (sliceInstrs fuel w.step.2).map some := by
  obtain ⟨instr, script, read⟩ := read_of_ok well
  have first : sliceMoments (fuel + 1) w = [w] ++ sliceMoments fuel w.step.2 := by
    rw [sliceMoments, if_neg (Bool.eq_false_iff.mp running)]
    rcases stepped : w.step with ⟨result, after⟩
    rw [stepped] at well
    cases well
    rfl
  rw [sliceInstrs, first, instrs_append, instrs_of_ok well, next_of_read read]
  rfl

theorem sliceInstrs_of_yielded {fuel : Nat} {w : World H} (yielded : w.machine.yielded = true) :
    sliceInstrs fuel w = [] := by
  cases fuel with
  | zero => rfl
  | succ fuel =>
    rw [sliceInstrs, sliceMoments, if_pos yielded]
    rfl

/-- The instructions of a slice that ends well are those at which it stood, one after the other. -/
theorem Ends.instrs {thread : Fin threadCount} {fuel count : Nat} {w : World H} (running : w.machine.yielded = false)
    (ends : w.Ends thread fuel count (.ok ())) :
    (sliceInstrs fuel w).map some = (List.range count).map fun earlier => (afterSteps earlier w).next? := by
  cases ends with
  | @yielded last within earlier yields =>
    induction last generalizing fuel w with
    | zero =>
      obtain ⟨fuel, rfl⟩ := Nat.exists_eq_succ_of_ne_zero (Nat.ne_of_gt within)
      have last : w.Yields := yields
      rw [sliceInstrs_succ running last.1, sliceInstrs_of_yielded last.2]
      rfl
    | succ last ih =>
      obtain ⟨fuel, rfl⟩ := Nat.exists_eq_succ_of_ne_zero (Nat.ne_of_gt (Nat.zero_lt_of_lt within))
      have first : w.GoesOn := earlier 0 (Nat.succ_pos last)
      have others := ih first.2 (Nat.lt_of_succ_lt_succ within)
        (fun index inside => earlier (index + 1) (Nat.succ_lt_succ inside)) yields
      rw [sliceInstrs_succ running first.1, others, List.range_succ_eq_map (n := last + 1), List.map_cons,
        List.map_map]
      rfl

/-! ### Yielding -/

/-- A pause yields right behind itself. -/
theorem step_of_pause {w : World H} (next : w.next? = some (.table .pause ())) :
    w.Yields ∧ w.step.2.machine.script.pc = w.machine.script.pc + 1 := by
  obtain ⟨script, read⟩ := read_of_next next
  rw [Yields, step_of_read read]
  exact ⟨⟨rfl, rfl⟩, Instr.pc_of_read_pause read⟩

/-- The end of a thread yields at the offset that says so. -/
theorem step_of_kill {w : World H} (next : w.next? = some (.table .kill ())) :
    w.Yields ∧ w.step.2.machine.script.pc = ThreadTable.inactive.toNat := by
  obtain ⟨script, read⟩ := read_of_next next
  rw [Yields, step_of_read read]
  exact ⟨⟨rfl, rfl⟩, rfl⟩

/-- In a slice that goes on, nothing yields but a pause and the end of a thread. -/
theorem step_yields_iff {w : World H} (running : w.machine.yielded = false) :
    w.Yields ↔ w.next? = some (.table .pause ()) ∨ w.next? = some (.table .kill ()) := by
  constructor
  · intro ⟨well, yielded⟩
    obtain ⟨instr, script, read⟩ := read_of_ok well
    have flag := (execute_consumes (w.fetched instr script) w.machine.script.pc instr).yielded
    rw [← step_of_read read, yielded, show (w.fetched instr script).machine.yielded = false from running,
      Bool.false_or] at flag
    rw [next_of_read read]
    exact (Instr.eq_of_endsSlice flag.symm).imp (congrArg some) (congrArg some)
  · rintro (next | next)
    · exact (step_of_pause next).1
    · exact (step_of_kill next).1

end World

end Framescript
