import Framescript.Proofs.SliceEnds
import Framescript.Proofs.Tally

/-!
The limit of a slice. It stops a slice exactly if as many instructions as it allows have all run on, it bounds what a
run phase can count, and where it stops no slice nothing depends on it: instructions do not see it
(`step_withLimit`), so with any higher one the run phase is the same (`runPhase_withLimit`).
-/
namespace Framescript

namespace World

variable {H : Type}

/-- The world with another limit for its slices. -/
def withLimit (w : World H) (limit : UInt64) : World H :=
  w.mapMachine fun m => { m with options.instructionLimit := limit }

variable (w : World H) (limit : UInt64)

/-- Where both ways to go on commute with a limit and the choice does not depend on it, all does. -/
theorem ite_withLimit {limit : UInt64} {p q : Prop} [Decidable p] [Decidable q] {a b v u : World H} (same : p ↔ q)
    (first : a = v.withLimit limit) (second : b = u.withLimit limit) :
    (if p then a else b) = (if q then v else u).withLimit limit := by
  by_cases holds : q
  · rw [if_pos holds, if_pos (same.mpr holds), first]
  · rw [if_neg holds, if_neg (mt same.mp holds), second]

theorem jumpIf_withLimit (origin : Nat) (c : Condition) :
    (w.withLimit limit).jumpIf origin c = (w.jumpIf origin c).withLimit limit := by
  have warns : (w.withLimit limit).warned origin c.comparison = (w.warned origin c.comparison).withLimit limit := by
    cases c.comparison <;> rfl
  unfold jumpIf
  rw [warns]
  exact ite_withLimit Iff.rfl rfl rfl

theorem handleKeys_withLimit : (w.withLimit limit).handleKeys = w.handleKeys.withLimit limit := by
  have noted : (if (w.withLimit limit).machine.keys.pause = true then
        (w.withLimit limit).say .debug "Pause key acknowledged" else w.withLimit limit) =
      (if w.machine.keys.pause = true then w.say .debug "Pause key acknowledged" else w).withLimit limit :=
    ite_withLimit Iff.rfl rfl rfl
  have requested (v : World H) : (if ((v.withLimit limit).machine.keys.code &&
          (v.withLimit limit).machine.currentPart ≠ some Part.first &&
          (v.withLimit limit).machine.currentPart ≠ some Part.last) = true then
        ((v.withLimit limit).mapMachine fun m => { m with keys := {} }).mapMachine (·.requestPart Part.last)
        else (v.withLimit limit).mapMachine fun m => { m with keys := {} }) =
      (if (v.machine.keys.code && v.machine.currentPart ≠ some Part.first &&
          v.machine.currentPart ≠ some Part.last) = true then
        (v.mapMachine fun m => { m with keys := {} }).mapMachine (·.requestPart Part.last)
        else v.mapMachine fun m => { m with keys := {} }).withLimit limit :=
    ite_withLimit Iff.rfl rfl rfl
  simp only [handleKeys, noted, requested]
  exact ite_withLimit Iff.rfl rfl rfl

theorem resetThreads_withLimit (origin : Nat) (r : ThreadRange) :
    (w.withLimit limit).resetThreads origin r = (w.resetThreads origin r).withLimit limit :=
  ite_withLimit Iff.rfl rfl (ite_withLimit Iff.rfl rfl (ite_withLimit Iff.rfl rfl rfl))

theorem enter_withLimit (origin : Nat) (target : UInt16) :
    (w.withLimit limit).enter origin target = (w.enter origin target).map id (·.withLimit limit) := by
  have script : (w.withLimit limit).machine.script = w.machine.script := rfl
  have callStack : (w.withLimit limit).machine.callStack = w.machine.callStack := rfl
  simp only [enter, script, callStack]
  rcases w.machine.script.offset16 with _ | offset
  · rfl
  · dsimp only
    rcases w.machine.callStack.push offset origin with _ | _ <;> rfl

theorem leave_withLimit (origin : Nat) :
    (w.withLimit limit).leave origin = (w.leave origin).map id (·.withLimit limit) := by
  have callStack : (w.withLimit limit).machine.callStack = w.machine.callStack := rfl
  simp only [leave, callStack]
  rcases w.machine.callStack.pop origin with _ | _ <;> rfl

theorem setVector_withLimit (thread : UInt8) (target : UInt16) :
    (w.withLimit limit).setVector thread target = (w.setVector thread target).map id (·.withLimit limit) := by
  have threads : (w.withLimit limit).machine.threads = w.machine.threads := rfl
  simp only [setVector, threads]
  rcases w.machine.threads.requestPc thread target with _ | _ <;> rfl

variable [Host H]

theorem pace_withLimit : (w.withLimit limit).pace = w.pace.withLimit limit :=
  ite_withLimit Iff.rfl rfl rfl

theorem blit_withLimit (page : UInt8) : (w.withLimit limit).blit page = (w.blit page).withLimit limit := by
  have paced (v : World H) : (if (v.withLimit limit).machine.options.pacing = true then (v.withLimit limit).pace
      else v.withLimit limit) = (if v.machine.options.pacing = true then v.pace else v).withLimit limit :=
    ite_withLimit Iff.rfl (pace_withLimit v limit) rfl
  simp only [blit, handleKeys_withLimit, paced]
  exact ite_withLimit Iff.rfl rfl rfl

theorem loadResource_withLimit (resource : UInt16) :
    (w.withLimit limit).loadResource resource = (w.loadResource resource).withLimit limit :=
  ite_withLimit Iff.rfl rfl (ite_withLimit Iff.rfl rfl rfl)

theorem drawBackground_withLimit (halved : UInt16) (x y : Int16) :
    (w.withLimit limit).drawBackground halved x y = (w.drawBackground halved x y).withLimit limit :=
  ite_withLimit Iff.rfl rfl rfl

theorem executeTable_withLimit (origin : Nat) (op : Opcode) (operands : Operands op.operands) :
    (w.withLimit limit).executeTable origin op operands =
      (w.executeTable origin op operands).map id (·.withLimit limit) := by
  cases op with
  | call => exact enter_withLimit w limit origin operands.1
  | ret => exact leave_withLimit w limit origin
  | setVec => exact setVector_withLimit w limit operands.1 operands.2.1
  | djnz => exact congrArg (Prod.mk _) (ite_withLimit Iff.rfl rfl rfl)
  | jmpIf => exact congrArg (Prod.mk _) (jumpIf_withLimit w limit origin operands.1)
  | resetThreads => exact congrArg (Prod.mk _) (resetThreads_withLimit w limit origin operands.1)
  | blit => exact congrArg (Prod.mk _) (blit_withLimit w limit operands.1)
  | loadResource => exact congrArg (Prod.mk _) (loadResource_withLimit w limit operands.1)
  | _ => rfl

theorem execute_withLimit (origin : Nat) (instr : Instr) :
    (w.withLimit limit).execute origin instr = (w.execute origin instr).map id (·.withLimit limit) := by
  cases instr with
  | table op operands => exact executeTable_withLimit w limit origin op operands
  | background halved x y => exact congrArg (Prod.mk _) (drawBackground_withLimit w limit halved (widen x) (widen y))
  | sprite halved x y zoom => rfl

/-- No instruction sees the limit. -/
theorem step_withLimit : (w.withLimit limit).step = w.step.map id (·.withLimit limit) := by
  have script : (w.withLimit limit).machine.script = w.machine.script := rfl
  rw [step_eq, step_eq, script]
  rcases Instr.read .twoBytes w.machine.script with fault | ⟨instr, after⟩
  · rfl
  · exact execute_withLimit (w.fetched instr after) limit w.machine.script.pc instr

/-! ### Higher limits -/

/-- Whether a result says that a limit was exceeded. -/
def exceeds : Except Fault Unit → Bool
  | .error (.limitExceeded ..) => true
  | _ => false

variable {w limit}

/-- A slice that its limit does not stop is the same with more to go. -/
theorem runSlice_withLimit {thread : Fin threadCount} {fuel more : Nat} (enough : fuel ≤ more)
    (within : exceeds (runSlice thread fuel w).1 = false) :
    runSlice thread more (w.withLimit limit) = (runSlice thread fuel w).map id (·.withLimit limit) := by
  induction fuel generalizing w more with
  | zero =>
    cases running : w.machine.yielded with
    | true =>
      have running' : (w.withLimit limit).machine.yielded = true := running
      rw [runSlice_of_yielded thread 0 running, runSlice_of_yielded thread more running']
      rfl
    | false =>
      rw [runSlice_zero thread running] at within
      cases within
  | succ fuel ih =>
    obtain ⟨more, rfl⟩ := Nat.exists_eq_add_of_le' (Nat.le_trans (Nat.le_add_left 1 fuel) enough)
    cases running : w.machine.yielded with
    | true =>
      have running' : (w.withLimit limit).machine.yielded = true := running
      rw [runSlice_of_yielded thread _ running, runSlice_of_yielded thread _ running']
      rfl
    | false =>
      have running' : (w.withLimit limit).machine.yielded = false := running
      rw [runSlice_succ thread fuel running] at within ⊢
      rw [runSlice_succ thread more running', step_withLimit]
      rcases stepped : w.step with ⟨fault | _, after⟩
      · rfl
      · rw [stepped] at within
        exact ih (Nat.le_of_succ_le_succ enough) within

theorem runThread_withLimit {thread : Fin threadCount} (higher : w.machine.options.instructionLimit ≤ limit)
    (within : exceeds (w.runThread thread).1 = false) :
    (w.withLimit limit).runThread thread = (w.runThread thread).map id (·.withLimit limit) := by
  have slice (within : exceeds (w.sliceEnd thread).1 = false) :
      (w.withLimit limit).sliceEnd thread = (w.sliceEnd thread).map id (·.withLimit limit) :=
    runSlice_withLimit (w := w.beginSlice thread) higher within
  by_cases full : w.machine.profile.slices = 0xFFFFFFFFFFFFFFFF
  · have full' : (w.withLimit limit).machine.profile.slices = 0xFFFFFFFFFFFFFFFF := full
    rw [runThread_eq, if_pos full', runThread_eq, if_pos full]
    rfl
  · have room : (w.withLimit limit).machine.profile.slices ≠ 0xFFFFFFFFFFFFFFFF := full
    rcases ended : w.sliceEnd thread with ⟨fault | _, after⟩
    · rw [ended] at slice
      rw [runThread_of_failed full ended] at within ⊢
      exact runThread_of_failed room (slice within)
    · rw [ended] at slice
      rw [runThread_of_ended full ended, runThread_of_ended room (slice rfl)]
      have script : (after.withLimit limit).machine.script = after.machine.script := rfl
      simp only [endSlice, script]
      rcases after.machine.script.offset16 with fault | pc <;> rfl

theorem runThreads_withLimit {threads : List (Fin threadCount)} (higher : w.machine.options.instructionLimit ≤ limit)
    (within : exceeds (runThreads threads w).1 = false) :
    runThreads threads (w.withLimit limit) = (runThreads threads w).map id (·.withLimit limit) := by
  induction threads generalizing w with
  | nil => rfl
  | cons thread threads ih =>
    have same : (w.withLimit limit).machine.threads = w.machine.threads := rfl
    have keeps := w.runThread_keeps thread
    have turn (within : exceeds (w.runThread thread).1 = false) := runThread_withLimit higher within
    simp only [runThreads, same] at within ⊢
    by_cases runnable : w.machine.threads.isRunnable thread = true
    · rw [if_pos runnable] at within ⊢
      rw [if_pos runnable]
      rcases ran : w.runThread thread with ⟨fault | _, after⟩
      · rw [ran] at turn within
        rw [turn within]
        rfl
      · rw [ran] at turn within keeps
        rw [turn rfl]
        -- the slice before left the limit as it was, so the other one is still higher
        refine ih ?_ within
        rw [keeps.options]
        exact higher
    · rw [if_neg runnable] at within ⊢
      rw [if_neg runnable]
      exact ih higher within

theorem runAll_withLimit (higher : w.machine.options.instructionLimit ≤ limit)
    (within : exceeds w.runAll.1 = false) :
    (w.withLimit limit).runAll = w.runAll.map id (·.withLimit limit) := by
  let cleared := w.mapMachine fun m => { m with profile := {} }
  have turns (within : exceeds (runThreads ThreadTable.order cleared).1 = false) :
      runThreads ThreadTable.order ((w.withLimit limit).mapMachine fun m => { m with profile := {} }) =
        (runThreads ThreadTable.order cleared).map id (·.withLimit limit) :=
    runThreads_withLimit (w := cleared) higher within
  unfold runAll at within ⊢
  rcases ran : runThreads ThreadTable.order cleared with ⟨fault | _, after⟩
  · rw [ran] at turns within
    rw [turns within]
    rfl
  · rw [ran] at turns
    rw [turns rfl]
    rfl

/-- A run phase in which no slice exceeds its limit is the same with a higher one. -/
theorem runPhase_withLimit (higher : w.machine.options.instructionLimit ≤ limit)
    (within : exceeds w.runPhase.1 = false) :
    (w.withLimit limit).runPhase = w.runPhase.map id (·.withLimit limit) := by
  by_cases stopped : w.machine.aborted = true
  · have stopped' : (w.withLimit limit).machine.aborted = true := stopped
    rw [runPhase, runPhase, guarded_of_aborted runAll stopped, guarded_of_aborted runAll stopped']
    rfl
  · have running : (w.withLimit limit).machine.aborted = false := Bool.eq_false_iff.mpr stopped
    rw [runPhase, (guarded_of_running runAll (Bool.eq_false_iff.mpr stopped)).1] at within
    simp only [runPhase, guarded, running, Bool.eq_false_iff.mpr stopped, runAll_withLimit higher within]
    rcases w.runAll with ⟨fault | _, after⟩
    · simp only [Prod.map, id_eq, Bool.false_eq_true, if_false]
      split <;> rfl
    · rfl

/-! ### The limit -/

variable (w)

/-- Storing the offset never fails for the limit, so a slice that can be counted does exactly if its instructions do. -/
theorem runThread_exceeds_iff (thread : Fin threadCount) (number : Nat) (bound : UInt64) :
    (w.runThread thread).1 = .error (.limitExceeded number bound) ↔
      w.machine.profile.slices ≠ 0xFFFFFFFFFFFFFFFF ∧ (w.sliceEnd thread).1 = .error (.limitExceeded number bound) := by
  by_cases full : w.machine.profile.slices = 0xFFFFFFFFFFFFFFFF
  · rw [runThread_eq, if_pos full]
    exact ⟨nofun, fun ⟨room, _⟩ => absurd full room⟩
  · rcases ended : w.sliceEnd thread with ⟨fault | _, after⟩
    · rw [runThread_of_failed full ended]
      exact ⟨fun exceeded => ⟨full, exceeded⟩, And.right⟩
    · rw [runThread_of_ended full ended]
      refine ⟨fun exceeded => ?_, fun ⟨_, exceeded⟩ => nomatch exceeded⟩
      simp only [endSlice, Script.offset16] at exceeded
      split at exceeded
      · rename_i offset
        split at offset <;> cases offset
        cases exceeded
      · cases exceeded

/-- A slice that can be counted fails for the limit exactly if as many instructions as it allows all run on. -/
theorem runThread_limit_iff (thread : Fin threadCount) :
    (w.runThread thread).1 = .error (.limitExceeded thread.val w.machine.options.instructionLimit) ↔
      w.machine.profile.slices ≠ 0xFFFFFFFFFFFFFFFF ∧
        (w.beginSlice thread).RunsOn w.machine.options.instructionLimit.toNat := by
  obtain ⟨count, -, ends⟩ := w.sliceEnd_ends thread
  rw [runThread_exceeds_iff]
  refine and_congr_right fun _ => ⟨fun exceeded => ?_, ends.of_runsOn⟩
  rw [exceeded] at ends
  exact ends.of_limitExceeded.1

/-- The counts of a run phase that goes well, if no limit allows more instructions than can be counted. -/
theorem runPhase_counts (fits : 64 * w.machine.options.instructionLimit.toNat < 0x10000000000000000)
    (well : w.runPhase.1 = .ok ()) :
    w.runPhase.2.machine.profile.total.toNat = w.frameInstrs.length ∧
      ∀ category, (w.runPhase.2.machine.profile.count category).toNat = tally category w.frameInstrs := by
  obtain ⟨result, -, machine⟩ := guarded_of_running runAll (running_of_guarded well)
  have tallies := runAll_tallies (result.symm.trans well)
  have bounded : w.frameInstrs.length ≤ 64 * w.machine.options.instructionLimit.toNat := w.length_frameInstrs_le
  rw [runPhase, machine]
  exact tallies.exact (Nat.le_of_lt_succ (Nat.lt_of_le_of_lt bounded fits))

/-- The limit is exact, and otherwise invisible. A slice comes to its end within as many instructions as the limit
    allows, and if it can be counted, as all slices of a run phase can, the limit is what ends it exactly if they all run
    on; what yields as the last of them ends it well. If the limit allows no more than can be counted, a run phase that
    goes well has counted each of its instructions once, in its own category, and they are no more than the limit allows
    to every thread. And a run phase that does not fail for the limit is the same with every higher one, the settings
    apart. -/
theorem runPhase_budget (w : World H) :
    let limit := w.machine.options.instructionLimit
    (∀ thread : Fin threadCount,
      let s : Slice H := ⟨thread, w⟩
      (∃ count, count ≤ limit.toNat ∧ (w.sliceEnd thread).2 = s.after count ∧
        (w.beginSlice thread).Ends thread limit.toNat count (w.sliceEnd thread).1 ∧
        ((w.sliceEnd thread).1 = .ok () →
          (sliceInstrs limit.toNat (w.beginSlice thread)).map some =
            (List.range count).map fun earlier => (s.after earlier).next?)) ∧
      (s.outcome.1 = .error (.limitExceeded thread.val limit) ↔
        w.machine.profile.slices ≠ 0xFFFFFFFFFFFFFFFF ∧ ∀ earlier < limit.toNat,
          (s.after earlier).step.1 = .ok () ∧ (s.after earlier).step.2.machine.yielded = false) ∧
      ∀ last < limit.toNat,
        (∀ earlier < last, (s.after earlier).step.1 = .ok () ∧ (s.after earlier).step.2.machine.yielded = false) →
        (s.after last).step.1 = .ok () ∧ (s.after last).step.2.machine.yielded = true →
        (w.sliceEnd thread).1 = .ok ()) ∧
    (∀ s ∈ (giveSlices w.machine.threads.runnable (w.mapMachine fun m => { m with profile := {} })).1,
      s.before.machine.profile.slices ≠ 0xFFFFFFFFFFFFFFFF) ∧
    (64 * limit.toNat < 0x10000000000000000 → w.runPhase.1 = .ok () →
      w.runPhase.2.machine.profile.total.toNat = w.frameInstrs.length ∧
      w.frameInstrs.length ≤ 64 * limit.toNat ∧
      (∀ category, (w.runPhase.2.machine.profile.count category).toNat = tally category w.frameInstrs) ∧
      (w.runPhase.2.machine.profile.count .polygons).toNat = w.frameInstrs.countP Instr.drawsPolygon) ∧
    ∀ higher, limit ≤ higher → (∀ number bound, w.runPhase.1 ≠ .error (.limitExceeded number bound)) →
      (w.withLimit higher).runPhase = (w.runPhase.1, w.runPhase.2.withLimit higher) := by
  intro limit
  refine ⟨fun thread => ?_, fun s member => giveSlices_room w.room_runnable member, fun fits well => ?_,
    fun higher above within => ?_⟩
  · obtain ⟨count, same, ends⟩ := w.sliceEnd_ends thread
    refine ⟨⟨count, ends.count_le, same, ends, fun well => ?_⟩, w.runThread_limit_iff thread,
      fun last inside earlier yields => ends.of_yields inside earlier yields⟩
    rw [well] at ends
    exact ends.instrs rfl
  · obtain ⟨total, counts⟩ := w.runPhase_counts fits well
    exact ⟨total, w.length_frameInstrs_le, counts, (counts .polygons).trans (tally_polygons _)⟩
  · refine runPhase_withLimit above ?_
    unfold exceeds
    split
    · rename_i exceeded
      exact absurd exceeded (within _ _)
    · rfl

/-- A machine with a limit, at the start of its code. -/
def limited (instructionLimit : UInt64) (code : Code) : World Headless where
  machine := { script := { code }, threads := .started, options := { instructionLimit } }
  host := {}

/-- A thread that jumps and pauses within a limit of two, one that jumps forever, and one that may do nothing. -/
theorem runPhase_budget_limited :
    let pausing := limited 2 #[0x07, 0, 3, 0x06]
    (pausing.sliceEnd 0).1 = .ok () ∧ pausing.runPhase.1 = .ok () ∧
      pausing.runPhase.2.machine.profile.total.toNat = pausing.frameInstrs.length ∧
      pausing.frameInstrs.length ≤ 128 ∧
      (pausing.withLimit 1000).runPhase = (pausing.runPhase.1, pausing.runPhase.2.withLimit 1000) ∧
      ((limited 2 #[0x07, 0, 0]).runThread 0).1 = .error (.limitExceeded 0 2) ∧
      ((limited 0 #[0x06]).runThread 0).1 = .error (.limitExceeded 0 0) := by
  intro pausing
  have ran : pausing.runPhase.1 = .ok () := by decide +kernel
  obtain ⟨slices, -, counts, higher⟩ := runPhase_budget pausing
  obtain ⟨total, bounded, -⟩ := counts (by decide) ran
  obtain ⟨-, -, yields⟩ := slices 0
  obtain ⟨-, loops, -⟩ := (runPhase_budget (limited 2 #[0x07, 0, 0])).1 0
  obtain ⟨-, stuck, -⟩ := (runPhase_budget (limited 0 #[0x06])).1 0
  refine ⟨?_, ran, total, bounded, higher 1000 (by decide) fun _ _ => ?_, ?_, ?_⟩
  · refine yields 1 (by decide) (fun earlier inside => ?_) (by decide +kernel)
    obtain rfl := Nat.lt_one_iff.mp inside
    decide +kernel
  · rw [ran]
    nofun
  · refine loops.mpr ⟨by decide, fun earlier inside => ?_⟩
    match earlier, inside with
    | 0, _ | 1, _ => decide +kernel
  · exact stuck.mpr ⟨by decide, fun earlier inside => absurd inside (Nat.not_lt_zero earlier)⟩

end World

end Framescript
