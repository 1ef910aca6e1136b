import Framescript.Host.Headless
import Framescript.Proofs.Encoding
import Framescript.Proofs.SliceEnds

/-!
Where threads go on. A slice that goes well ends with a pause or with the end of its thread, and the thread goes on
right behind the pause. The last offset but one is the exception: right behind it is the offset of threads that do not
run, so a pause there ends its thread as well (`pausing_stays_runnable`).
-/
namespace Framescript

theorem Script.toNat_of_offset16 {s : Script} {pc : UInt16} (fits : s.offset16 = .ok pc) : pc.toNat = s.pc := by
  unfold offset16 at fits
  split at fits
  · rename_i small
    cases fits
    exact UInt16.toNat_ofNat_of_lt small
  · cases fits

namespace Slice

variable {H : Type} [Host H]

/-- Whether the last instruction of a slice is this one at this offset: all before it run on, and it yields. -/
def EndsWith (s : Slice H) (instr : Instr) (offset : Nat) : Prop :=
  ∃ last, last < s.before.machine.options.instructionLimit.toNat ∧
    (∀ earlier < last, (s.after earlier).GoesOn) ∧ (s.after last).Yields ∧ (s.after last).next? = some instr ∧
    (s.after last).machine.script.pc = offset

variable {s : Slice H}

/-- A slice that goes well has a last instruction, and what is stored is the offset to which that one goes. -/
theorem exists_last (well : s.outcome.1 = .ok ()) :
    ∃ last, last < s.before.machine.options.instructionLimit.toNat ∧ (s.before.beginSlice s.thread).RunsOn last ∧
      (s.after last).Yields ∧
      (s.outcome.2.machine.threads.pc.get s.thread).toNat = (s.after last).step.2.machine.script.pc := by
  obtain ⟨count, same, ends⟩ := s.before.sliceEnd_ends s.thread
  have room := World.room_of_ok well
  unfold outcome at well ⊢
  rcases ended : s.before.sliceEnd s.thread with ⟨fault | _, after⟩
  · rw [World.runThread_of_failed room ended] at well
    cases well
  · rw [ended] at same ends
    rw [World.runThread_of_ended room ended, World.endSlice] at well ⊢
    cases ends with
    | @yielded last within earlier yields =>
      refine ⟨last, within, earlier, yields, ?_⟩
      rcases offset : after.machine.script.offset16 with fault | pc
      · rw [offset] at well
        cases well
      · have stored : (after.machine.threads.setPc s.thread pc).pc.get s.thread = pc := Vector.getElem_set_self _
        show ((after.machine.threads.setPc s.thread pc).pc.get s.thread).toNat = _
        rw [stored, Script.toNat_of_offset16 offset, ← s.after_succ last, ← same]

theorem toNat_of_endsWith {instr : Instr} {offset : Nat} (well : s.outcome.1 = .ok ())
    (ends : s.EndsWith instr offset) :
    ∃ last : World H, last.next? = some instr ∧ last.machine.script.pc = offset ∧
      (s.outcome.2.machine.threads.pc.get s.thread).toNat = last.step.2.machine.script.pc := by
  obtain ⟨last, -, earlier, yields, next, stands⟩ := ends
  obtain ⟨other, -, earlier', yields', stored⟩ := exists_last well
  cases earlier'.last_unique yields'.not_goesOn earlier yields.not_goesOn
  exact ⟨s.after last, next, stands, stored⟩

theorem pc_of_pause {offset : Nat} (well : s.outcome.1 = .ok ()) (ends : s.EndsWith (.table .pause ()) offset) :
    (s.outcome.2.machine.threads.pc.get s.thread).toNat = offset + 1 := by
  obtain ⟨last, next, stands, stored⟩ := toNat_of_endsWith well ends
  rw [stored, (World.step_of_pause next).2, stands]

theorem pc_of_kill {offset : Nat} (well : s.outcome.1 = .ok ()) (ends : s.EndsWith (.table .kill ()) offset) :
    s.outcome.2.machine.threads.pc.get s.thread = ThreadTable.inactive := by
  obtain ⟨last, next, -, stored⟩ := toNat_of_endsWith well ends
  exact UInt16.toNat_inj.mp (stored.trans (World.step_of_kill next).2)

/-- A slice that can be counted and ends with a pause goes well if the offset behind the pause can be stored. -/
theorem outcome_of_pause {offset : Nat} (room : s.before.machine.profile.slices ≠ 0xFFFFFFFFFFFFFFFF)
    (ends : s.EndsWith (.table .pause ()) offset) (small : offset < 0xFFFF) : s.outcome.1 = .ok () := by
  obtain ⟨last, within, earlier, yields, next, stands⟩ := ends
  obtain ⟨count, same, slice⟩ := s.before.sliceEnd_ends s.thread
  have well := slice.of_yields within earlier yields
  rcases ended : s.before.sliceEnd s.thread with ⟨result, after⟩
  rw [ended] at same slice well
  cases well
  cases slice with
  | yielded _ earlier' yields' =>
    cases earlier'.last_unique yields'.not_goesOn earlier yields.not_goesOn
    have behind : after.machine.script.pc = offset + 1 := by
      rw [← stands, ← (World.step_of_pause next).2, ← s.after_succ last, ← same]
    rw [outcome, World.runThread_of_ended room ended, World.endSlice, Script.offset16, behind,
      if_pos (Nat.succ_lt_succ small)]

/-- A slice that goes well ends with a pause or with the end of its thread. -/
theorem exists_endsWith (well : s.outcome.1 = .ok ()) :
    (∃ offset, s.EndsWith (.table .pause ()) offset) ∨ ∃ offset, s.EndsWith (.table .kill ()) offset := by
  obtain ⟨last, within, earlier, yields, -⟩ := exists_last well
  rcases (World.step_yields_iff (earlier.running rfl)).mp yields with next | next
  · exact .inl ⟨_, last, within, earlier, yields, next, rfl⟩
  · exact .inr ⟨_, last, within, earlier, yields, next, rfl⟩

/-- After a slice that goes well, its thread has the offset of threads that do not run exactly if the slice ended with
    the end of the thread, or with a pause right in front of that offset. -/
theorem pc_eq_inactive_iff (well : s.outcome.1 = .ok ()) :
    s.outcome.2.machine.threads.pc.get s.thread = ThreadTable.inactive ↔
      (∃ offset, s.EndsWith (.table .kill ()) offset) ∨ s.EndsWith (.table .pause ()) 0xFFFE := by
  constructor
  · intro stopped
    rcases exists_endsWith well with ⟨offset, paused⟩ | killed
    · have behind := pc_of_pause well paused
      rw [stopped] at behind
      have last : offset = 0xFFFE := (Nat.succ.inj behind).symm
      exact .inr (last ▸ paused)
    · exact .inl killed
  · rintro (⟨offset, killed⟩ | paused)
    · exact pc_of_kill well killed
    · exact UInt16.toNat_inj.mp (pc_of_pause well paused)

end Slice

namespace World

variable {H : Type} [Host H]

/-- In a run phase that goes well every runnable thread gets a slice, which ends with a pause or with the end of the
    thread. After a pause the thread goes on right behind it and is still runnable, unless the pause is at the last
    offset but one: the offset behind that is the one of threads that do not run. A thread has that offset after its
    slice, and after the phase, exactly if its slice ended with the end of the thread or with such a pause. -/
theorem pausing_stays_runnable {w : World H} (ran : w.runPhase.1 = .ok ()) :
    let given := giveSlices w.machine.threads.runnable (w.mapMachine fun m => { m with profile := {} })
    let ended := w.runPhase.2.machine.threads
    given.1.map Slice.thread = w.machine.threads.runnable ∧
    ∀ s ∈ given.1,
      ((∃ offset, s.EndsWith (.table .pause ()) offset) ∨ ∃ offset, s.EndsWith (.table .kill ()) offset) ∧
      (∀ offset, s.EndsWith (.table .pause ()) offset →
        (ended.pc.get s.thread).toNat = offset + 1 ∧ (ended.isRunnable s.thread = true ↔ offset ≠ 0xFFFE)) ∧
      s.outcome.2.machine.threads.pc.get s.thread = ended.pc.get s.thread ∧
      (ended.pc.get s.thread = ThreadTable.inactive ↔
        (∃ offset, s.EndsWith (.table .kill ()) offset) ∨ s.EndsWith (.table .pause ()) 0xFFFE) := by
  intro given ended
  let begun := w.mapMachine fun m => { m with profile := {} }
  obtain ⟨result, threads, -⟩ := runPhase_of_running (running_of_guarded ran) (runThreads_order begun)
  have well : given.2.1 = .ok () := result.symm.trans ran
  have isolated := giveSlices_isolated begun rfl
  obtain ⟨all, allWell, -⟩ := giveSlices_of_ok well
  refine ⟨all, fun s member => ?_⟩
  have goes := allWell s member
  have kept : ended.pc.get s.thread = s.outcome.2.machine.threads.pc.get s.thread := by
    rw [← isolated.settled.2 s member, ← threads]
  have awake : ended.isPaused s.thread = false := by
    have paused : ended.paused = w.machine.threads.paused := by
      rw [show ended = _ from threads]
      exact isolated.paused.2
    have runnable := isolated.runnable s member
    rw [ThreadTable.isRunnable, Bool.and_eq_true, Bool.not_eq_true'] at runnable
    rw [ThreadTable.isPaused, paused]
    exact runnable.1
  -- what the slice stored is what stands at the end of the phase, so all is about that slice
  rw [kept]
  refine ⟨Slice.exists_endsWith goes, fun offset pauses => ?_, rfl, Slice.pc_eq_inactive_iff goes⟩
  have behind := Slice.pc_of_pause goes pauses
  refine ⟨behind, ?_⟩
  rw [ThreadTable.isRunnable, awake, kept, Bool.not_false, Bool.true_and, bne_iff_ne, ne_eq, ← UInt16.toNat_inj, behind]
  exact not_congr Nat.succ_inj

/-- A single thread, which stands at a pause at this offset and at the end of the code. -/
def pausingAt (thread : Fin threadCount) (offset : Nat) : World Headless where
  machine :=
    { script := { code := (List.replicate offset (0 : UInt8) ++ [0x06]).toArray }
      threads := ThreadTable.empty.setPc thread (UInt16.ofNat offset) }
  host := {}

theorem endsWith_pausingAt {thread : Fin threadCount} {offset : Nat} (small : offset < 0xFFFF) :
    Slice.EndsWith ⟨thread, pausingAt thread offset⟩ (.table .pause ()) offset := by
  let first := (pausingAt thread offset).beginSlice thread
  have stored : (pausingAt thread offset).machine.threads.pc.get thread = UInt16.ofNat offset :=
    Vector.getElem_set_self thread.isLt
  have stands : first.machine.script.pc = offset :=
    (congrArg UInt16.toNat stored).trans (UInt16.toNat_ofNat_of_lt (Nat.lt_succ_of_lt small))
  have front : [0x06] <+: first.machine.script.rest := by
    rw [Script.rest, stands]
    show [0x06] <+: List.drop offset (List.replicate offset 0 ++ [0x06])
    rw [List.drop_append_of_le_length (by simp), List.drop_eq_nil_of_le (by simp)]
    exact List.prefix_refl _
  have takes : Reader.Takes (Instr.read .twoBytes) [0x06] (.table .pause ()) :=
    Instr.takes_encode (show (Instr.table .pause ()).Encodable from trivial) .twoBytes
  have next : first.next? = some (.table .pause ()) := next_of_read (takes.whole _ front)
  have some : 0 < (pausingAt thread offset).machine.options.instructionLimit.toNat := by
    show 0 < (1000000 : UInt64).toNat
    decide
  exact ⟨0, some, fun _ inside => absurd inside (Nat.not_lt_zero _), (step_of_pause next).1, next, stands⟩

theorem giveSlices_pausingAt {thread : Fin threadCount} {offset : Nat} (small : offset < 0xFFFF)
    (one : (pausingAt thread offset).machine.threads.runnable = [thread]) :
    ∃ after, giveSlices (pausingAt thread offset).machine.threads.runnable (pausingAt thread offset) =
      ([⟨thread, pausingAt thread offset⟩], .ok (), after) := by
  have well : ((pausingAt thread offset).runThread thread).1 = .ok () :=
    Slice.outcome_of_pause (show (0 : UInt64) ≠ 0xFFFFFFFFFFFFFFFF by decide) (endsWith_pausingAt small) small
  rw [one]
  obtain ⟨fault, after, ran, -⟩ | ⟨after, -, given⟩ := giveSlices_cons thread [] (pausingAt thread offset)
  · rw [ran] at well
    cases well
  · exact ⟨after, given⟩

/-- A pause at the last offset but one ends its thread, and one at the offset before does not. -/
theorem pausing_stays_runnable_pausingAt :
    ((pausingAt 0 0xFFFE).runPhase.1 = .ok () ∧
      (pausingAt 0 0xFFFE).runPhase.2.machine.threads.pc.get 0 = ThreadTable.inactive ∧
      (pausingAt 0 0xFFFE).runPhase.2.machine.threads.isRunnable 0 = false) ∧
    (pausingAt 0 0xFFFD).runPhase.1 = .ok () ∧
      ((pausingAt 0 0xFFFD).runPhase.2.machine.threads.pc.get 0).toNat = 0xFFFE ∧
      (pausingAt 0 0xFFFD).runPhase.2.machine.threads.isRunnable 0 = true := by
  have ran (offset : Nat) (small : offset < 0xFFFF) (one : (pausingAt 0 offset).machine.threads.runnable = [0]) :
      (pausingAt 0 offset).runPhase.1 = .ok () ∧
        ((pausingAt 0 offset).runPhase.2.machine.threads.pc.get 0).toNat = offset + 1 ∧
        ((pausingAt 0 offset).runPhase.2.machine.threads.isRunnable 0 = true ↔ offset ≠ 0xFFFE) := by
    obtain ⟨after, given⟩ := giveSlices_pausingAt small one
    have well : (pausingAt 0 offset).runPhase.1 = .ok () := by
      rw [(runPhase_of_running (w := pausingAt 0 offset) rfl (runThreads_order (pausingAt 0 offset))).1, given]
    have member : ⟨0, pausingAt 0 offset⟩ ∈
        (giveSlices (pausingAt 0 offset).machine.threads.runnable (pausingAt 0 offset)).1 := by
      rw [given]
      exact List.mem_singleton_self _
    obtain ⟨-, pauses, -⟩ := (pausing_stays_runnable well).2 _ member
    exact ⟨well, pauses offset (endsWith_pausingAt small)⟩
  obtain ⟨well, behind, stays⟩ := ran 0xFFFE (by decide) (by decide +kernel)
  obtain ⟨well', behind', stays'⟩ := ran 0xFFFD (by decide) (by decide +kernel)
  refine ⟨⟨well, UInt16.toNat_inj.mp behind, ?_⟩, well', behind', stays'.mpr (by decide)⟩
  exact Bool.eq_false_iff.mpr fun runnable => stays.mp runnable rfl

end World

end Framescript
