import Framescript.Host.Headless
import Framescript.Proofs.Traced

/-!
Who runs in a run phase. The record of the slices says when each began and what came of it, and `runPhase_isolated` says
what no slice can change: nothing that it does reaches the paused flags or the offset of another thread.
-/
namespace Framescript

namespace Slice

variable {H : Type} [Host H]

theorem after_keeps (s : Slice H) (count : Nat) :
    Machine.Keeps (s.before.beginSlice s.thread).machine (s.after count).machine :=
  World.afterSteps_keeps count _

/-- A slice that fails changes no offset at all. -/
theorem outcome_pc (s : Slice H) {fault : Fault} (failed : s.outcome.1 = .error fault) :
    s.outcome.2.machine.threads.pc = s.before.machine.threads.pc := by
  unfold outcome at failed ⊢
  obtain ⟨_, result⟩ | ⟨fault, result⟩ | ⟨pc, offset, result⟩ := s.before.runThread_cases s.thread
  · rw [result]
    rfl
  · rw [result]
    exact (s.before.sliceEnd_keeps s.thread).pc
  · rw [result] at failed
    cases failed

/-- A slice that goes well stores the offset at which its instructions ended. -/
theorem stored (s : Slice H) (well : s.outcome.1 = .ok ()) :
    ∃ count, (s.after count).machine.script.offset16 = .ok (s.outcome.2.machine.threads.pc.get s.thread) := by
  obtain ⟨count, _, same⟩ := World.runSlice_eq_afterSteps s.thread s.before.machine.options.instructionLimit.toNat
    (s.before.beginSlice s.thread)
  refine ⟨count, ?_⟩
  unfold outcome at well ⊢
  obtain ⟨_, result⟩ | ⟨fault, result⟩ | ⟨pc, offset, result⟩ := s.before.runThread_cases s.thread
  · rw [result] at well
    cases well
  · rw [result] at well
    cases well
  · have stored : ((s.before.sliceEnd s.thread).2.machine.threads.setPc s.thread pc).pc.get s.thread = pc :=
      Vector.getElem_set_self _
    rw [result]
    show (s.after count).machine.script.offset16 =
      .ok (((s.before.sliceEnd s.thread).2.machine.threads.setPc s.thread pc).pc.get s.thread)
    rw [stored, ← offset, World.sliceEnd, same, after]

end Slice

namespace World

open Machine (Stays)

variable {H : Type} [Host H]

/-- Slices leave the offsets of all threads alone that get none. -/
theorem giveSlices_keeps (threads : List (Fin threadCount)) (w : World H) :
    Stays w.machine (giveSlices threads w).2.2.machine ∧
      ∀ other, other ∉ threads →
        (giveSlices threads w).2.2.machine.threads.pc.get other = w.machine.threads.pc.get other := by
  induction threads generalizing w with
  | nil => exact ⟨Stays.refl _, fun _ _ => rfl⟩
  | cons thread threads ih =>
    have keeps := w.runThread_keeps thread
    obtain ⟨fault, after, ran, given⟩ | ⟨after, ran, given⟩ := giveSlices_cons thread threads w
    · rw [given]
      rw [ran] at keeps
      exact ⟨keeps.toStays, fun other absent => keeps.pc other fun same => absent (same ▸ List.mem_cons_self)⟩
    · rw [given]
      rw [ran] at keeps
      obtain ⟨stays, pcs⟩ := ih after
      refine ⟨keeps.toStays.trans stays, fun other absent => ?_⟩
      obtain ⟨different, absent⟩ := not_or.mp (mt List.mem_cons.mpr absent)
      exact (pcs other absent).trans (keeps.pc other different)

/-- A slice on record begins where the slices of the threads in front of its own, all well, have ended. -/
theorem giveSlices_split {threads : List (Fin threadCount)} {w : World H} {s : Slice H}
    (member : s ∈ (giveSlices threads w).1) :
    ∃ done rest, threads = done ++ s.thread :: rest ∧ (giveSlices done w).2 = (.ok (), s.before) := by
  induction threads generalizing w with
  | nil => cases member
  | cons thread threads ih =>
    obtain ⟨fault, after, ran, given⟩ | ⟨after, ran, given⟩ := giveSlices_cons thread threads w
    · rw [given] at member
      cases List.mem_singleton.mp member
      exact ⟨[], threads, rfl, rfl⟩
    · rw [given] at member
      rcases List.mem_cons.mp member with rfl | later
      · exact ⟨[], threads, rfl, rfl⟩
      · obtain ⟨done, rest, split, reached⟩ := ih later
        refine ⟨thread :: done, rest, by rw [split, List.cons_append], ?_⟩
        rw [giveSlices, ran]
        exact reached

/-- The threads on record are the first ones of the list. -/
theorem giveSlices_prefix (threads : List (Fin threadCount)) (w : World H) :
    (giveSlices threads w).1.map Slice.thread <+: threads := by
  induction threads generalizing w with
  | nil => exact List.nil_prefix
  | cons thread threads ih =>
    obtain ⟨fault, after, _, given⟩ | ⟨after, _, given⟩ := giveSlices_cons thread threads w
    · rw [given]
      exact ⟨threads, rfl⟩
    · rw [given]
      exact List.cons_prefix_cons.mpr ⟨rfl, ih after⟩

/-- If all goes well, every thread of the list gets a slice, and each slice is counted. -/
theorem giveSlices_of_ok {threads : List (Fin threadCount)} {w : World H} (well : (giveSlices threads w).2.1 = .ok ()) :
    (giveSlices threads w).1.map Slice.thread = threads ∧ (∀ s ∈ (giveSlices threads w).1, s.outcome.1 = .ok ()) ∧
      (giveSlices threads w).2.2.machine.profile.slices = w.machine.profile.slices + UInt64.ofNat threads.length := by
  induction threads generalizing w with
  | nil => exact ⟨rfl, by simp [giveSlices], by simp [giveSlices]⟩
  | cons thread threads ih =>
    obtain ⟨fault, after, ran, given⟩ | ⟨after, ran, given⟩ := giveSlices_cons thread threads w
    · rw [given] at well
      cases well
    · rw [given] at well ⊢
      have one := runThread_slices (congrArg Prod.fst ran)
      rw [ran] at one
      obtain ⟨threadsGiven, allWell, counted⟩ := ih well
      refine ⟨congrArg (thread :: ·) threadsGiven, ?_, ?_⟩
      · intro s member
        rcases List.mem_cons.mp member with rfl | later
        · rw [Slice.outcome, ran]
        · exact allWell s later
      · rw [counted, one, List.length_cons, UInt64.ofNat_add, UInt64.add_assoc, UInt64.add_comm 1]
        rfl

/-- If there is room for all slices at first, each of them can be counted when its turn comes. -/
theorem giveSlices_room {threads : List (Fin threadCount)} {w : World H} {s : Slice H} (room : w.Room threads.length)
    (member : s ∈ (giveSlices threads w).1) : s.before.machine.profile.slices ≠ 0xFFFFFFFFFFFFFFFF := by
  induction threads generalizing w with
  | nil => cases member
  | cons thread threads ih =>
    obtain ⟨fault, after, ran, given⟩ | ⟨after, ran, given⟩ := giveSlices_cons thread threads w
    · rw [given] at member
      cases List.mem_singleton.mp member
      exact room.ne_largest
    · rw [given] at member
      rcases List.mem_cons.mp member with rfl | later
      · exact room.ne_largest
      · have rest := room.later (congrArg Prod.fst ran)
        rw [ran] at rest
        exact ih rest later

omit [Host H] in
/-- All threads that are runnable can get a slice when counting begins. -/
theorem room_runnable (w : World H) :
    (w.mapMachine fun m => { m with profile := {} }).Room w.machine.threads.runnable.length :=
  Nat.le_trans (Nat.add_le_add_left (List.length_filter_le _ _) _) w.room_order

/-- If a slice fails, it is the last one on record, and all before it went well. -/
theorem giveSlices_of_error {threads : List (Fin threadCount)} {w : World H} {fault : Fault}
    (failed : (giveSlices threads w).2.1 = .error fault) :
    ∃ done last, (giveSlices threads w).1 = done ++ [last] ∧ (∀ s ∈ done, s.outcome.1 = .ok ()) ∧
      last.outcome = (giveSlices threads w).2 := by
  induction threads generalizing w with
  | nil => cases failed
  | cons thread threads ih =>
    obtain ⟨_, after, ran, given⟩ | ⟨after, ran, given⟩ := giveSlices_cons thread threads w
    · exact ⟨[], ⟨thread, w⟩, by rw [given]; rfl, by simp, by rw [given, Slice.outcome, ran]⟩
    · rw [given] at failed
      obtain ⟨done, last, record, allWell, ended⟩ := ih failed
      refine ⟨⟨thread, w⟩ :: done, last, by rw [given, record]; rfl, ?_, by rw [given]; exact ended⟩
      intro s member
      rcases List.mem_cons.mp member with rfl | earlier
      · rw [Slice.outcome, ran]
      · exact allWell s earlier

/-- Once its slice is over, nothing changes the offset of a thread, neither a later slice nor its end. -/
theorem giveSlices_settled {threads : List (Fin threadCount)} (distinct : threads.Nodup) (w : World H) :
    (giveSlices threads w).1.Pairwise (fun s later =>
      later.before.machine.threads.pc.get s.thread = s.outcome.2.machine.threads.pc.get s.thread) ∧
    ∀ s ∈ (giveSlices threads w).1,
      (giveSlices threads w).2.2.machine.threads.pc.get s.thread = s.outcome.2.machine.threads.pc.get s.thread := by
  induction threads generalizing w with
  | nil => exact ⟨List.Pairwise.nil, by simp [giveSlices]⟩
  | cons thread threads ih =>
    obtain ⟨absent, distinct⟩ := List.nodup_cons.mp distinct
    obtain ⟨fault, after, ran, given⟩ | ⟨after, ran, given⟩ := giveSlices_cons thread threads w
    · have ended : Slice.outcome ⟨thread, w⟩ = (.error fault, after) := ran
      rw [given]
      refine ⟨List.pairwise_singleton _ _, fun s member => ?_⟩
      rw [List.mem_singleton.mp member, ended]
    · have ended : Slice.outcome ⟨thread, w⟩ = (.ok (), after) := ran
      obtain ⟨pairs, last⟩ := ih distinct after
      rw [given]
      refine ⟨List.pairwise_cons.mpr ⟨fun later member => ?_, pairs⟩, fun s member => ?_⟩
      · obtain ⟨done, rest, split, reached⟩ := giveSlices_split member
        have untouched := (giveSlices_keeps done after).2 thread
          fun earlier => absent (split ▸ List.mem_append_left _ earlier)
        rw [reached] at untouched
        rw [untouched, ended]
      · rcases List.mem_cons.mp member with rfl | later
        · rw [(giveSlices_keeps threads after).2 thread absent, ended]
        · exact last s later

/-- What holds of a run phase that began with `threads`, gave `slices` and came to `result`, with the threads in
    the end and the number of slices that was counted. -/
structure Isolated (threads : ThreadTable) (slices : List (Slice H)) (result : Except Fault Unit) (ended : ThreadTable)
    (counted : UInt64) : Prop where
  /-- No thread gets two slices, and lower threads come first. -/
  ascending : (slices.map Slice.thread).Pairwise (· < ·)
  /-- Only threads that were runnable when the phase began get a slice. -/
  runnable : ∀ s ∈ slices, threads.isRunnable s.thread = true
  /-- A slice starts at the offset that its thread had when the phase began. -/
  start : ∀ s ∈ slices, (s.after 0).machine.script.pc = (threads.pc.get s.thread).toNat
  /-- Paused flags stay, after every instruction of every slice and in the end. -/
  paused : (∀ s ∈ slices, ∀ count, (s.after count).machine.threads.paused = threads.paused) ∧
    ended.paused = threads.paused
  /-- After every instruction of every slice, a thread that was not runnable or whose own slice is not over has
      the offset that it had when the phase began; one that was not runnable has it in the end. -/
  waiting : (∀ s ∈ slices, ∀ count other, threads.isRunnable other = false ∨ s.thread ≤ other →
      (s.after count).machine.threads.pc.get other = threads.pc.get other) ∧
    ∀ other, threads.isRunnable other = false → ended.pc.get other = threads.pc.get other
  /-- After every instruction of every later slice, and in the end, a thread has the offset that the end of its
      own slice gave it. -/
  settled : slices.Pairwise (fun s later => ∀ count,
      (later.after count).machine.threads.pc.get s.thread = s.outcome.2.machine.threads.pc.get s.thread) ∧
    ∀ s ∈ slices, ended.pc.get s.thread = s.outcome.2.machine.threads.pc.get s.thread
  /-- The end of a slice that goes well stores the offset at which its instructions ended. -/
  stored : ∀ s ∈ slices, s.outcome.1 = .ok () →
    ∃ count, (s.after count).machine.script.offset16 = .ok (s.outcome.2.machine.threads.pc.get s.thread)
  /-- If the phase succeeds, all threads that were runnable got their slice, all slices went well, and they are
      counted. -/
  success : result = .ok () → (∀ thread, threads.isRunnable thread = true → thread ∈ slices.map Slice.thread) ∧
    (∀ s ∈ slices, s.outcome.1 = .ok ()) ∧ counted.toNat = slices.length
  /-- If the phase fails, the last slice failed. Before it, all lower threads that were runnable got theirs, which
      went well. Its own thread and all higher ones have the offset that they had when the phase began. -/
  failure : ∀ fault, result = .error fault → ∃ done last, slices = done ++ [last] ∧ last.outcome.1 = .error fault ∧
    (∀ thread, threads.isRunnable thread = true → thread < last.thread → thread ∈ done.map Slice.thread) ∧
    (∀ s ∈ done, s.outcome.1 = .ok ()) ∧
    ∀ other, last.thread ≤ other → ended.pc.get other = threads.pc.get other

/-- When the turn of a thread comes, its own offset and those of the threads that are not in front of it in the
    list are as they were, and so are all paused flags. -/
theorem before_keeps {threads : List (Fin threadCount)} (ascending : threads.Pairwise (· < ·)) {w : World H}
    {s : Slice H} (member : s ∈ (giveSlices threads w).1) :
    s.before.machine.threads.paused = w.machine.threads.paused ∧
      ∀ other, other ∉ threads ∨ s.thread ≤ other →
        s.before.machine.threads.pc.get other = w.machine.threads.pc.get other := by
  obtain ⟨done, rest, split, reached⟩ := giveSlices_split member
  obtain ⟨stays, pcs⟩ := giveSlices_keeps done w
  rw [reached] at stays pcs
  refine ⟨stays.paused, fun other outside => pcs other fun earlier => ?_⟩
  rcases outside with absent | notBelow
  · exact absent (split ▸ List.mem_append_left _ earlier)
  · rw [split] at ascending
    have below := (List.pairwise_append.mp ascending).2.2 other earlier s.thread List.mem_cons_self
    exact absurd below (not_lt.mpr notBelow)

/-- The slices of the threads that are runnable are isolated from each other. -/
theorem giveSlices_isolated (w : World H) (fresh : w.machine.profile.slices = 0) :
    let given := giveSlices w.machine.threads.runnable w
    Isolated w.machine.threads given.1 given.2.1 given.2.2.machine.threads given.2.2.machine.profile.slices := by
  intro given
  have ascending := w.machine.threads.runnable_ascending
  have distinct : w.machine.threads.runnable.Nodup := ascending.imp fun below => ne_of_lt below
  obtain ⟨stays, others⟩ := giveSlices_keeps w.machine.threads.runnable w
  obtain ⟨settled, settledAtEnd⟩ := giveSlices_settled distinct w
  have first := giveSlices_prefix w.machine.threads.runnable w
  have before {s : Slice H} (member : s ∈ (giveSlices w.machine.threads.runnable w).1) := before_keeps ascending member
  have resting {other : Fin threadCount} (no : w.machine.threads.isRunnable other = false) :
      other ∉ w.machine.threads.runnable :=
    fun member => Bool.false_ne_true (no.symm.trans (ThreadTable.mem_runnable.mp member))
  refine ⟨ascending.sublist first.sublist, ?_, ?_, ⟨?_, stays.paused⟩,
    ⟨?_, fun other no => others other (resting no)⟩, ⟨?_, settledAtEnd⟩, fun s _ => s.stored, ?_, ?_⟩
  · intro s member
    exact ThreadTable.mem_runnable.mp (first.subset (List.mem_map_of_mem member))
  · intro s member
    have own := (before member).2 s.thread (.inr le_rfl)
    exact congrArg UInt16.toNat own
  · intro s member count
    exact (s.after_keeps count).paused.trans (before member).1
  · intro s member count other outside
    rw [(s.after_keeps count).pc]
    exact (before member).2 other (outside.imp_left resting)
  · refine settled.imp fun same count => ?_
    rw [← same, (Slice.after_keeps _ count).pc]
    rfl
  · intro well
    obtain ⟨all, allWell, counted⟩ := giveSlices_of_ok well
    refine ⟨fun thread yes => all.symm ▸ ThreadTable.mem_runnable.mpr yes, allWell, ?_⟩
    have few : w.machine.threads.runnable.length ≤ threadCount :=
      (List.length_filter_le _ _).trans_eq (List.length_finRange)
    have number := congrArg List.length all
    rw [List.length_map] at number
    rw [counted, fresh, UInt64.zero_add, number, UInt64.toNat_ofNat']
    exact Nat.mod_eq_of_lt (few.trans_lt (by decide))
  · intro fault failed
    obtain ⟨done, last, record, allWell, ended⟩ := giveSlices_of_error failed
    rw [record, List.map_append] at first
    obtain ⟨rest, split⟩ := first
    have lastFailed : last.outcome.1 = .error fault := by rw [ended, failed]
    refine ⟨done, last, record, lastFailed, fun thread yes below => ?_, allWell, fun other notBelow => ?_⟩
    · -- A thread behind the last one would be higher than it.
      have member := ThreadTable.mem_runnable.mpr yes
      rw [← split] at member ascending
      rcases List.mem_append.mp member with earlier | behind
      · rcases List.mem_append.mp earlier with earlier | same
        · exact earlier
        · exact absurd below (List.mem_singleton.mp same ▸ lt_irrefl _)
      · have above := (List.pairwise_append.mp ascending).2.2 last.thread
          (List.mem_append_right _ List.mem_cons_self) thread behind
        exact absurd below (lt_asymm above)
    · have member : last ∈ (giveSlices w.machine.threads.runnable w).1 :=
        record ▸ List.mem_append_right _ List.mem_cons_self
      rw [← ended, last.outcome_pc lastFailed]
      exact (before member).2 other (.inr notBelow)

/-- What the run phase of a machine that runs takes from the loop over all threads. -/
theorem runPhase_of_running {w : World H} {ran : Except Fault Unit × World H} (running : w.machine.aborted = false)
    (loop : runThreads ThreadTable.order (w.mapMachine fun m => { m with profile := {} }) = ran) :
    w.runPhase.1 = ran.1 ∧ w.runPhase.2.machine.threads = ran.2.machine.threads ∧
      w.runPhase.2.machine.profile = ran.2.machine.profile := by
  obtain ⟨result, _, machine⟩ := guarded_of_running runAll running
  rw [runPhase, result, machine, runAll, loop]
  rcases ran with ⟨result, after⟩
  cases result <;> exact ⟨rfl, rfl, rfl⟩

/-- In a run phase the threads that get a slice are those that are runnable when it begins, each at most once and
    the lowest first, and slices are isolated from each other. On a machine that has stopped nothing runs. -/
theorem runPhase_isolated (w : World H) :
    (w.machine.aborted = true → w.runPhase = (.error .aborted, w)) ∧
    (w.machine.aborted = false →
      let begun := w.mapMachine fun m => { m with profile := {} }
      let given := giveSlices w.machine.threads.runnable begun
      runThreads ThreadTable.order begun = given.2 ∧
        w.runPhase.1 = given.2.1 ∧ w.runPhase.2.machine.threads = given.2.2.machine.threads ∧
        w.runPhase.2.machine.profile = given.2.2.machine.profile ∧
        Isolated w.machine.threads given.1 w.runPhase.1 w.runPhase.2.machine.threads
          w.runPhase.2.machine.profile.slices) := by
  refine ⟨guarded_of_aborted runAll, fun running => ?_⟩
  intro begun given
  have ran : runThreads ThreadTable.order begun = given.2 := runThreads_order begun
  obtain ⟨result, threads, profile⟩ := runPhase_of_running running ran
  have isolated := giveSlices_isolated begun rfl
  refine ⟨ran, result, threads, profile, ?_⟩
  rw [result, threads, profile]
  exact isolated

/-- Three threads are runnable, and the second one stands at a byte that is no opcode. -/
def threeThreads : World Headless where
  machine := { script := { code := #[6, 0x1B] }, threads := (ThreadTable.started.setPc 1 1).setPc 2 0 }
  host := {}

theorem runPhase_isolated_threeThreads :
    threeThreads.machine.threads.runnable = [0, 1, 2] ∧ threeThreads.machine.aborted = false ∧
      ∃ slices : List (Slice Headless), slices.map Slice.thread = [0, 1] ∧
        Isolated threeThreads.machine.threads slices (.error (.invalidInstruction 0x1B 1))
          threeThreads.runPhase.2.machine.threads threeThreads.runPhase.2.machine.profile.slices := by
  have running : threeThreads.machine.aborted = false := rfl
  have failed : threeThreads.runPhase.1 = .error (.invalidInstruction 0x1B 1) := by decide +kernel
  refine ⟨by decide +kernel, running, _, ?_, failed ▸ ((runPhase_isolated threeThreads).2 running).2.2.2.2⟩
  decide +kernel

end World

end Framescript
