import Framescript.Proofs.History
import Framescript.Proofs.Traced
import Mathlib.Control.Monad.Basic

/-!
What becomes of requests. Each instruction writes its requests over those that stand (`step_follows`), so after a
run phase the last one written for a thread stands (`runAll_follows`), and the next commit makes it take effect
(`commit_applies_last_requests`).
-/
namespace Framescript

theorem toNat_thread {thread : Nat} (valid : thread < threadCount) : (UInt8.ofNat thread).toNat = thread :=
  UInt8.toNat_ofNat_of_lt' (Nat.lt_trans valid (by decide))

namespace ThreadRange

/-- The last thread of a range. -/
def final (r : ThreadRange) : Nat :=
  (r.last &&& 0x3F).toNat

/-- Whether a thread is in a range. -/
def Covers (r : ThreadRange) (thread : Nat) : Prop :=
  r.first.toNat ≤ thread ∧ thread ≤ r.final

instance (r : ThreadRange) (thread : Nat) : Decidable (r.Covers thread) :=
  inferInstanceAs (Decidable (_ ∧ _))

/-- The threads of a range in ascending order. -/
def threads (r : ThreadRange) : List UInt8 :=
  (List.range' r.first.toNat (r.final + 1 - r.first.toNat)).map UInt8.ofNat

theorem final_lt (r : ThreadRange) : r.final < threadCount := by
  have : (r.last &&& 0x3F).toNat ≤ 0x3F := by
    rw [UInt8.toNat_and]
    exact Nat.and_le_right
  exact Nat.lt_succ_of_le this

theorem mem_threads {r : ThreadRange} {thread : UInt8} : thread ∈ r.threads ↔ r.Covers thread.toNat := by
  have small : r.final < 64 := r.final_lt
  simp only [threads, List.mem_map, List.mem_range'_1, Covers]
  constructor
  · rintro ⟨index, ⟨above, below⟩, rfl⟩
    rw [toNat_thread (show index < 64 by omega)]
    omega
  · rintro ⟨above, below⟩
    exact ⟨thread.toNat, by omega, UInt8.ofNat_toNat⟩

theorem isEmpty_eq (r : ThreadRange) : ThreadRange.isEmpty r.first r.last = decide (r.final < r.first.toNat) := rfl

end ThreadRange

namespace Instr

/-- The jump that an instruction requests of a thread. -/
def jumpRequest? (thread : Fin threadCount) : Instr → Option UInt16
  | .table .setVec ((target : UInt8), (offset : UInt16), _) => if target.toNat = thread.val then some offset else none
  | .table .resetThreads ((range : ThreadRange), _) =>
    if range.Covers thread.val ∧ range.action = 2 then some 0xFFFE else none
  | _ => none

/-- The pause, or the end of one, that an instruction requests of a thread. -/
def pauseRequest? (thread : Fin threadCount) : Instr → Option UInt8
  | .table .resetThreads ((range : ThreadRange), _) =>
    if range.Covers thread.val ∧ (range.action = 0 ∨ range.action = 1) then some range.action else none
  | _ => none

end Instr

/-- The requests of `after` are those of `before` with what instructions wrote over them, the last one on top. -/
structure ThreadTable.Follows (instrs : List Instr) (before after : ThreadTable) : Prop where
  jump : ∀ thread, after.requestedPc.get thread =
    (instrs.filterMap (·.jumpRequest? thread)).getLast?.getD (before.requestedPc.get thread)
  pause : ∀ thread, after.requestedPaused.get thread =
    (instrs.filterMap (·.pauseRequest? thread)).getLast?.getD (before.requestedPaused.get thread)

namespace ThreadTable

theorem Follows.refl (t : ThreadTable) : Follows [] t t :=
  ⟨fun _ => rfl, fun _ => rfl⟩

theorem Follows.append {first second : List Instr} {a b c : ThreadTable} (here : Follows first a b)
    (there : Follows second b c) : Follows (first ++ second) a c := by
  constructor
  · intro thread
    rw [there.jump, here.jump, List.filterMap_append, List.getLast?_append, Option.getD_or]
  · intro thread
    rw [there.pause, here.pause, List.filterMap_append, List.getLast?_append, Option.getD_or]

/-- Filling a range changes the threads of the range. -/
theorem get_fillRange {α : Type} (row : Vector α threadCount) (range : ThreadRange) (value : α)
    (thread : Fin threadCount) :
    (fillRange row range.first.toNat (range.last &&& 0x3F).toNat value).get thread =
      if range.Covers thread.val then value else row.get thread := by
  show (fillRange row range.first.toNat (range.last &&& 0x3F).toNat value)[thread.val] =
    if range.first.toNat ≤ thread.val ∧ thread.val ≤ (range.last &&& 0x3F).toNat then value else row[thread.val]
  simp [fillRange]

theorem get_set {α : Type} (row : Vector α threadCount) {index : Nat} (inside : index < threadCount) (value : α)
    (thread : Fin threadCount) :
    (row.set index value inside).get thread = if index = thread.val then value else row.get thread :=
  Vector.getElem_set _ _

/-- A row with another value for each thread of a list. -/
def fillEach {α : Type} (row : Vector α threadCount) (threads : List UInt8) (value : α) : Vector α threadCount :=
  row.mapIdx fun thread old => if UInt8.ofNat thread ∈ threads then value else old

theorem fillEach_nil {α : Type} (row : Vector α threadCount) (value : α) : fillEach row [] value = row := by
  ext index inside
  simp [fillEach]

theorem fillEach_cons {α : Type} (row : Vector α threadCount) {thread : UInt8} (valid : thread.toNat < threadCount)
    (threads : List UInt8) (value : α) :
    fillEach (row.set thread.toNat value valid) threads value = fillEach row (thread :: threads) value := by
  ext index inside
  have same : UInt8.ofNat index = thread ↔ thread.toNat = index := by
    rw [← UInt8.toNat_inj, toNat_thread inside, eq_comm]
  simp only [fillEach, Vector.getElem_mapIdx, Vector.getElem_set, List.mem_cons, same]
  by_cases here : thread.toNat = index <;> simp [here]

/-- Requests that each write a value into one row never fail for valid threads, and fill the row together. -/
theorem foldlM_request {α : Type} (row : ThreadTable → Vector α threadCount)
    (put : ThreadTable → Vector α threadCount → ThreadTable) {value : α}
    {request : ThreadTable → UInt8 → Except Fault ThreadTable}
    (writes : ∀ (t : ThreadTable) (thread : UInt8) (valid : thread.toNat < threadCount),
      request t thread = .ok (put t ((row t).set thread.toNat value valid)))
    (put_row : ∀ t, put t (row t) = t) (row_put : ∀ t r, row (put t r) = r)
    (put_put : ∀ t r r', put (put t r) r' = put t r') {threads : List UInt8}
    (valid : ∀ thread ∈ threads, thread.toNat < threadCount) (t : ThreadTable) :
    threads.foldlM request t = .ok (put t (fillEach (row t) threads value)) := by
  induction threads generalizing t with
  | nil =>
    rw [fillEach_nil, put_row]
    rfl
  | cons thread threads ih =>
    obtain ⟨here, there⟩ := List.forall_mem_cons.mp valid
    rw [List.foldlM_cons, writes t thread here]
    refine (ih there _).trans ?_
    rw [row_put, put_put, fillEach_cons]

theorem foldlM_requestPc {threads : List UInt8} (valid : ∀ thread ∈ threads, thread.toNat < threadCount)
    (t : ThreadTable) (pc : UInt16) :
    threads.foldlM (fun t thread => t.requestPc thread pc) t =
      .ok { t with requestedPc := fillEach t.requestedPc threads pc } := by
  have writes (t : ThreadTable) (thread : UInt8) (inside : thread.toNat < threadCount) :
      t.requestPc thread pc = .ok { t with requestedPc := t.requestedPc.set thread.toNat pc inside } := by
    simp only [requestPc, inside, dif_pos]
  exact foldlM_request requestedPc (fun t r => { t with requestedPc := r }) writes (fun _ => rfl) (fun _ _ => rfl)
    (fun _ _ _ => rfl) valid t

theorem foldlM_requestPause {threads : List UInt8} (valid : ∀ thread ∈ threads, thread.toNat < threadCount)
    (t : ThreadTable) (paused : Bool) :
    threads.foldlM (fun t thread => t.requestPause thread paused) t =
      .ok { t with requestedPaused := fillEach t.requestedPaused threads (if paused then 1 else 0) } := by
  have writes (t : ThreadTable) (thread : UInt8) (inside : thread.toNat < threadCount) : t.requestPause thread paused =
      .ok { t with requestedPaused := t.requestedPaused.set thread.toNat (if paused then 1 else 0) inside } := by
    simp only [requestPause, inside, dif_pos]
  exact foldlM_request requestedPaused (fun t r => { t with requestedPaused := r }) writes (fun _ => rfl)
    (fun _ _ => rfl) (fun _ _ _ => rfl) valid t

theorem fillEach_threads {α : Type} (row : Vector α threadCount) (range : ThreadRange) (value : α) :
    fillEach row range.threads value = fillRange row range.first.toNat range.final value := by
  ext index inside
  have covered : UInt8.ofNat index ∈ range.threads ↔ range.first.toNat ≤ index ∧ index ≤ range.final := by
    rw [ThreadRange.mem_threads, ThreadRange.Covers, toNat_thread inside]
  simp only [fillEach, fillRange, Vector.getElem_mapIdx, covered]

end ThreadTable

namespace World

open ThreadTable (Follows)

variable {H : Type}

theorem follows_of_threads {w v : World H} {instr : Instr} (same : v.machine.threads = w.machine.threads)
    (noJump : ∀ thread, instr.jumpRequest? thread = none) (noPause : ∀ thread, instr.pauseRequest? thread = none) :
    Follows [instr] w.machine.threads v.machine.threads := by
  constructor
  · intro thread
    simp [same, noJump thread]
  · intro thread
    simp [same, noPause thread]

theorem setVector_follows {w : World H} {thread : UInt8} {target : UInt16}
    (well : (w.setVector thread target).1 = .ok ()) :
    Follows [.table .setVec (thread, target, ())] w.machine.threads (w.setVector thread target).2.machine.threads := by
  by_cases valid : thread.toNat < threadCount
  · simp only [setVector, ThreadTable.requestPc, valid, dif_pos]
    constructor
    · intro other
      show (w.machine.threads.requestedPc.set thread.toNat target valid).get other = _
      rw [ThreadTable.get_set]
      by_cases same : thread.toNat = other.val <;> simp [Instr.jumpRequest?, same]
    · intro other
      simp [Instr.pauseRequest?, mapMachine]
  · simp only [setVector, ThreadTable.requestPc, valid, dif_neg, not_false_eq_true] at well
    cases well

theorem resetThreads_follows (w : World H) (origin : Nat) (range : ThreadRange) :
    Follows [.table .resetThreads (range, ())] w.machine.threads (w.resetThreads origin range).machine.threads := by
  unfold resetThreads resetRange
  simp only
  split
  · rename_i empty
    have outside (thread : Fin threadCount) : ¬ range.Covers thread.val := by
      rw [ThreadRange.isEmpty_eq, decide_eq_true_eq] at empty
      rintro ⟨above, below⟩
      omega
    refine follows_of_threads rfl ?_ ?_ <;> intro thread <;>
      simp [Instr.jumpRequest?, Instr.pauseRequest?, outside thread]
  · split
    · rename_i action
      have flag : (if range.action = 1 then 1 else 0 : UInt8) = range.action := by
        rcases action with zero | one
        · simp [zero]
        · simp [one]
      have noStop : range.action ≠ 2 := by
        rcases action with zero | one
        · simp [zero]
        · simp [one]
      constructor
      · intro thread
        simp [Instr.jumpRequest?, noStop, mapMachine, ThreadTable.requestPauseRange]
      · intro thread
        simp only [mapMachine, ThreadTable.requestPauseRange, ThreadTable.get_fillRange, decide_eq_true_eq, flag]
        by_cases covered : range.Covers thread.val <;> simp [Instr.pauseRequest?, covered, action]
    · rename_i noPause
      split
      · rename_i stop
        constructor
        · intro thread
          simp only [mapMachine, ThreadTable.requestStopRange, ThreadTable.get_fillRange]
          by_cases covered : range.Covers thread.val <;>
            simp [Instr.jumpRequest?, covered, stop, ThreadTable.stopRequest]
        · intro thread
          simp [Instr.pauseRequest?, noPause, mapMachine, ThreadTable.requestStopRange]
      · rename_i noStop
        refine follows_of_threads rfl ?_ ?_ <;> intro thread <;>
          simp [Instr.jumpRequest?, Instr.pauseRequest?, noPause, noStop]

variable [Host H]

theorem executeTable_follows {w : World H} {origin : Nat} {op : Opcode} {operands : Operands op.operands}
    (well : (w.executeTable origin op operands).1 = .ok ()) :
    Follows [.table op operands] w.machine.threads (w.executeTable origin op operands).2.machine.threads := by
  cases op with
  | setVec => exact setVector_follows well
  | resetThreads => exact resetThreads_follows w origin operands.1
  | call =>
    obtain ⟨script, callStack, machine⟩ := enter_changes w origin operands.1
    exact follows_of_threads (congrArg Machine.threads machine :) (fun _ => rfl) fun _ => rfl
  | ret =>
    obtain ⟨script, callStack, machine⟩ := leave_changes w origin
    exact follows_of_threads (congrArg Machine.threads machine :) (fun _ => rfl) fun _ => rfl
  | djnz =>
    obtain ⟨script, vars, machine⟩ := countDown_changes w operands.1 operands.2.1
    exact follows_of_threads (congrArg Machine.threads machine :) (fun _ => rfl) fun _ => rfl
  | jmpIf =>
    obtain ⟨script, machine⟩ := jumpIf_changes w origin operands.1
    exact follows_of_threads (congrArg Machine.threads machine :) (fun _ => rfl) fun _ => rfl
  | blit =>
    obtain ⟨shown, machine⟩ := blit_machine w operands.1
    exact follows_of_threads (congrArg Machine.threads machine :) (fun _ => rfl) fun _ => rfl
  | loadResource =>
    have machine := loadResource_machine w operands.1
    exact follows_of_threads (congrArg Machine.threads machine :) (fun _ => rfl) fun _ => rfl
  | _ => exact follows_of_threads rfl (fun _ => rfl) fun _ => rfl

theorem execute_follows {w : World H} {origin : Nat} {instr : Instr}
    (well : (w.execute origin instr).1 = .ok ()) :
    Follows [instr] w.machine.threads (w.execute origin instr).2.machine.threads := by
  cases instr with
  | table op operands => exact executeTable_follows well
  | background halved x y =>
    refine follows_of_threads ?_ (fun _ => rfl) fun _ => rfl
    rw [execute, drawBackground_machine]
  | sprite halved x y zoom => exact follows_of_threads rfl (fun _ => rfl) fun _ => rfl

/-- The requests of an instruction that goes well are written over those that stand. -/
theorem step_follows {w : World H} (well : w.step.1 = .ok ()) :
    Follows w.next?.toList w.machine.threads w.step.2.machine.threads := by
  obtain ⟨instr, script, read⟩ := read_of_ok well
  rw [step_of_read read] at well ⊢
  rw [next_of_read read]
  exact execute_follows well

theorem traced_follows : Traced fun result moments (w v : World H) =>
    result = .ok () → Follows (instrs moments) w.machine.threads v.machine.threads where
  rests _ _ _ := Follows.refl _
  ran well _ := by
    rw [instrs_of_ok well]
    exact step_follows well
  failed _ := nofun
  turned _ _ := nofun
  begun _ _ _ := Follows.refl _
  stored _ _ _ _ := ⟨(Follows.refl _).jump, (Follows.refl _).pause⟩
  append first second well := by
    rw [instrs_append]
    exact (first rfl).append (second well)

/-- After a run phase the last requests stand that its instructions wrote. -/
theorem runAll_follows {w : World H} (well : w.runAll.1 = .ok ()) :
    Follows w.frameInstrs w.machine.threads w.runAll.2.machine.threads := by
  have follows := traced_follows.loop (w.mapMachine fun m => { m with profile := {} })
  unfold runAll at well ⊢
  rcases ran : runThreads ThreadTable.order (w.mapMachine fun m => { m with profile := {} }) with ⟨fault | _, after⟩
  · simp only [ran] at well
    cases well
  · rw [ran] at follows
    exact follows rfl

/-! ### Commits -/

omit [Host H] in
theorem threads_commitThreads (m : Machine) (mark : Option Int16) : (m.commitThreads mark).threads = m.threads.commit := by
  cases mark <;> rfl

/-- Whatever was requested, a commit that goes well leaves a table whose requests have taken effect. -/
theorem threads_of_commit {w : World H} (well : w.commit.1 = .ok ()) :
    ∃ t : ThreadTable, w.commit.2.machine.threads = t.commit := by
  obtain ⟨result, machine⟩ := commit_eq (running_of_guarded well)
  rw [result] at well
  rw [machine]
  generalize Host.answers w.host w.machine.requestedPart = answers at well ⊢
  rcases answers with ⟨_ | fault | code, mark⟩
  · exact ⟨_, threads_commitThreads _ mark⟩
  · cases well
  · exact ⟨_, threads_commitThreads _ mark⟩

/-- A commit on a machine that runs and of which no switch is requested goes well. -/
theorem commit_of_noSwitch {w : World H} (running : w.machine.aborted = false)
    (noSwitch : w.machine.requestedPart = none) :
    w.commit.1 = .ok () ∧ w.commit.2.machine.threads = w.machine.threads.commit := by
  obtain ⟨result, machine⟩ := commit_eq running
  rw [noSwitch] at result machine
  rw [result, machine]
  exact ⟨rfl, threads_commitThreads _ _⟩

/-- What becomes of a thread from a run phase that began with the table `begun`, executed `instrs` and ended with the
    table `ended`, to the table `next` of the commit behind it. -/
structure Deferred (instrs : List Instr) (begun ended next : ThreadTable) (thread : Fin threadCount) : Prop where
  /-- A thread stops if the last jump requested of it is the one to stop. -/
  stopped : (instrs.filterMap (·.jumpRequest? thread)).getLast? = some 0xFFFE → next.pc.get thread = 0xFFFF
  /-- A thread goes where the last jump requested of it goes. -/
  moved : ∀ target, (instrs.filterMap (·.jumpRequest? thread)).getLast? = some target →
    target ≠ 0xFFFE → target ≠ 0xFFFF → next.pc.get thread = target
  /-- A thread goes on where its slice ended if no jump is requested of it, or if the last request takes all back. -/
  stayed : (instrs.filterMap (·.jumpRequest? thread)).getLast? = none ∨
    (instrs.filterMap (·.jumpRequest? thread)).getLast? = some 0xFFFF → next.pc.get thread = ended.pc.get thread
  /-- The paused flag is the last one requested. -/
  paused : ∀ action, (instrs.filterMap (·.pauseRequest? thread)).getLast? = some action →
    next.paused.get thread = action
  /-- If none is requested the flag is the one that was requested at the commit before. -/
  unpaused : (instrs.filterMap (·.pauseRequest? thread)).getLast? = none →
    next.paused.get thread = begun.requestedPaused.get thread
  /-- No jump stays requested. -/
  cleared : next.requestedPc.get thread = 0xFFFF

/-- Threads of a range get their requests one after the other without fail, and they are exactly those from the first
    one to the lowest six bits of the last one. -/
structure ResetsExactly (range : ThreadRange) : Prop where
  covers : ∀ thread, thread ∈ range.threads ↔
    range.first.toNat ≤ thread.toNat ∧ thread.toNat ≤ (range.last &&& 0x3F).toNat
  stops : ∀ t : ThreadTable, range.threads.foldlM (fun t thread => t.requestPc thread 0xFFFE) t =
    .ok (t.requestStopRange range.first.toNat (range.last &&& 0x3F).toNat)
  pauses : ∀ (t : ThreadTable) (paused : Bool),
    range.threads.foldlM (fun t thread => t.requestPause thread paused) t =
      .ok (t.requestPauseRange range.first.toNat (range.last &&& 0x3F).toNat paused)

omit [Host H] in
theorem resetsExactly (range : ThreadRange) : ResetsExactly range := by
  have valid (thread : UInt8) (member : thread ∈ range.threads) : thread.toNat < threadCount :=
    Nat.lt_of_le_of_lt (ThreadRange.mem_threads.mp member).2 range.final_lt
  refine ⟨fun _ => ThreadRange.mem_threads, fun t => ?_, fun t paused => ?_⟩
  · rw [ThreadTable.foldlM_requestPc valid, ThreadTable.fillEach_threads]
    rfl
  · rw [ThreadTable.foldlM_requestPause valid, ThreadTable.fillEach_threads]
    rfl

omit [Host H] in
theorem deferred_of_follows {instrs : List Instr} {t ended : ThreadTable} (follows : Follows instrs t.commit ended)
    (thread : Fin threadCount) : Deferred instrs t.commit ended ended.commit thread := by
  have request : ended.requestedPc.get thread =
      (instrs.filterMap (·.jumpRequest? thread)).getLast?.getD ThreadTable.noRequest := by
    rw [follows.jump]
    congr 1
    exact Vector.getElem_replicate _
  have pause := follows.pause thread
  have pc : ended.commit.pc.get thread =
      ThreadTable.committedPc (ended.pc.get thread) (ended.requestedPc.get thread) := Vector.getElem_zipWith _
  refine ⟨fun last => ?_, fun target last running asked => ?_, fun last => ?_, fun action last => ?_, fun last => ?_,
    Vector.getElem_replicate _⟩
  · rw [pc, request, last]
    rfl
  · rw [pc, request, last]
    simp only [ThreadTable.committedPc, Option.getD_some, ThreadTable.noRequest, ThreadTable.stopRequest, running, asked,
      if_false]
  · rw [pc, request]
    rcases last with last | last <;> rw [last] <;> rfl
  · rw [last] at pause
    exact pause
  · rw [last] at pause
    exact pause

/-- Requests take effect once, at the commit behind the frame in which they are made, and of several the last one
    does. A commit and a run phase go well, whatever happened to the variables and the host between the two, and no
    switch to another part is requested; then the next commit goes well, each thread goes on as the last request that
    an instruction of the run phase made of it says, and nothing stays requested. Resetting a range of threads never
    fails, nor does it end a slice. -/
theorem commit_applies_last_requests {start begun : World H} (committed : start.commit.1 = .ok ())
    (sameThreads : begun.machine.threads = start.commit.2.machine.threads) (ran : begun.runPhase.1 = .ok ())
    (noSwitch : begun.runPhase.2.machine.requestedPart = none) :
    begun.runPhase.2.commit.1 = .ok () ∧
    (∀ thread, Deferred begun.frameInstrs start.commit.2.machine.threads begun.runPhase.2.machine.threads
      begun.runPhase.2.commit.2.machine.threads thread) ∧
    (∀ range, ResetsExactly range) ∧
    ∀ (w : World H) (range : ThreadRange), w.next? = some (.table .resetThreads (range, ())) →
      w.step.1 = .ok () ∧ w.step.2.machine.yielded = w.machine.yielded := by
  obtain ⟨result, _, machine⟩ := guarded_of_running runAll (running_of_guarded ran)
  have follows := runAll_follows (result.symm.trans ran)
  have after : begun.runPhase.2.machine.threads = begun.runAll.2.machine.threads := by
    rw [runPhase, machine]
  obtain ⟨t, table⟩ := threads_of_commit committed
  obtain ⟨well, next⟩ := commit_of_noSwitch (runPhase_running ran) noSwitch
  refine ⟨well, fun thread => ?_, resetsExactly, fun w range standing => ?_⟩
  · rw [sameThreads, table, ← after] at follows
    rw [table, next]
    exact deferred_of_follows follows thread
  · rcases read : Instr.read .twoBytes w.machine.script with fault | ⟨instr, script⟩
    · rw [next?, read] at standing
      cases standing
    · rw [next?, read] at standing
      cases standing
      rw [step_of_read read]
      refine ⟨rfl, ?_⟩
      exact (execute_consumes (w.fetched _ script) _ _).yielded.trans (Bool.or_false _)

/-- The first thread sends the second one away, stops the second and the third, sends the second away again, pauses
    the second to the fourth, and lets the fourth go on. -/
def requesting : World Headless where
  machine :=
    { script :=
        { code :=
            #[0x08, 1, 0, 0x20, 0x0C, 1, 2, 2, 0x08, 1, 0, 0x30, 0x0C, 1, 0x43, 1, 0x0C, 3, 3, 0, 0x06] }
      threads := .started }
  host := {}

theorem commit_applies_last_requests_requesting :
    let begun := requesting.commit.2
    let next := begun.runPhase.2.commit.2.machine.threads
    requesting.commit.1 = .ok () ∧ begun.runPhase.1 = .ok () ∧ begun.runPhase.2.machine.requestedPart = none ∧
      begun.runPhase.2.commit.1 = .ok () ∧ next.pc.get 0 = begun.runPhase.2.machine.threads.pc.get 0 ∧
      next.pc.get 1 = 0x30 ∧ next.pc.get 2 = 0xFFFF ∧ next.paused.get 1 = 1 ∧ next.paused.get 3 = 0 := by
  intro begun next
  obtain ⟨committed, ran, noSwitch, instrs⟩ : requesting.commit.1 = .ok () ∧ begun.runPhase.1 = .ok () ∧
      begun.runPhase.2.machine.requestedPart = none ∧
      begun.frameInstrs =
        [.table .setVec ((1 : UInt8), (0x20 : UInt16), ()), .table .resetThreads (⟨1, 2, 2⟩, ()),
          .table .setVec ((1 : UInt8), (0x30 : UInt16), ()), .table .resetThreads (⟨1, 0x43, 1⟩, ()),
          .table .resetThreads (⟨3, 3, 0⟩, ()), .table .pause ()] := by
    decide +kernel
  obtain ⟨well, deferred, _⟩ := commit_applies_last_requests committed rfl ran noSwitch
  rw [instrs] at deferred
  exact ⟨committed, ran, noSwitch, well, (deferred 0).stayed (.inl rfl),
    (deferred 1).moved 0x30 rfl (by decide) (by decide), (deferred 2).stopped rfl, (deferred 1).paused 1 rfl,
    (deferred 3).paused 0 rfl⟩

end World

end Framescript
