import Framescript.Proofs.Answers

/-!
What a machine does not depend on. Machines are related in one way in the course of a slice, and in another between two
slices. If no instruction tells related machines apart, and neither do the ends of a slice and what is done to a machine
between two of them (`Indifferent`), then nothing that is done to them does, whatever their hosts, as long as these answer
alike (`Indifferent.run`).
-/
namespace Framescript

/-- The same result, and machines that are related. -/
structure SameOutcome {H K α : Type} (related : Machine → Machine → Prop) (a : Except Fault α × World H)
    (b : Except Fault α × World K) : Prop where
  result : b.1 = a.1
  machine : related a.2.machine b.2.machine

theorem SameOutcome.exists_eq {H K α : Type} {related : Machine → Machine → Prop} {a : Except Fault α × World H}
    {b : Except Fault α × World K} (same : SameOutcome related a b) :
    ∃ result w v, a = (result, w) ∧ b = (result, v) ∧ related w.machine v.machine := by
  obtain ⟨result, machine⟩ := same
  exact ⟨a.1, a.2, b.2, rfl, by rw [← result], machine⟩

theorem SameOutcome.imp {H K α : Type} {related weaker : Machine → Machine → Prop} {a : Except Fault α × World H}
    {b : Except Fault α × World K} (same : SameOutcome related a b) (weaken : ∀ {m n}, related m n → weaker m n) :
    SameOutcome weaker a b :=
  ⟨same.result, weaken same.machine⟩

/-- Machines that are related `within` a slice, or `between` two, are not told apart by what happens there. -/
structure Indifferent (within between : Machine → Machine → Prop) : Prop where
  step : ∀ {H K : Type} [Host H] [Host K] {w : World H} {v : World K},
    within w.machine v.machine → SameOutcome within w.step v.step
  yielded : ∀ {m n}, within m n → n.yielded = m.yielded
  limit : ∀ {m n}, within m n → n.options.instructionLimit = m.options.instructionLimit
  beginSlice : ∀ {H K : Type} {w : World H} {v : World K} (thread : Fin threadCount),
    between w.machine v.machine → within (w.beginSlice thread).machine (v.beginSlice thread).machine
  endSlice : ∀ {H K : Type} {w : World H} {v : World K} (thread : Fin threadCount),
    within w.machine v.machine → SameOutcome between (w.endSlice thread) (v.endSlice thread)
  ended : ∀ {m n}, within m n → between m n
  threads : ∀ {m n}, between m n → n.threads = m.threads
  requestedPart : ∀ {m n}, between m n → n.requestedPart = m.requestedPart
  aborted : ∀ {m n}, between m n → n.aborted = m.aborted
  unmeasured : ∀ {m n}, between m n → between { m with profile := {} } { n with profile := {} }
  stopped : ∀ {m n} (stop : Bool),
    between m n → between { m with aborted := m.aborted || stop } { n with aborted := n.aborted || stop }
  commitWith : ∀ {m n} (answers : Option (Except Fault Code) × Option Int16), between m n →
    (n.commitWith answers).1 = (m.commitWith answers).1 ∧ between (m.commitWith answers).2 (n.commitWith answers).2
  applyInput : ∀ {m n} (input : PlayerInput), between m n → between (m.applyInput input) (n.applyInput input)
  requestPart : ∀ {m n} (part : UInt16), between m n → between (m.requestPart part) (n.requestPart part)

namespace Indifferent

open World

variable {within between : Machine → Machine → Prop} (same : Indifferent within between)
variable {H K : Type} [Host H] [Host K] {w : World H} {v : World K}

include same

/-! ### Run phases -/

theorem runSlice (thread : Fin threadCount) (fuel : Nat) {w : World H} {v : World K}
    (related : within w.machine v.machine) :
    SameOutcome within (World.runSlice thread fuel w) (World.runSlice thread fuel v) := by
  induction fuel generalizing w v with
  | zero =>
    cases running : w.machine.yielded with
    | true =>
      rw [runSlice_of_yielded thread 0 running, runSlice_of_yielded thread 0 ((same.yielded related).trans running)]
      exact ⟨rfl, related⟩
    | false =>
      rw [runSlice_zero thread running, runSlice_zero thread ((same.yielded related).trans running), same.limit related]
      exact ⟨rfl, related⟩
  | succ fuel ih =>
    cases running : w.machine.yielded with
    | true =>
      rw [runSlice_of_yielded thread _ running, runSlice_of_yielded thread _ ((same.yielded related).trans running)]
      exact ⟨rfl, related⟩
    | false =>
      obtain ⟨result, w', v', stepped, stepped', machine⟩ := (same.step related).exists_eq
      rw [runSlice_succ thread fuel running, runSlice_succ thread fuel ((same.yielded related).trans running), stepped,
        stepped']
      cases result with
      | error fault => exact ⟨rfl, machine⟩
      | ok _ => exact ih machine

/-- Slices of related machines come to the same and leave them related, if both can be counted. -/
theorem runThread (related : between w.machine v.machine) (thread : Fin threadCount)
    (room : w.machine.profile.slices ≠ 0xFFFFFFFFFFFFFFFF) (room' : v.machine.profile.slices ≠ 0xFFFFFFFFFFFFFFFF) :
    SameOutcome between (w.runThread thread) (v.runThread thread) := by
  have begun := same.beginSlice thread related
  have limit : v.machine.options.instructionLimit = w.machine.options.instructionLimit :=
    same.limit (m := (w.beginSlice thread).machine) (n := (v.beginSlice thread).machine) begun
  obtain ⟨result, w', v', ran, ran', machine⟩ := (same.runSlice thread
    w.machine.options.instructionLimit.toNat begun).exists_eq
  rw [runThread_eq, runThread_eq, if_neg room, if_neg room', sliceEnd, sliceEnd, limit, ran, ran']
  cases result with
  | error fault => exact ⟨rfl, same.ended machine⟩
  | ok _ => exact same.endSlice thread machine

theorem runThreads (threads : List (Fin threadCount)) {w : World H} {v : World K} (related : between w.machine v.machine)
    (room : w.Room threads.length) (room' : v.Room threads.length) :
    SameOutcome between (World.runThreads threads w) (World.runThreads threads v) := by
  induction threads generalizing w v with
  | nil => exact ⟨rfl, related⟩
  | cons thread threads ih =>
    rw [World.runThreads, World.runThreads, same.threads related]
    by_cases runnable : w.machine.threads.isRunnable thread = true
    · obtain ⟨result, w', v', ran, ran', machine⟩ :=
        (same.runThread related thread room.ne_largest room'.ne_largest).exists_eq
      rw [if_pos runnable, if_pos runnable, ran, ran']
      cases result with
      | error fault => exact ⟨rfl, machine⟩
      | ok _ =>
        have later := room.later (congrArg Prod.fst ran)
        have later' := room'.later (congrArg Prod.fst ran')
        rw [ran] at later
        rw [ran'] at later'
        exact ih machine later later'
    · rw [if_neg runnable, if_neg runnable]
      exact ih related room.fewer room'.fewer

theorem runAll (related : between w.machine v.machine) : SameOutcome between w.runAll v.runAll := by
  have measured : between (w.mapMachine fun m => { m with profile := {} }).machine
      (v.mapMachine fun m => { m with profile := {} }).machine := same.unmeasured related
  have ended := same.runThreads ThreadTable.order measured w.room_order v.room_order
  obtain ⟨result, w', v', ran, ran', machine⟩ := ended.exists_eq
  rw [World.runAll, World.runAll, ran, ran']
  cases result with
  | error fault => exact ⟨rfl, machine⟩
  | ok _ => exact ⟨rfl, machine⟩

omit [Host H] [Host K] in
/-- If a phase comes to the same on two machines that run and leaves them related, then so it does under guard. -/
theorem guarded {phase : World H → Except Fault Unit × World H} {phase' : World K → Except Fault Unit × World K}
    (related : between w.machine v.machine)
    (alike : w.machine.aborted = false → SameOutcome between (phase w) (phase' v)) :
    SameOutcome between (World.guarded phase w) (World.guarded phase' v) := by
  have sameAborted := same.aborted related
  by_cases stopped : w.machine.aborted = true
  · rw [guarded_of_aborted phase stopped, guarded_of_aborted phase' (sameAborted.trans stopped)]
    exact ⟨rfl, related⟩
  · have running := Bool.eq_false_iff.mpr stopped
    obtain ⟨result, _, machine⟩ := guarded_of_running phase running
    obtain ⟨result', _, machine'⟩ := guarded_of_running phase' (sameAborted.trans running)
    refine ⟨by rw [result, result', (alike running).result], ?_⟩
    rw [machine, machine', (alike running).result]
    exact same.stopped (stops (phase w).1) (alike running).machine

theorem runPhase (related : between w.machine v.machine) : SameOutcome between w.runPhase v.runPhase :=
  same.guarded related fun _ => same.runAll related

/-! ### Frames -/

/-- What hosts answer alike takes effect alike. -/
theorem commit (related : between w.machine v.machine)
    (answers : w.machine.aborted = false →
      Host.answers v.host w.machine.requestedPart = Host.answers w.host w.machine.requestedPart) :
    SameOutcome between w.commit v.commit := by
  refine same.guarded related fun running => ?_
  have first := commitRequests_eq w
  have second := commitRequests_eq v
  rw [same.requestedPart related, answers running] at second
  obtain ⟨result, machine⟩ := same.commitWith (Host.answers w.host w.machine.requestedPart) related
  rw [← first, ← second] at result machine
  exact ⟨result, machine⟩

theorem framed {change : Machine → Machine} (related : between w.machine v.machine)
    (answers : w.machine.aborted = false →
      Host.answers v.host w.machine.requestedPart = Host.answers w.host w.machine.requestedPart)
    (changed : ∀ {m n : Machine}, between m n → between (change m) (change n)) :
    SameOutcome between (w.framed change) (v.framed change) := by
  obtain ⟨result, w', v', committed, committed', machine⟩ := (same.commit related answers).exists_eq
  rw [World.framed, World.framed, committed, committed']
  cases result with
  | error fault => exact ⟨rfl, machine⟩
  | ok _ => exact same.runPhase (changed machine)

theorem call (call : FrameCall) (related : between w.machine v.machine)
    (answers : call.commits = true → w.machine.aborted = false →
      Host.answers v.host w.machine.requestedPart = Host.answers w.host w.machine.requestedPart) :
    SameOutcome between (call.run w) (call.run v) := by
  cases call with
  | commit => exact same.commit related (answers rfl)
  | runPhase => exact same.runPhase related
  | runFrame => exact same.framed related (answers rfl) fun related => related
  | advance input => exact same.framed related (answers rfl) (same.applyInput input)

/-- An operation comes to the same on related machines, and leaves them related. -/
theorem run (op : Operation) (related : between w.machine v.machine)
    (answers : op.commits = true → w.machine.aborted = false →
      Host.answers v.host w.machine.requestedPart = Host.answers w.host w.machine.requestedPart) :
    SameOutcome between (op.run w) (op.run v) := by
  cases op with
  | frame call => exact same.call call related answers
  | applyInput input => exact ⟨rfl, same.applyInput input related⟩
  | requestPart part => exact ⟨rfl, same.requestPart part related⟩

end Indifferent

end Framescript
