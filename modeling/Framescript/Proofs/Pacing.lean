import Framescript.Host.Headless
import Framescript.Proofs.Residue
import Mathlib.Data.List.Infix

/-!
Pictures, sound and time. What a host does when it is told something, and what its clock says, never comes back to a
machine. So machines that differ only in whether pages are shown and paced, and in when the last one was shown, stay so
under everything that is done to them (`pacedApart_indifferent`), as long as their hosts answer alike, one answer after
the other (`unpacedTrace_eq`).
-/
namespace Framescript

/-! ### Machines that are paced apart -/

namespace Machine

/-- The machine with pages neither shown nor paced, and with the last one shown at time zero. -/
def unpaced (m : Machine) : Machine :=
  { m with lastShown := 0, options.render := false, options.pacing := false }

/-- Machines that differ at most in whether pages are shown and paced and in when the last one was shown. -/
def PacedApart (m n : Machine) : Prop :=
  n.unpaced = m.unpaced

theorem PacedApart.exists_eq {m n : Machine} (apart : PacedApart m n) : ∃ lastShown render pacing,
    n = { m with lastShown, options.render := render, options.pacing := pacing } := by
  refine ⟨n.lastShown, n.options.render, n.options.pacing, ?_⟩
  exact congrArg (fun unpaced : Machine => { unpaced with
    lastShown := n.lastShown, options.render := n.options.render, options.pacing := n.options.pacing }) apart

/-- What does not depend on them is the same. -/
theorem PacedApart.same {α : Type} {m n : Machine} (apart : PacedApart m n) (view : Machine → α)
    (blind : ∀ m : Machine, view m = view m.unpaced) : view n = view m := by
  rw [blind n, blind m, apart]

theorem PacedApart.map {m n : Machine} (apart : PacedApart m n) (change : Machine → Machine)
    (blind : ∀ m : Machine, (change m).unpaced = (change m.unpaced).unpaced) : PacedApart (change m) (change n) :=
  apart.same (fun m => (change m).unpaced) blind

theorem PacedApart.twin {m n : Machine} (apart : PacedApart m n) : Twin m n := by
  obtain ⟨lastShown, render, pacing, rfl⟩ := apart.exists_eq
  exact ⟨{ m.residue with lastShown, render, pacing }, rfl⟩

/-- Twins that stand at the same instruction, with the same measurements and the same keys, are paced apart. -/
theorem Twin.pacedApart {m n : Machine} (twin : Twin m n) (instrOffset : n.instrOffset = m.instrOffset)
    (profile : n.profile = m.profile) (pause : n.keys.pause = m.keys.pause) : PacedApart m n := by
  obtain ⟨r, rfl⟩ := twin
  have sameOffset : r.instrOffset = m.instrOffset := instrOffset
  have sameProfile : r.profile = m.profile := profile
  have samePause : r.pauseKey = m.keys.pause := pause
  rw [PacedApart, withResidue, sameOffset, sameProfile, samePause]
  rfl

end Machine

namespace World

open Machine (PacedApart)

variable {H K : Type} [Host H] [Host K] {w : World H} {v : World K}

theorem execute_pacedApart (apart : PacedApart w.machine v.machine) (origin : Nat) (instr : Instr) :
    SameOutcome PacedApart (w.execute origin instr) (v.execute origin instr) := by
  obtain ⟨result, twin⟩ := execute_twin apart.twin origin instr
  have here := execute_consumes w origin instr
  have there := execute_consumes v origin instr
  have sameOffset := apart.same Machine.instrOffset fun _ => rfl
  have sameProfile := apart.same Machine.profile fun _ => rfl
  have sameKeys := apart.same Machine.keys fun _ => rfl
  refine ⟨result, twin.pacedApart ?_ ?_ ?_⟩
  · rw [there.instrOffset, here.instrOffset, sameOffset]
  · rw [there.profile, here.profile, sameProfile]
  · rw [there.keys, here.keys, sameKeys]

theorem step_pacedApart (apart : PacedApart w.machine v.machine) : SameOutcome PacedApart w.step v.step := by
  obtain ⟨machine, host, log⟩ := v
  obtain ⟨lastShown, render, pacing, rfl⟩ := apart.exists_eq
  rw [step_eq, step_eq]
  rcases Instr.read .twoBytes w.machine.script with fault | ⟨instr, script⟩
  · exact ⟨rfl, rfl⟩
  · refine execute_pacedApart ?_ _ _
    rfl

omit [Host H] [Host K] in
theorem endSlice_pacedApart (apart : PacedApart w.machine v.machine) (thread : Fin threadCount) :
    SameOutcome PacedApart (w.endSlice thread) (v.endSlice thread) := by
  obtain ⟨machine, host, log⟩ := v
  obtain ⟨lastShown, render, pacing, rfl⟩ := apart.exists_eq
  unfold endSlice
  simp only
  cases w.machine.script.offset16 with
  | error fault => exact ⟨rfl, rfl⟩
  | ok pc => exact ⟨rfl, rfl⟩

end World

namespace Machine

theorem commitWith_pacedApart {m n : Machine} (apart : PacedApart m n)
    (answers : Option (Except Fault Code) × Option Int16) :
    (n.commitWith answers).1 = (m.commitWith answers).1 ∧
      PacedApart (m.commitWith answers).2 (n.commitWith answers).2 := by
  obtain ⟨lastShown, render, pacing, rfl⟩ := apart.exists_eq
  rcases answers with ⟨_ | _ | code, _ | mark⟩ <;> exact ⟨rfl, rfl⟩

/-- Nothing that is done to machines depends on whether pages are shown and paced, or on the time. -/
theorem pacedApart_indifferent : Indifferent PacedApart PacedApart where
  step := World.step_pacedApart
  yielded apart := apart.same Machine.yielded fun _ => rfl
  limit apart := apart.same (·.options.instructionLimit) fun _ => rfl
  beginSlice thread apart := apart.map (fun m =>
    { m with
      script := m.script.jump (m.threads.pc.get thread), callStack := m.callStack.rewind
      profile.slices := m.profile.slices + 1, yielded := false }) fun _ => rfl
  endSlice thread apart := World.endSlice_pacedApart apart thread
  ended apart := apart
  threads apart := apart.same Machine.threads fun _ => rfl
  requestedPart apart := apart.same Machine.requestedPart fun _ => rfl
  aborted apart := apart.same Machine.aborted fun _ => rfl
  unmeasured apart := apart.map (fun m => { m with profile := {} }) fun _ => rfl
  stopped stop apart := apart.map (fun m => { m with aborted := m.aborted || stop }) fun _ => rfl
  commitWith answers apart := commitWith_pacedApart apart answers
  applyInput input apart := apart.map (·.applyInput input) fun _ => rfl
  requestPart part apart := apart.map (·.requestPart part) fun _ => rfl

end Machine

/-! ### Answers in order -/

/-- Two sequences that are the same as far as both go. -/
def Agree {α : Type} (first second : List α) : Prop :=
  first <+: second ∨ second <+: first

/-- Of sequences that agree, parts of the same length are the same, and what follows agrees. -/
theorem Agree.append {α : Type} {a b as bs : List α} (length : a.length = b.length) (agree : Agree (a ++ as) (b ++ bs)) :
    a = b ∧ Agree as bs := by
  obtain ⟨rest, same⟩ | ⟨rest, same⟩ := agree
  · rw [List.append_assoc] at same
    obtain ⟨heads, tails⟩ := List.append_inj same length
    exact ⟨heads, .inl ⟨rest, tails⟩⟩
  · rw [List.append_assoc] at same
    obtain ⟨heads, tails⟩ := List.append_inj same length.symm
    exact ⟨heads.symm, .inr ⟨rest, tails⟩⟩

/-- The answers of a host about the music: one, unless a part cannot be opened. -/
def Host.marksIn : Option (Except Fault Code) × Option Int16 → List (Option Int16)
  | (some (.error _), _) => []
  | (_, mark) => [mark]

theorem Host.length_marksIn (answers : Option (Except Fault Code) × Option Int16) :
    (Host.marksIn answers).length = answers.1.elim 1 fun opened => if opened.isOk then 1 else 0 := by
  rcases answers with ⟨_ | fault | code, mark⟩ <;> rfl

section answers

variable {H K : Type} [Host H] [Host K]

/-- A host is asked for a part if and only if one is requested. -/
theorem Host.isSome_answers (host : H) (request : Option UInt16) :
    (Host.answers host request).1.isSome = request.isSome := by
  cases request with
  | none => rfl
  | some part =>
    simp only [answers]
    rcases Host.openPart part (Host.perform .stopAll host) with ⟨fault | code, later⟩ <;> rfl

theorem Host.answers_mark_of_fault {host : H} {request : Option UInt16} {fault : Fault}
    (failed : (Host.answers host request).1 = some (.error fault)) : (Host.answers host request).2 = none := by
  cases request with
  | none => cases failed
  | some part =>
    simp only [answers] at failed ⊢
    rcases opened : Host.openPart part (Host.perform .stopAll host) with ⟨fault | code, later⟩
    · rfl
    · simp only [opened] at failed
      cases failed

namespace Operation

/-- Whether the host is asked anything in an operation. -/
def asks (op : Operation) (w : World H) : Bool :=
  op.commits && !w.machine.aborted

/-- What the host answers in an operation when it is asked for a part. -/
def openings (op : Operation) (w : World H) : List (Except Fault Code) :=
  if op.asks w then (Host.answers w.host w.machine.requestedPart).1.toList else []

/-- What the host answers in an operation when it is asked for the mark of the music. -/
def marks (op : Operation) (w : World H) : List (Option Int16) :=
  if op.asks w then Host.marksIn (Host.answers w.host w.machine.requestedPart) else []

/-- All that the host answers, while operations are done one after the other, when it is asked for a part. -/
def allOpenings : List Operation → World H → List (Except Fault Code)
  | [], _ => []
  | op :: ops, w => op.openings w ++ allOpenings ops (op.run w).2

/-- All that the host answers, while operations are done one after the other, when it is asked for a mark. -/
def allMarks : List Operation → World H → List (Option Int16)
  | [], _ => []
  | op :: ops, w => op.marks w ++ allMarks ops (op.run w).2

/-- The results of operations that are done one after the other, whatever comes of them, and the machine after each,
    but for whether pages are shown and paced and when the last one was shown. -/
def unpacedTrace : List Operation → World H → List (Except Fault Unit × Machine)
  | [], _ => []
  | op :: ops, w => ((op.run w).1, (op.run w).2.machine.unpaced) :: unpacedTrace ops (op.run w).2

end Operation

/-- Hosts that give the same answers about the part and about the music answer alike. -/
theorem Host.answers_eq_of_parts {host : H} {host' : K} {request : Option UInt16}
    (opened : (Host.answers host request).1 = (Host.answers host' request).1)
    (marks : Host.marksIn (Host.answers host request) = Host.marksIn (Host.answers host' request)) :
    Host.answers host' request = Host.answers host request := by
  have noMark {fault : Fault} (failed : (Host.answers host request).1 = some (.error fault)) :
      (Host.answers host' request).2 = (Host.answers host request).2 := by
    rw [answers_mark_of_fault failed, answers_mark_of_fault (opened.symm.trans failed)]
  refine Prod.ext opened.symm ?_
  generalize Host.answers host request = first at opened marks noMark ⊢
  generalize Host.answers host' request = second at opened marks noMark ⊢
  obtain ⟨part, mark⟩ := first
  obtain ⟨_, mark'⟩ := second
  cases opened
  rcases part with _ | fault | code
  · exact (List.singleton_inj.mp marks).symm
  · exact noMark rfl
  · exact (List.singleton_inj.mp marks).symm

/-- Hosts that give the same answer about the part, and of which the marks agree from here on, answer alike. -/
theorem Host.answers_of_marks {host : H} {host' : K} {request : Option UInt16}
    (opened : (Host.answers host request).1 = (Host.answers host' request).1) {marks marks' : List (Option Int16)}
    (marked : Agree (Host.marksIn (Host.answers host request) ++ marks)
      (Host.marksIn (Host.answers host' request) ++ marks')) :
    Host.answers host' request = Host.answers host request ∧ Agree marks marks' := by
  have asked : (Host.marksIn (Host.answers host request)).length =
      (Host.marksIn (Host.answers host' request)).length := by
    rw [Host.length_marksIn, Host.length_marksIn, opened]
  obtain ⟨sameMarks, later⟩ := marked.append asked
  exact ⟨Host.answers_eq_of_parts opened sameMarks, later⟩

/-- If all that hosts of machines that are paced apart answer from an operation on agrees, then they answer alike in that
    operation, and what they answer later agrees. -/
theorem Operation.answers_of_agree (op : Operation) {w : World H} {v : World K}
    (apart : Machine.PacedApart w.machine v.machine) {openings openings' : List (Except Fault Code)}
    {marks marks' : List (Option Int16)} (opened : Agree (op.openings w ++ openings) (op.openings v ++ openings'))
    (marked : Agree (op.marks w ++ marks) (op.marks v ++ marks')) :
    (op.asks w = true →
      Host.answers v.host w.machine.requestedPart = Host.answers w.host w.machine.requestedPart) ∧
      Agree openings openings' ∧ Agree marks marks' := by
  have sameAsks : op.asks v = op.asks w := apart.same (fun m => op.commits && !m.aborted) fun _ => rfl
  have sameRequest := apart.same Machine.requestedPart fun _ => rfl
  unfold Operation.openings at opened
  unfold Operation.marks at marked
  rw [sameAsks, sameRequest] at opened marked
  by_cases asks : op.asks w = true
  · rw [if_pos asks, if_pos asks] at opened marked
    have asked : (Host.answers w.host w.machine.requestedPart).1.toList.length =
        (Host.answers v.host w.machine.requestedPart).1.toList.length := by
      rw [Option.length_toList, Option.length_toList, Host.isSome_answers, Host.isSome_answers]
    obtain ⟨sameOpening, laterOpenings⟩ := opened.append asked
    have sameOpened := congrArg List.head? sameOpening
    rw [Option.head?_toList, Option.head?_toList] at sameOpened
    obtain ⟨same, laterMarks⟩ := Host.answers_of_marks sameOpened marked
    exact ⟨fun _ => same, laterOpenings, laterMarks⟩
  · rw [if_neg asks, if_neg asks] at opened marked
    exact ⟨fun asked => absurd asked asks, opened, marked⟩

/-- Rendering, sound and time never reach a machine: machines that differ at most in whether pages are shown and paced
    and in when the last one was shown come to the same, operation by operation, whatever their hosts do and whatever
    their clocks say, as long as the hosts give the same codes of parts and the same marks in the same order. -/
theorem Operation.unpacedTrace_eq (ops : List Operation) (w : World H) (v : World K)
    (apart : v.machine.unpaced = w.machine.unpaced) (openings : Agree (allOpenings ops w) (allOpenings ops v))
    (marks : Agree (allMarks ops w) (allMarks ops v)) : unpacedTrace ops v = unpacedTrace ops w := by
  induction ops generalizing w v with
  | nil => rfl
  | cons op ops ih =>
    obtain ⟨answers, laterOpenings, laterMarks⟩ := op.answers_of_agree apart openings marks
    obtain ⟨result, machine⟩ := Machine.pacedApart_indifferent.run op apart fun commits running =>
      answers (by rw [asks, commits, running]; rfl)
    rw [unpacedTrace, unpacedTrace, result, ih _ _ machine laterOpenings laterMarks]
    exact congrArg (fun unpaced => (_, unpaced) :: _) machine

end answers

/-- A script that asks for a delay, shows a page and switches to another part, once paced and not shown, and once shown
    and not paced, with another time on the clock. -/
theorem Operation.unpacedTrace_eq_switching :
    let code : Code := #[0x00, 0xFF, 0, 5, 0x10, 0, 0x19, 0x3E, 0x89, 0x06]
    let program : Program := { parts := [⟨Part.first, code⟩, ⟨Part.last, #[0x03, 1, 0, 1, 0x06, 0x07, 0, 0]⟩] }
    let machine : Machine := { script := { code }, threads := .started, currentPart := some Part.first }
    let w : World Headless :=
      { machine := { machine with options.render := false, options.pacing := true }, host := { program } }
    let v : World Headless :=
      { machine := { machine with lastShown := 9, options.render := true, options.pacing := false }
        host := { program, now := 77, lastPage := some 3 } }
    let ops : List Operation := [.frame (.advance { up := true, keys := ⟨true, false⟩ }), .frame .runFrame]
    v.machine.unpaced = w.machine.unpaced ∧ Agree (allOpenings ops w) (allOpenings ops v) ∧
      Agree (allMarks ops w) (allMarks ops v) ∧ unpacedTrace ops v = unpacedTrace ops w := by
  intro code program machine w v ops
  have same : allOpenings ops w = allOpenings ops v ∧ allMarks ops w = allMarks ops v := by decide +kernel
  have openings : Agree (allOpenings ops w) (allOpenings ops v) := .inl ⟨[], (List.append_nil _).trans same.1⟩
  have marks : Agree (allMarks ops w) (allMarks ops v) := .inl ⟨[], (List.append_nil _).trans same.2⟩
  exact ⟨rfl, openings, marks, unpacedTrace_eq ops w v rfl openings marks⟩

end Framescript
