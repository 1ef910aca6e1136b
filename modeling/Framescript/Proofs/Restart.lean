import Framescript.Proofs.LoadedCode
import Framescript.Proofs.Pacing

/-!
Starting over. A reset does not bring back everything that a new machine has: the measurements and the time of the last
page stay. They are residue, so an engine that was reset goes on like a new one, whatever happened to it before
(`Engine.reset_eq_start`).
-/
namespace Framescript

/-- What a host that has one answer for each part answers about the part that is requested. -/
theorem Host.Steady.answers_fst {H : Type} [Host H] {answer : UInt16 → Except Fault Code} {host : H}
    (steady : Host.Steady answer host) (request : Option UInt16) :
    (Host.answers host request).1 = request.map answer := by
  cases request with
  | none => rfl
  | some part =>
    have opened : (Host.openPart part (Host.perform .stopAll host)).1 = answer part := steady [.tell .stopAll] part
    simp only [Host.answers, Option.map_some, ← opened]
    rcases Host.openPart part (Host.perform .stopAll host) with ⟨fault | code, later⟩ <;> rfl

theorem Host.lasting_steady {H : Type} [Host H] (answer : UInt16 → Except Fault Code) :
    Lasting fun (_ : Machine) (host : H) => Host.Steady answer host :=
  Lasting.of_met fun request steady => steady.meet request

namespace Engine

open Machine (Alike)

variable {H K : Type} [Host H] [Host K]

/-! ### Moves -/

/-- What the host answers in a move when it is asked for the mark of the music. -/
def Move.marks (move : Move) (e : Engine H) : List (Option Int16) :=
  move.operation?.elim [] (·.marks e.world)

/-- All that the host answers, while moves are made one after the other, when it is asked for a mark. -/
def marks : List Move → Engine H → List (Option Int16)
  | [], _ => []
  | move :: moves, e => move.marks e ++ marks moves (move.run e).2

/-- The results of moves that are made one after the other, whatever comes of them, with what is seen of the machine
    and the state hash after each. -/
def report : List Move → Engine H → List (Except Fault Unit × Visible × Digest)
  | [], _ => []
  | move :: moves, e =>
    ((move.run e).1, (move.run e).2.world.machine.visible, (move.run e).2.stateHash) :: report moves (move.run e).2

/-- A move comes to the same on machines that are alike, if their hosts answer alike, and leaves them alike. -/
theorem move_of_alike (move : Move) {e : Engine H} {e' : Engine K} (alike : Alike e.world.machine e'.world.machine)
    (answers : ∀ op, move.operation? = some op → op.asks e.world = true →
      Host.answers e'.world.host e.world.machine.requestedPart =
        Host.answers e.world.host e.world.machine.requestedPart) :
    (move.run e').1 = (move.run e).1 ∧ Alike (move.run e).2.world.machine (move.run e').2.world.machine := by
  cases is : move.operation? with
  | none =>
    obtain ⟨fault, refuses⟩ := Move.run_of_refused is
    rw [refuses e, refuses e']
    exact ⟨rfl, alike⟩
  | some op =>
    obtain ⟨result, world⟩ := Move.run_of_operation is e
    obtain ⟨result', world'⟩ := Move.run_of_operation is e'
    have same := Machine.twin_alike_indifferent.run op alike fun commits running =>
      answers op is (by rw [Operation.asks, commits, running]; rfl)
    rw [result, result', world, world']
    exact ⟨same.result, same.machine⟩

omit [Host H] [Host K] in
theorem stateHash_of_visible {e : Engine H} {e' : Engine K}
    (same : e'.world.machine.visible = e.world.machine.visible) : e'.stateHash = e.stateHash := by
  have vars : e'.world.machine.vars = e.world.machine.vars := congrArg Visible.vars same
  rw [stateHash, stateHash, Machine.stateHash, Machine.stateHash, Machine.hashedBytes, Machine.hashedBytes, vars]

/-- If the hosts of machines that are alike give the same answer about the part, and their marks agree from a move on,
    then they answer alike in that move, and later marks agree. -/
theorem Move.answers_of_agree (move : Move) {e : Engine H} {e' : Engine K}
    (alike : Alike e.world.machine e'.world.machine)
    (opened : (Host.answers e.world.host e.world.machine.requestedPart).1 =
      (Host.answers e'.world.host e.world.machine.requestedPart).1)
    {marks marks' : List (Option Int16)} (marked : Agree (move.marks e ++ marks) (move.marks e' ++ marks')) :
    (∀ op, move.operation? = some op → op.asks e.world = true →
      Host.answers e'.world.host e.world.machine.requestedPart =
        Host.answers e.world.host e.world.machine.requestedPart) ∧ Agree marks marks' := by
  have sameRequest : e'.world.machine.requestedPart = e.world.machine.requestedPart :=
    congrArg Visible.requestedPart alike.visible
  have sameAborted : e'.world.machine.aborted = e.world.machine.aborted := congrArg Visible.aborted alike.visible
  unfold Move.marks at marked
  cases is : move.operation? with
  | none =>
    rw [is] at marked
    exact ⟨nofun, marked⟩
  | some op =>
    have sameAsks : op.asks e'.world = op.asks e.world := by rw [Operation.asks, Operation.asks, sameAborted]
    simp only [is, Option.elim_some, Operation.marks, sameAsks, sameRequest] at marked
    by_cases asks : op.asks e.world = true
    · rw [if_pos asks, if_pos asks] at marked
      obtain ⟨same, later⟩ := Host.answers_of_marks opened marked
      exact ⟨fun _ _ _ => same, later⟩
    · rw [if_neg asks, if_neg asks] at marked
      refine ⟨fun other isOther asked => ?_, marked⟩
      cases isOther
      exact absurd asked asks

/-- Engines with machines that are alike go on alike, if their hosts have the same answer for each part and give the
    same marks. -/
theorem report_of_alike {answer : UInt16 → Except Fault Code} (moves : List Move) {e : Engine H} {e' : Engine K}
    (alike : Alike e.world.machine e'.world.machine) (steady : Host.Steady answer e.world.host)
    (steady' : Host.Steady answer e'.world.host) (marked : Agree (marks moves e) (marks moves e')) :
    report moves e' = report moves e := by
  induction moves generalizing e e' with
  | nil => rfl
  | cons move moves ih =>
    have opened : (Host.answers e.world.host e.world.machine.requestedPart).1 =
        (Host.answers e'.world.host e.world.machine.requestedPart).1 := by
      rw [steady.answers_fst, steady'.answers_fst]
    obtain ⟨answers, later⟩ := move.answers_of_agree alike opened marked
    obtain ⟨result, machine⟩ := move_of_alike move alike answers
    have stays := (Host.lasting_steady answer).move steady move
    have stays' := (Host.lasting_steady answer).move steady' move
    rw [report, report, result, machine.visible, stateHash_of_visible machine.visible, ih machine stays stays' later]

/-! ### Resets -/

/-- If one of two hosts with the same answers starts a part, the other does so as well, with the same code. -/
theorem startPart_of_steady {answer : UInt16 → Except Fault Code} {w : World H} {v : World K}
    (steady : Host.Steady answer w.host) (steady' : Host.Steady answer v.host) {part : UInt16}
    (well : (w.startPart part).1 = .ok ()) :
    ∃ code host host' log log',
      w.startPart part = (.ok (), { machine := w.machine.onPart part code, host, log }) ∧
      v.startPart part = (.ok (), { machine := v.machine.onPart part code, host := host', log := log' }) := by
  have answers : (Host.openPart part (Host.perform .stopAll w.host)).1 = answer part := steady [.tell .stopAll] part
  have answers' : (Host.openPart part (Host.perform .stopAll v.host)).1 = answer part := steady' [.tell .stopAll] part
  obtain ⟨fault, host, -, ran⟩ | ⟨code, host, log, opens, ran⟩ := w.startPart_cases part
  · rw [ran] at well
    cases well
  obtain ⟨fault, host', opens', -⟩ | ⟨code', host', log', opens', ran'⟩ := v.startPart_cases part
  · rw [opens] at answers
    rw [opens', ← answers] at answers'
    cases answers'
  · rw [opens] at answers
    rw [opens', ← answers] at answers'
    cases answers'
    exact ⟨code, host, host', log, log', ran, ran'⟩

/-- A reset that goes well makes an engine new. Whatever happened to it before, if its host has one answer for each part,
    then a new engine with the same settings, on a host with the same answers, starts on the same part; the machines are
    the same but for the measurements, the time of the last page and what the last slice left; and whatever moves are made
    from then on, they come to the same on both, with the same machine to be seen after each and the same state hash, as
    long as the hosts give the same marks. -/
theorem reset_eq_start {answer : UInt16 → Except Fault Code} {e : Engine H} {host : K}
    (steady : Host.Steady answer e.world.host) (steady' : Host.Steady answer host) {part : UInt16}
    (well : (e.reset part).1 = .ok ()) :
    ∃ again fresh, e.reset part = (.ok (), again) ∧ start host e.world.machine.options part = (.ok (), fresh) ∧
      again.world.machine = { fresh.world.machine with
        yielded := e.world.machine.yielded, instrOffset := e.world.machine.instrOffset
        lastShown := e.world.machine.lastShown, profile := e.world.machine.profile } ∧
      ∀ moves, Agree (marks moves fresh) (marks moves again) → report moves again = report moves fresh := by
  let blank : World K := { machine := { options := e.world.machine.options }, host }
  have resets : e.reset part =
      (((e.world.mapMachine (·.reset)).startPart part).1,
        { e with world := ((e.world.mapMachine (·.reset)).startPart part).2 }) := rfl
  have steadyBefore : Host.Steady answer (e.world.mapMachine (·.reset)).host := steady
  rw [resets] at well
  obtain ⟨code, later, later', log, log', ran, ran'⟩ := startPart_of_steady (v := blank) steadyBefore steady' well
  have stays := (Host.lasting_steady answer).startPart steadyBefore part
  have stays' := (Host.lasting_steady answer).startPart (w := blank) steady' part
  rw [ran] at resets stays
  rw [ran'] at stays'
  have starts : ∃ log, start host e.world.machine.options part =
      (.ok (), { world := { machine := blank.machine.onPart part code, host := later', log } }) := by
    simp only [start]
    rw [ran']
    exact ⟨_, rfl⟩
  obtain ⟨freshLog, starts⟩ := starts
  refine ⟨_, _, resets, starts, rfl, fun moves marked => ?_⟩
  exact report_of_alike moves ⟨e.world.machine.reset.residue, rfl⟩ stays' stays marked

/-- An engine that has stopped, because of a part that there is not, starts over and then goes to the last part. -/
theorem reset_eq_start_twoParts :
    let begun := (start twoParts .headless Part.first).2
    let e := Use.after [.change (.move (.requestPart 16005)), .change (.move .frame)] begun
    let moves : List Move := [.advance {}, .token "?".toList, .frame]
    e.world.machine.aborted = true ∧ (e.reset Part.first).1 = .ok () ∧
      Agree (marks moves begun) (marks moves (e.reset Part.first).2) ∧
      report moves (e.reset Part.first).2 = report moves begun := by
  intro begun e moves
  have facts : e.world.machine.aborted = true ∧ e.world.machine.options = .headless ∧
      e.world.host.program = twoParts.program ∧ (e.reset Part.first).1 = .ok () ∧
      marks moves begun = marks moves (e.reset Part.first).2 := by decide +kernel
  obtain ⟨aborted, options, program, well, same⟩ := facts
  have steady := e.world.host.steady
  rw [program] at steady
  obtain ⟨again, fresh, resets, starts, -, alike⟩ := reset_eq_start steady twoParts.steady well
  rw [options] at starts
  have marked : Agree (marks moves begun) (marks moves (e.reset Part.first).2) := .inl ⟨[], (List.append_nil _).trans same⟩
  refine ⟨aborted, well, marked, ?_⟩
  have isAgain : (e.reset Part.first).2 = again := congrArg Prod.snd resets
  have isFresh : begun = fresh := congrArg Prod.snd starts
  rw [isAgain, isFresh] at marked ⊢
  exact alike moves marked

end Engine

end Framescript
