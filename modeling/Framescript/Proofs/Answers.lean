import Framescript.Proofs.Untouched

/-!
What a machine hears from its host. When requests take effect, the host comes into play only by what it
answers: the code of a part, and the mark of the music (`commitRequests_eq`).
-/
namespace Framescript

/-- What a host answers when requests take effect: the code of the part that is requested, if one is, and the
    mark of the music, which is asked for unless the part cannot be opened. -/
def Host.answers {H : Type} [Host H] (host : H) : Option UInt16 → Option (Except Fault Code) × Option Int16
  | none => (none, (Host.takeMusicMark host).1)
  | some part =>
    match Host.openPart part (Host.perform .stopAll host) with
    | (.error fault, _) => (some (.error fault), none)
    | (.ok code, host) => (some (.ok code), (Host.takeMusicMark host).1)

namespace Machine

/-- The machine with a mark of the music, if there is one, and with what is requested of its threads in effect. -/
def commitThreads (m : Machine) (mark : Option Int16) : Machine :=
  let m := mark.elim m (m.setVariable Variables.musicMark)
  { m with threads := m.threads.commit }

/-- The machine at the beginning of the code of a part. -/
def onPart (m : Machine) (part : UInt16) (code : Code) : Machine :=
  { m.setVariable Variables.partFlag partStarted with
    script := { code }, threads := .started, currentPart := some part }

/-- What is requested of a machine takes effect, given what its host answers. -/
def commitWith (m : Machine) : Option (Except Fault Code) × Option Int16 → Except Fault Unit × Machine
  | (none, mark) => (.ok (), m.commitThreads mark)
  | (some (.error fault), _) =>
    (.error fault, { m with requestedPart := none }.setVariable Variables.partFlag partStarted)
  | (some (.ok code), mark) =>
    let m := m.setVariable Variables.partFlag partStarted
    let m := { m with script := { code }, threads := .started, currentPart := m.requestedPart, requestedPart := none }
    (.ok (), m.commitThreads mark)

end Machine

namespace World

variable {H : Type} [Host H]

/-- All that the start of a part can come to: the part cannot be opened, and the machine goes on as it was, but
    with the part flag set, or the machine is at the beginning of its code. -/
theorem startPart_cases (w : World H) (part : UInt16) :
    (∃ fault host, Host.openPart part (Host.perform .stopAll w.host) = (.error fault, host) ∧
      w.startPart part =
        (.error fault, { w with machine := w.machine.setVariable Variables.partFlag Machine.partStarted, host })) ∨
    ∃ code host log, Host.openPart part (Host.perform .stopAll w.host) = (.ok code, host) ∧
      w.startPart part = (.ok (), { machine := w.machine.onPart part code, host, log }) := by
  have asked : ((w.call .stopAll).setVariable Variables.partFlag Machine.partStarted).host =
      Host.perform .stopAll w.host := rfl
  unfold startPart
  simp only [asked]
  cases opened : Host.openPart part (Host.perform .stopAll w.host) with
  | mk result host =>
    cases result with
    | error fault => exact .inl ⟨fault, host, rfl, rfl⟩
    | ok code => exact .inr ⟨code, host, _, rfl, rfl⟩

theorem takeMusicMark_commit (w : World H) :
    (w.takeMusicMark.mapMachine fun m => { m with threads := m.threads.commit }).machine =
      w.machine.commitThreads (Host.takeMusicMark w.host).1 := by
  unfold takeMusicMark
  cases Host.takeMusicMark w.host with
  | mk mark host => cases mark <;> rfl

/-- When requests take effect, the host matters only by what it answers. -/
theorem commitRequests_eq (w : World H) :
    (w.commitRequests.1, w.commitRequests.2.machine) =
      w.machine.commitWith (Host.answers w.host w.machine.requestedPart) := by
  unfold commitRequests switchPart
  cases requested : w.machine.requestedPart with
  | none =>
    simp only [takeMusicMark_commit]
    rfl
  | some part =>
    obtain ⟨fault, host, opened, started⟩ | ⟨code, host, log, opened, started⟩ :=
      (w.mapMachine fun m => { m with requestedPart := none }).startPart_cases part
    · have opened : Host.openPart part (Host.perform .stopAll w.host) = (.error fault, host) := opened
      simp only [started, Host.answers, opened]
      rfl
    · have opened : Host.openPart part (Host.perform .stopAll w.host) = (.ok code, host) := opened
      simp only [started, Host.answers, opened, takeMusicMark_commit, Machine.commitWith, Machine.onPart]
      rw [← requested]
      rfl

/-- What comes of a commit on a machine that runs. -/
theorem commit_eq {w : World H} (running : w.machine.aborted = false) :
    let committed := w.machine.commitWith (Host.answers w.host w.machine.requestedPart)
    w.commit.1 = committed.1 ∧
      w.commit.2.machine = { committed.2 with aborted := committed.2.aborted || stops committed.1 } := by
  obtain ⟨result, _, machine⟩ := guarded_of_running commitRequests running
  rw [← commitRequests_eq w, commit, result, machine]
  exact ⟨rfl, rfl⟩

/-- A frame in which the machine is changed between its two phases. -/
def framed (between : Machine → Machine) (w : World H) : Except Fault Unit × World H :=
  match w.commit with
  | (.error fault, w) => (.error fault, w)
  | (.ok (), w) => (w.mapMachine between).runPhase

end World

/-- The calls that make a machine go on: the two phases of a frame, and a frame without or with input. -/
inductive FrameCall where
  | commit
  | runPhase
  | runFrame
  | advance (input : PlayerInput)
  deriving DecidableEq, Repr

/-- What is done to a machine with its host while a game is played. -/
inductive Operation where
  | frame (call : FrameCall)
  | applyInput (input : PlayerInput)
  | requestPart (part : UInt16)
  deriving DecidableEq, Repr

section calls

variable {H : Type} [Host H]

namespace FrameCall

/-- What a call comes to. -/
def run : FrameCall → World H → Except Fault Unit × World H
  | commit, w => w.commit
  | runPhase, w => w.runPhase
  | runFrame, w => w.runFrame
  | advance input, w => w.advance input

/-- Whether requests take effect in a call, so that the host may be asked. -/
def commits : FrameCall → Bool
  | commit | runFrame | advance _ => true
  | runPhase => false

end FrameCall

namespace Operation

/-- What an operation comes to. -/
def run : Operation → World H → Except Fault Unit × World H
  | frame call, w => call.run w
  | applyInput input, w => (.ok (), w.mapMachine (·.applyInput input))
  | requestPart part, w => (.ok (), w.mapMachine (·.requestPart part))

/-- Whether requests take effect in an operation. -/
def commits : Operation → Bool
  | frame call => call.commits
  | applyInput _ | requestPart _ => false

end Operation

end calls

end Framescript
