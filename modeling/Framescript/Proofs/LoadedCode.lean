import Framescript.Proofs.Lasting

/-!
Which code is loaded. Code comes into a machine only together with its part, when the host opens that part, and a load
that fails puts both back. So if a host has one code for each part, the code that is loaded is always that of the current
part (`Engine.loaded_of_reached`).
-/
namespace Framescript

variable {H : Type} [Host H] {code? : UInt16 → Option Code}

/-- A machine with the code of its current part. -/
def Machine.Loaded (code? : UInt16 → Option Code) (m : Machine) : Prop :=
  ∃ part, m.currentPart = some part ∧ code? part = some m.script.code

theorem Machine.Loaded.of_same {m n : Machine} (loaded : m.Loaded code?) (code : n.script.code = m.script.code)
    (currentPart : n.currentPart = m.currentPart) : n.Loaded code? := by
  obtain ⟨part, current, served⟩ := loaded
  exact ⟨part, currentPart.trans current, by rw [code, served]⟩

theorem Host.Serves.opened {host later : H} (serves : Host.Serves code? host) {part : UInt16} {code : Code}
    (opens : Host.openPart part host = (.ok code, later)) : Host.Serves code? later ∧ code? part = some code := by
  have asked := serves.meet (.openPart part)
  rw [Host.meet, opens] at asked
  exact ⟨asked, serves [] part code (by rw [Host.after, List.foldl_nil, opens])⟩

/-- With a host that has one code for each part, a machine never gets another code than that of its part. -/
theorem lasting_loaded : Lasting fun (m : Machine) (host : H) => Host.Serves code? host ∧ m.Loaded code? where
  footing here same := ⟨here.1, here.2.of_same same.code same.currentPart⟩
  step {w} here :=
    ⟨w.step_told.of_met (fun request serves => serves.meet request) here.1,
      here.2.of_same w.step_keeps.code w.step_keeps.currentPart⟩
  stopped here := ⟨here.1.meet (.tell .stopAll), here.2⟩
  asked part here := ⟨here.1.meet (.openPart part), here.2⟩
  opened {_ _ _ part _} opens here := by
    obtain ⟨serves, served⟩ := here.1.opened opens
    exact ⟨serves, part, rfl, served⟩
  marked here := ⟨here.1.meet .takeMusicMark, here.2⟩
  restored fields here := ⟨here.1.meet (.restore fields), here.2⟩

namespace Engine

theorem start_loaded {host : H} (serves : Host.Serves code? host) {options : Options} {part : UInt16} {e : Engine H}
    (started : start host options part = (.ok (), e)) :
    Host.Serves code? e.world.host ∧ e.world.machine.Loaded code? := by
  obtain ⟨fault, later, -, began⟩ | ⟨code, later, log, opens, began⟩ :=
    ({ machine := { options }, host } : World H).startPart_cases part
  · rw [start, began] at started
    cases started
  · rw [start, began] at started
    cases started
    obtain ⟨stillServes, served⟩ := (serves.meet (.tell .stopAll)).opened opens
    exact ⟨stillServes, part, rfl, served⟩

/-- The code that is loaded always is that of the current part. A new engine on a host that has one code for each part is
    used in whatever way and whatever comes of it: then the machine is on some part with the code of that part, which
    also is what the host opens that part with, if it does. -/
theorem loaded_of_reached {host : H} (serves : Host.Serves code? host) {options : Options} {part : UInt16}
    {begun : Engine H} (started : start host options part = (.ok (), begun)) (uses : List Use) :
    let e := Use.after uses begun
    ∃ current, e.world.machine.currentPart = some current ∧ code? current = some e.world.machine.script.code ∧
      ∀ code, (Host.openPart current e.world.host).1 = .ok code → code = e.world.machine.script.code := by
  intro e
  obtain ⟨stillServes, current, onPart, served⟩ := lasting_loaded.after uses (start_loaded serves started)
  refine ⟨current, onPart, served, fun code opens => ?_⟩
  have same := stillServes [] current code opens
  rw [served] at same
  cases same
  rfl

end Engine

theorem Headless.after_program (requests : List Host.Request) (host : Headless) :
    (Host.after requests host).program = host.program := by
  induction requests generalizing host with
  | nil => rfl
  | cons request requests ih => exact (ih (Host.meet host request)).trans (Headless.meet_program host request)

/-- What a program has to say about a part. -/
def Program.answer (program : Program) (part : UInt16) : Except Fault Code :=
  (program.code? part).elim (.error (.unknownPart part)) .ok

theorem Headless.steady (host : Headless) : Host.Steady host.program.answer host := by
  intro requests part
  show (Headless.openPart part (Host.after requests host)).1 = host.program.answer part
  rw [Headless.openPart, Program.answer, Headless.after_program]
  cases host.program.code? part <;> rfl

theorem Headless.serves (host : Headless) : Host.Serves host.program.code? host := by
  intro requests part code opens
  rw [host.steady requests part, Program.answer] at opens
  cases served : host.program.code? part with
  | none =>
    rw [served] at opens
    cases opens
  | some found =>
    rw [served] at opens
    cases opens
    rfl

/-- The first part asks for the last one. -/
def twoParts : Headless where
  program := { parts := [⟨Part.first, #[0x19, 0x3E, 0x89, 0x06]⟩, ⟨Part.last, #[0x06, 0x06, 0x06]⟩] }

/-- A switch that a script asks for, one to a part that there is not, a load that is refused, a reset that fails, and a
    file of a part that there is not. -/
theorem Engine.loaded_of_reached_twoParts :
    let begun := (Engine.start twoParts .headless Part.first).2
    let file : StateFile := { part := 16005, payload := Array.replicate 1408 0 }
    let uses : List Use :=
      [.change (.move (.advance {})), .change (.move .frame), .change (.move (.requestPart 16005)),
        .change (.move .frame), .change (.load [] 1), .saveFile, .change (.reset 16007), .change (.loadFile file)]
    Host.Serves twoParts.program.code? twoParts ∧ Engine.start twoParts .headless Part.first = (.ok (), begun) ∧
      (Use.after uses begun).world.machine.currentPart = some Part.last ∧
      (Use.after uses begun).world.machine.script.code = #[0x06, 0x06, 0x06] := by
  intro begun file uses
  have serves := twoParts.serves
  have started : Engine.start twoParts .headless Part.first = (.ok (), begun) :=
    Prod.ext (show (Engine.start twoParts .headless Part.first).1 = .ok () by decide +kernel) rfl
  have there : (Use.after uses begun).world.machine.currentPart = some Part.last := by decide +kernel
  obtain ⟨current, onPart, served, -⟩ := loaded_of_reached serves started uses
  cases there.symm.trans onPart
  exact ⟨serves, started, there, (Option.some.inj served).symm⟩

end Framescript
