import Framescript.Proofs.Lasting
import Framescript.Proofs.Pacing
import Framescript.Proofs.Requests
import Framescript.Proofs.RunPhase

/-!
Switches to another part. They are requested from outside, by instructions and by a key of the player, and all requests
between two commits compete for one place. Until the next commit nothing is switched; that commit opens the part that
was requested last, once, and starts it with a clean table (`World.commit_switches_to_last_request`).
-/
namespace Framescript

/-! ### Events -/

/-- What can lead to a request for another part. -/
inductive PartEvent where
  | asked (part : UInt16)
  | pressed (keys : Keys)
  | executed (instr : Instr)

namespace PartEvent

/-- Whether the code key is queued after an event. A page that is shown uses it up. -/
def queues (queued : Bool) : PartEvent → Bool
  | asked _ => queued
  | pressed keys => queued || keys.code
  | executed instr => queued && !instr.showsPage

/-- The part that an event requests. A page that is shown requests the last one, if the code key is queued and
    heeded. -/
def request? (heeded queued : Bool) : PartEvent → Option UInt16
  | asked part => some part
  | pressed _ => none
  | executed (.table .blit _) => if queued && heeded then some Part.last else none
  | executed (.table .loadResource (resource, ())) => if Part.isId resource then some resource else none
  | executed _ => none

/-- Whether the code key is queued after events. -/
def queuesAll (queued : Bool) (events : List PartEvent) : Bool :=
  events.foldl queues queued

/-- All parts that events request, in order. -/
def requests (heeded : Bool) : Bool → List PartEvent → List UInt16
  | _, [] => []
  | queued, event :: events => (event.request? heeded queued).toList ++ requests heeded (event.queues queued) events

theorem queuesAll_append (queued : Bool) (first second : List PartEvent) :
    queuesAll queued (first ++ second) = queuesAll (queuesAll queued first) second :=
  List.foldl_append

theorem requests_append (heeded queued : Bool) (first second : List PartEvent) :
    requests heeded queued (first ++ second) =
      requests heeded queued first ++ requests heeded (queuesAll queued first) second := by
  induction first generalizing queued with
  | nil => rfl
  | cons event first ih =>
    rw [List.cons_append, requests, requests, ih, List.append_assoc]
    rfl

end PartEvent

namespace Machine

/-- Whether the code key counts on the current part. -/
def heedsCode (m : Machine) : Bool :=
  m.currentPart ≠ some Part.first && m.currentPart ≠ some Part.last

/-- The last request of some events stands, or else the one that stood before them, and the code key is queued as they
    say. -/
structure Heeds (events : List PartEvent) (m n : Machine) : Prop where
  request : n.requestedPart = (PartEvent.requests m.heedsCode m.keys.code events).getLast?.or m.requestedPart
  queued : n.keys.code = PartEvent.queuesAll m.keys.code events
  currentPart : n.currentPart = m.currentPart

theorem Heeds.of_same {m n : Machine} (request : n.requestedPart = m.requestedPart) (keys : n.keys.code = m.keys.code)
    (currentPart : n.currentPart = m.currentPart) : Heeds [] m n :=
  ⟨request, keys, currentPart⟩

theorem Heeds.append {first second : List PartEvent} {a b c : Machine} (here : Heeds first a b)
    (later : Heeds second b c) : Heeds (first ++ second) a c := by
  have heeded : b.heedsCode = a.heedsCode := by rw [heedsCode, heedsCode, here.currentPart]
  refine ⟨?_, ?_, later.currentPart.trans here.currentPart⟩
  · rw [later.request, here.request, heeded, here.queued, PartEvent.requests_append, List.getLast?_append, Option.or_assoc]
  · rw [later.queued, here.queued, PartEvent.queuesAll_append]

theorem heeds_one {event : PartEvent} {m n : Machine}
    (request : n.requestedPart = (event.request? m.heedsCode m.keys.code).or m.requestedPart)
    (queued : n.keys.code = event.queues m.keys.code) (currentPart : n.currentPart = m.currentPart) :
    Heeds [event] m n := by
  refine ⟨?_, queued, currentPart⟩
  rw [request, PartEvent.requests, PartEvent.requests, List.append_nil]
  cases event.request? m.heedsCode m.keys.code <;> rfl

end Machine

namespace World

open Machine (Heeds Stays Keeps)
open PartEvent (executed)

variable {H : Type} [Host H]

/-! ### Instructions -/

theorem keyedPart_eq (m : Machine) :
    keyedPart m = (if m.keys.code && m.heedsCode then some Part.last else none).or m.requestedPart := by
  rw [keyedPart, Machine.heedsCode, Bool.and_assoc]
  split <;> rfl

theorem loadResource_request (w : World H) (resource : UInt16) : (w.loadResource resource).machine.requestedPart =
    (if Part.isId resource then some resource else none).or w.machine.requestedPart := by
  rw [loadResource_machine]
  show (if Part.isId resource then some resource else w.machine.requestedPart) = _
  split <;> rfl

theorem executeTable_request (w : World H) (origin : Nat) (op : Opcode) (operands : Operands op.operands) :
    (w.executeTable origin op operands).2.machine.requestedPart =
      ((executed (.table op operands)).request? w.machine.heedsCode w.machine.keys.code).or w.machine.requestedPart := by
  cases op with
  | blit =>
    obtain ⟨shown, machine⟩ := blit_machine w operands.1
    exact (congrArg Machine.requestedPart machine :).trans (keyedPart_eq w.machine)
  | loadResource => exact loadResource_request w operands.1
  | call =>
    obtain ⟨script, callStack, machine⟩ := enter_changes w origin operands.1
    exact (congrArg Machine.requestedPart machine :)
  | ret =>
    obtain ⟨script, callStack, machine⟩ := leave_changes w origin
    exact (congrArg Machine.requestedPart machine :)
  | setVec =>
    obtain ⟨threads, machine⟩ := setVector_changes w operands.1 operands.2.1
    exact (congrArg Machine.requestedPart machine :)
  | resetThreads =>
    obtain ⟨threads, machine⟩ := resetThreads_changes w origin operands.1
    exact (congrArg Machine.requestedPart machine :)
  | jmpIf =>
    obtain ⟨script, machine⟩ := jumpIf_changes w origin operands.1
    exact (congrArg Machine.requestedPart machine :)
  | djnz =>
    obtain ⟨script, vars, machine⟩ := countDown_changes w operands.1 operands.2.1
    exact (congrArg Machine.requestedPart machine :)
  | _ => rfl

theorem execute_heeds (w : World H) (origin : Nat) (instr : Instr) :
    Heeds [executed instr] w.machine (w.execute origin instr).2.machine := by
  have keys := (execute_consumes w origin instr).keys
  refine Machine.heeds_one ?_ ?_ (execute_keeps w origin instr).currentPart
  · cases instr with
    | table op operands => exact executeTable_request w origin op operands
    | background halved x y =>
      rw [execute, drawBackground_machine]
      rfl
    | sprite halved x y zoom => rfl
  · rw [keys, PartEvent.queues]
    cases instr.showsPage with
    | true => exact (Bool.and_false _).symm
    | false => exact (Bool.and_true _).symm

theorem step_heeds {w : World H} (well : w.step.1 = .ok ()) :
    Heeds (w.next?.toList.map executed) w.machine w.step.2.machine := by
  obtain ⟨instr, script, read⟩ := read_of_ok well
  have fetched : Heeds [] w.machine (w.fetched instr script).machine := Heeds.of_same rfl rfl rfl
  rw [step_of_read read, next_of_read read]
  exact fetched.append (execute_heeds (w.fetched instr script) w.machine.script.pc instr)

theorem step_failed_heeds {w : World H} {fault : Fault} (failed : w.step.1 = .error fault) :
    Heeds [] w.machine w.step.2.machine := by
  obtain ⟨script, instrOffset, profile, machine⟩ := step_of_failed failed
  rw [machine]
  exact Heeds.of_same rfl rfl rfl

/-! ### Run phases -/

theorem traced_heeds :
    Traced fun _ moments (w v : World H) => Heeds ((instrs moments).map executed) w.machine v.machine where
  rests _ _ := Heeds.of_same rfl rfl rfl
  ran well := by
    rw [instrs_of_ok well]
    exact step_heeds well
  failed failed := by
    rw [instrs_of_error failed]
    exact step_failed_heeds failed
  turned _ _ := Heeds.of_same rfl rfl rfl
  begun _ _ := Heeds.of_same rfl rfl rfl
  stored _ _ _ := Heeds.of_same rfl rfl rfl
  append first second := by
    rw [instrs_append, List.map_append]
    exact first.append second

theorem runAll_heeds (w : World H) : Heeds (w.frameInstrs.map executed) w.machine w.runAll.2.machine := by
  have cleared : Heeds [] w.machine (w.mapMachine fun m => { m with profile := {} }).machine := Heeds.of_same rfl rfl rfl
  have ran := cleared.append (traced_heeds.loop (w.mapMachine fun m => { m with profile := {} }))
  unfold runAll
  rcases ends : runThreads ThreadTable.order (w.mapMachine fun m => { m with profile := {} }) with ⟨fault | _, after⟩
  · rw [ends] at ran
    exact ran
  · rw [ends] at ran
    exact ran

/-! ### Between two commits -/

/-- Worlds on the same part with the same code, the host of the second being that of the first after it was told some
    things. -/
structure SamePart (w v : World H) : Prop where
  currentPart : v.machine.currentPart = w.machine.currentPart
  code : v.machine.script.code = w.machine.script.code
  told : Host.Told w.host v.host

theorem SamePart.refl (w : World H) : SamePart w w :=
  ⟨rfl, rfl, .nothing⟩

theorem SamePart.trans {a b c : World H} (first : SamePart a b) (second : SamePart b c) : SamePart a c :=
  ⟨second.currentPart.trans first.currentPart, second.code.trans first.code, first.told.trans second.told⟩

theorem runPhase_samePart (w : World H) : SamePart w w.runPhase.2 := by
  by_cases stopped : w.machine.aborted = true
  · rw [runPhase, guarded_of_aborted runAll stopped]
    exact SamePart.refl w
  · obtain ⟨-, host, machine⟩ := guarded_of_running runAll (Bool.eq_false_iff.mpr stopped)
    have stays := w.runAll_stays
    refine ⟨?_, ?_, ?_⟩
    · rw [runPhase, machine]
      exact stays.currentPart
    · rw [runPhase, machine]
      exact stays.code
    · rw [runPhase, host]
      exact w.runAll_told

theorem runPhase_heeds {w : World H} (running : w.machine.aborted = false) :
    Heeds (w.frameInstrs.map executed) w.machine w.runPhase.2.machine := by
  obtain ⟨-, -, machine⟩ := guarded_of_running runAll running
  have heeds := w.runAll_heeds
  rw [runPhase, machine]
  exact ⟨heeds.request, heeds.queued, heeds.currentPart⟩

theorem samePart_of_given {threads : List (Fin threadCount)} {w : World H} {s : Slice H}
    (member : s ∈ (giveSlices threads w).1) : SamePart w s.before := by
  induction threads generalizing w with
  | nil => cases member
  | cons thread threads ih =>
    have keeps := w.runThread_keeps thread
    have told := w.runThread_told thread
    obtain ⟨fault, after, ran, given⟩ | ⟨after, ran, given⟩ := giveSlices_cons thread threads w
    · rw [given] at member
      cases List.mem_singleton.mp member
      exact SamePart.refl w
    · rw [ran] at keeps told
      rw [given] at member
      rcases List.mem_cons.mp member with rfl | later
      · exact SamePart.refl w
      · exact SamePart.trans ⟨keeps.currentPart, keeps.code, told⟩ (ih later)

theorem samePart_of_slice {w : World H} {s : Slice H} (member : s ∈ w.phaseSlices) (count : Nat) :
    SamePart w (s.after count) := by
  unfold phaseSlices at member
  split at member
  · cases member
  · have before := samePart_of_given member
    have keeps := s.after_keeps count
    have told := afterSteps_told count (s.before.beginSlice s.thread)
    exact SamePart.trans ⟨before.currentPart, before.code, before.told⟩ ⟨keeps.currentPart, keeps.code, told⟩

end World

namespace Operation

open Machine (Heeds)
open World (SamePart)

variable {H : Type} [Host H]

/-- The world after operations that are done one after the other, whatever comes of them. -/
def after : List Operation → World H → World H
  | [], w => w
  | op :: ops, w => after ops (op.run w).2

/-- What happens in an operation that may lead to a request for another part, in order. -/
def partEvents : Operation → World H → List PartEvent
  | frame .runPhase, w => if w.machine.aborted then [] else w.frameInstrs.map .executed
  | applyInput input, _ => [.pressed input.keys]
  | requestPart part, _ => [.asked part]
  | _, _ => []

def allPartEvents : List Operation → World H → List PartEvent
  | [], _ => []
  | op :: ops, w => op.partEvents w ++ allPartEvents ops (op.run w).2

/-- The worlds that operations go through: those before and after each of them, and those in the course of slices. -/
inductive Passes : List Operation → World H → World H → Prop
  | here {ops : List Operation} {w : World H} : Passes ops w w
  | slice {ops : List Operation} {w : World H} {s : Slice H} (member : s ∈ w.phaseSlices) (count : Nat) :
    Passes (frame .runPhase :: ops) w (s.after count)
  | later {op : Operation} {ops : List Operation} {w v : World H} (passes : Passes ops (op.run w).2 v) :
    Passes (op :: ops) w v

theorem run_samePart {op : Operation} (between : op.commits = false) (w : World H) : SamePart w (op.run w).2 := by
  cases op with
  | frame call =>
    cases call with
    | runPhase => exact w.runPhase_samePart
    | commit | runFrame | advance _ => cases between
  | applyInput input => exact ⟨rfl, rfl, .nothing⟩
  | requestPart part => exact ⟨rfl, rfl, .nothing⟩

theorem run_heeds {op : Operation} (between : op.commits = false) (w : World H) :
    Heeds (op.partEvents w) w.machine (op.run w).2.machine := by
  cases op with
  | frame call =>
    cases call with
    | runPhase =>
      rw [partEvents]
      split
      · rename_i stopped
        show Heeds [] w.machine w.runPhase.2.machine
        rw [World.runPhase, World.guarded_of_aborted World.runAll stopped]
        exact Heeds.of_same rfl rfl rfl
      · rename_i running
        exact World.runPhase_heeds (Bool.eq_false_iff.mpr running)
    | commit | runFrame | advance _ => cases between
  | applyInput input => exact Machine.heeds_one rfl rfl rfl
  | requestPart part => exact Machine.heeds_one rfl rfl rfl

theorem samePart_of_passes {ops : List Operation} (between : ∀ op ∈ ops, op.commits = false) {w v : World H}
    (passes : Passes ops w v) : SamePart w v := by
  induction passes with
  | here => exact SamePart.refl _
  | slice member count => exact World.samePart_of_slice member count
  | later _ ih =>
    obtain ⟨first, others⟩ := List.forall_mem_cons.mp between
    exact (run_samePart first _).trans (ih others)

theorem passes_after (ops : List Operation) (w : World H) : Passes ops w (after ops w) := by
  induction ops generalizing w with
  | nil => exact .here
  | cons op ops ih => exact .later (ih (op.run w).2)

theorem after_heeds {ops : List Operation} (between : ∀ op ∈ ops, op.commits = false) (w : World H) :
    Heeds (allPartEvents ops w) w.machine (after ops w).machine := by
  induction ops generalizing w with
  | nil => exact Heeds.of_same rfl rfl rfl
  | cons op ops ih =>
    obtain ⟨first, others⟩ := List.forall_mem_cons.mp between
    exact (run_heeds first w).append (ih others (op.run w).2)

end Operation

/-! ### Commits -/

/-- Only the first thread runs, from the beginning, and nothing is requested of any thread. -/
structure ThreadTable.Clean (t : ThreadTable) : Prop where
  first : t.pc.get 0 = 0
  others : ∀ thread, thread ≠ 0 → t.pc.get thread = inactive
  unpaused : ∀ thread, t.isPaused thread = false
  noJump : ∀ thread, t.requestedPc.get thread = noRequest
  noPause : ∀ thread, t.isPauseRequested thread = false

theorem ThreadTable.clean_of_started : started.commit.Clean := by
  have blank {α : Type} (value : α) (thread : Fin threadCount) : (Vector.replicate threadCount value).get thread = value :=
    Vector.getElem_replicate thread.isLt
  have pc (thread : Fin threadCount) : started.commit.pc.get thread = if 0 = thread.val then 0 else inactive := by
    show (Vector.zipWith committedPc started.pc (.replicate threadCount noRequest))[thread.val] = _
    rw [Vector.getElem_zipWith, Vector.getElem_replicate]
    show (Vector.set (.replicate threadCount inactive) 0 0)[thread.val] = _
    rw [Vector.getElem_set, Vector.getElem_replicate]
  refine ⟨pc 0, fun thread other => ?_, fun thread => ?_, blank noRequest, fun thread => ?_⟩
  · rw [pc, if_neg fun zero => other (Fin.ext zero.symm)]
  · show ((Vector.replicate threadCount (0 : UInt8)).get thread != 0) = false
    rw [blank]
    rfl
  · show ((Vector.replicate threadCount (0 : UInt8)).get thread != 0) = false
    rw [blank]
    rfl

namespace World

variable {H : Type} [Host H]

/-- What a commit of a running machine comes to of which a part may be requested. -/
structure Commits (request : Option UInt16) (w : World H) : Prop where
  /-- If no part is requested, none is opened. -/
  unrequested : request = none →
    w.commit.1 = .ok () ∧ w.commit.2.host = Host.after [.takeMusicMark] w.host ∧
    w.commit.2.machine.currentPart = w.machine.currentPart ∧ w.commit.2.machine.script.code = w.machine.script.code
  /-- A part that cannot be opened is tried once. -/
  unopened : ∀ part fault, request = some part →
    (Host.openPart part (Host.perform .stopAll w.host)).1 = .error fault →
    w.commit.1 = .error fault ∧ w.commit.2.host = Host.after [.tell .stopAll, .openPart part] w.host ∧
    w.commit.2.machine.currentPart = w.machine.currentPart ∧ w.commit.2.machine.script.code = w.machine.script.code
  /-- A part that can be opened is opened once and starts from its beginning. -/
  switched : ∀ part code, request = some part →
    (Host.openPart part (Host.perform .stopAll w.host)).1 = .ok code →
    w.commit.1 = .ok () ∧ w.commit.2.host = Host.after [.tell .stopAll, .openPart part, .takeMusicMark] w.host ∧
    w.commit.2.machine.currentPart = some part ∧ w.commit.2.machine.script = { code } ∧
    w.commit.2.machine.vars.get 0xE4 = 0x14 ∧ w.commit.2.machine.threads.Clean
  settled : w.commit.2.machine.requestedPart = none

theorem takeMusicMark_host (w : World H) : w.takeMusicMark.host = (Host.takeMusicMark w.host).2 := by
  unfold takeMusicMark
  rcases Host.takeMusicMark w.host with ⟨_ | mark, host⟩ <;> rfl

theorem commitRequests_host_of_none {w : World H} (requested : w.machine.requestedPart = none) :
    w.commitRequests.2.host = Host.after [.takeMusicMark] w.host := by
  simp only [commitRequests, switchPart, requested]
  exact takeMusicMark_host w

theorem commitRequests_host_of_some {w : World H} {part : UInt16} (requested : w.machine.requestedPart = some part) :
    w.commitRequests.2.host =
      match (Host.openPart part (Host.perform .stopAll w.host)).1 with
      | .error _ => Host.after [.tell .stopAll, .openPart part] w.host
      | .ok _ => Host.after [.tell .stopAll, .openPart part, .takeMusicMark] w.host := by
  simp only [commitRequests, switchPart, requested]
  have asked : (w.mapMachine fun m => { m with requestedPart := none }).host = w.host := rfl
  obtain ⟨fault, host, opens, started⟩ | ⟨code, host, log, opens, started⟩ :=
    (w.mapMachine fun m => { m with requestedPart := none }).startPart_cases part
  · rw [asked] at opens
    simp only [started, opens]
    show host = (Host.openPart part (Host.perform .stopAll w.host)).2
    rw [opens]
  · rw [asked] at opens
    simp only [started, opens]
    show (takeMusicMark _).host = (Host.takeMusicMark (Host.openPart part (Host.perform .stopAll w.host)).2).2
    rw [opens, takeMusicMark_host]

theorem commitWith_of_opened {m : Machine} {part : UInt16} (requested : m.requestedPart = some part) (code : Code)
    (mark : Option Int16) :
    let n := (m.commitWith (some (.ok code), mark)).2
    n.currentPart = some part ∧ n.script = { code } ∧ n.vars.get Variables.partFlag = Machine.partStarted ∧
      n.threads = ThreadTable.started.commit := by
  have flag := Variables.get_set_self m.vars Variables.partFlag Machine.partStarted
  cases mark with
  | none => exact ⟨requested, rfl, flag, rfl⟩
  | some mark => exact ⟨requested, rfl, (Variables.get_set_of_ne _ mark (by decide)).trans flag, rfl⟩

/-- What a host answers about a part that is requested. -/
theorem answers_cases (host : H) (part : UInt16) :
    (∃ fault, (Host.openPart part (Host.perform .stopAll host)).1 = .error fault ∧
      Host.answers host (some part) = (some (.error fault), none)) ∨
    ∃ code mark, (Host.openPart part (Host.perform .stopAll host)).1 = .ok code ∧
      Host.answers host (some part) = (some (.ok code), mark) := by
  rw [Host.answers]
  rcases Host.openPart part (Host.perform .stopAll host) with ⟨fault | code, later⟩
  · exact .inl ⟨fault, rfl, rfl⟩
  · exact .inr ⟨code, _, rfl, rfl⟩

theorem commits_of_unrequested {w : World H} (running : w.machine.aborted = false)
    (requested : w.machine.requestedPart = none) : Commits none w := by
  obtain ⟨-, host, -⟩ := guarded_of_running commitRequests running
  obtain ⟨result, machine⟩ := commit_eq running
  rw [requested, Host.answers] at result machine
  refine ⟨fun _ => ⟨result, host.trans (commitRequests_host_of_none requested), ?_⟩, fun _ _ some => ?_,
    fun _ _ some => ?_, ?_⟩
  · rw [machine]
    cases (Host.takeMusicMark w.host).1 <;> exact ⟨rfl, rfl⟩
  · cases some
  · cases some
  · rw [machine]
    cases (Host.takeMusicMark w.host).1 <;> exact requested

theorem commits_of_requested {w : World H} {part : UInt16} (running : w.machine.aborted = false)
    (requested : w.machine.requestedPart = some part) : Commits (some part) w := by
  obtain ⟨-, host, -⟩ := guarded_of_running commitRequests running
  obtain ⟨result, machine⟩ := commit_eq running
  have asked := commitRequests_host_of_some requested
  obtain ⟨fault, fails, answers⟩ | ⟨code, mark, opens, answers⟩ := answers_cases w.host part
  · rw [requested, answers] at result machine
    rw [fails] at asked
    refine ⟨fun none => ?_, fun other fault' is fails' => ?_, fun other code is opens => ?_, ?_⟩
    · cases none
    · cases is
      cases fails.symm.trans fails'
      rw [machine]
      exact ⟨result, host.trans asked, rfl, rfl⟩
    · cases is
      cases fails.symm.trans opens
    · rw [machine]
      rfl
  · rw [requested, answers] at result machine
    rw [opens] at asked
    refine ⟨fun none => ?_, fun other fault is fails => ?_, fun other code' is opens' => ?_, ?_⟩
    · cases none
    · cases is
      cases opens.symm.trans fails
    · cases is
      cases opens.symm.trans opens'
      obtain ⟨currentPart, script, flag, threads⟩ := commitWith_of_opened requested code mark
      have clean := ThreadTable.clean_of_started
      rw [← threads] at clean
      rw [machine]
      exact ⟨result, host.trans asked, currentPart, script, flag, clean⟩
    · rw [machine]
      cases mark <;> rfl

theorem commits_of_running {w : World H} (running : w.machine.aborted = false) :
    Commits w.machine.requestedPart w := by
  cases requested : w.machine.requestedPart with
  | none => exact commits_of_unrequested running requested
  | some part => exact commits_of_requested running requested

/-- Between two commits nothing is switched, and the next commit switches to the part that was requested last. From any
    world on, operations other than commits are done, whatever comes of them: in the course of them, at each instruction
    of each slice, the machine stays on its part, with the same code, and the host is not asked for a part. In the end
    the last request stands that was made from outside, by an instruction or by the code key, or else the one that stood
    before. A machine that was stopped on the way commits nothing. -/
theorem commit_switches_to_last_request {w : World H} {ops : List Operation}
    (between : ∀ op ∈ ops, op.commits = false) :
    let ended := Operation.after ops w
    let requests := PartEvent.requests w.machine.heedsCode w.machine.keys.code (Operation.allPartEvents ops w)
    let request := (w.machine.requestedPart.toList ++ requests).getLast?
    (∀ v, Operation.Passes ops w v → SamePart w v) ∧ SamePart w ended ∧ ended.machine.requestedPart = request ∧
      (ended.machine.aborted = true → ended.commit = (.error .aborted, ended)) ∧
      (ended.machine.aborted = false → Commits request ended) := by
  intro ended requests request
  have heeds := Operation.after_heeds between w
  have stands : ended.machine.requestedPart = request := by
    show (Operation.after ops w).machine.requestedPart = (w.machine.requestedPart.toList ++ requests).getLast?
    rw [heeds.request, List.getLast?_append]
    cases w.machine.requestedPart <;> rfl
  refine ⟨fun v passes => Operation.samePart_of_passes between passes, ?_, stands, ?_, ?_⟩
  · exact Operation.samePart_of_passes between (Operation.passes_after ops w)
  · exact guarded_of_aborted commitRequests
  · intro running
    rw [← stands]
    exact commits_of_running running

/-- On the second part, an instruction asks for the fourth one, two pages are shown, and a jump is requested of a thread. -/
def switching : World Headless where
  machine :=
    { script := { code := #[0x19, 0x3E, 0x83, 0x10, 0, 0x10, 0, 0x08, 1, 0, 0, 0x06] }
      threads := .started, currentPart := some 0x3E81 }
  host := { program := { parts := [⟨Part.last, #[0x06]⟩] } }

/-- The code key is pressed twice and counts once, after what was requested from outside and by the instruction. -/
theorem commit_switches_to_last_request_switching :
    let press : Operation := .applyInput { keys := { code := true } }
    let ops : List Operation := [.requestPart 0x3E82, press, press, .frame .runPhase]
    let ended := Operation.after ops switching
    (∀ op ∈ ops, op.commits = false) ∧ ended.machine.aborted = false ∧
      PartEvent.requests switching.machine.heedsCode switching.machine.keys.code (Operation.allPartEvents ops switching) =
        [0x3E82, 0x3E83, 0x3E89] ∧
      ended.machine.currentPart = some 0x3E81 ∧ ended.commit.1 = .ok () ∧
      ended.commit.2.machine.currentPart = some 0x3E89 ∧ ended.commit.2.machine.vars.get 0xE4 = 0x14 ∧
      ended.commit.2.machine.threads.Clean := by
  intro press ops ended
  have between : ∀ op ∈ ops, op.commits = false := by decide
  have facts : ended.machine.aborted = false ∧
      PartEvent.requests switching.machine.heedsCode switching.machine.keys.code (Operation.allPartEvents ops switching) =
        [0x3E82, 0x3E83, 0x3E89] ∧
      (Host.openPart 0x3E89 (Host.perform .stopAll ended.host)).1 = .ok #[0x06] := by decide +kernel
  obtain ⟨running, requests, opens⟩ := facts
  obtain ⟨-, same, -, -, commits⟩ := commit_switches_to_last_request (w := switching) between
  have last : (switching.machine.requestedPart.toList ++ PartEvent.requests switching.machine.heedsCode
      switching.machine.keys.code (Operation.allPartEvents ops switching)).getLast? = some 0x3E89 := by
    rw [requests]
    rfl
  obtain ⟨result, -, currentPart, -, flag, clean⟩ := (commits running).switched 0x3E89 #[0x06] last opens
  have stays : ended.machine.currentPart = some 0x3E81 := same.currentPart
  exact ⟨between, running, requests, stays, result, currentPart, flag, clean⟩

end World

end Framescript
