import Framescript.Machine.Step
import Framescript.Proofs.Encoding

/-!
A step is a reading and an execution. The machine fetches operands one by one and looks at variables in between. It
follows the reader of the whole instruction all the same: it fails where the reader fails, behind the bytes that were
there, and otherwise does what the instruction says (`step_eq`). For this, the executing of an instruction that has been
read already is written down here (`execute`).
-/
namespace Framescript

open Reader

/-- Whether a comparison holds of two variables. -/
def Comparison.holds (c : Comparison) (a b : Int16) : Bool :=
  match c with
  | .equal => a == b
  | .notEqual => a != b
  | .greater => b < a
  | .greaterOrEqual => b ≤ a
  | .less => a < b
  | .lessOrEqual => a ≤ b
  | .unknown _ => false

/-- What the opcode byte of an instruction starts. -/
def Instr.lead : Instr → Lead
  | .table op _ => .table op
  | .background .. => .background
  | .sprite .. => .sprite

/-- What the next byte of a script starts, if anything. -/
def Lead.next? (s : Script) : Option Lead :=
  match s.byte with
  | .error _ => none
  | .ok (opcode, _) => ofByte? opcode

/-- The offset behind the bytes that were fetched when reading an instruction failed. -/
def Fault.cursor : Fault → Nat
  | .endOfCode offset _ _ => offset
  | .invalidInstruction _ offset => offset + 1
  | _ => 0

namespace World

variable {H : Type}

/-! ### Executing -/

/-- What a condition compares a variable with. -/
def comparand (w : World H) : Comparand → Int16
  | .var index => w.read index
  | .byte value => widen value
  | .word value => value.toInt16

/-- The world after a warning about a comparison without a meaning. -/
def warned (w : World H) (origin : Nat) : Comparison → World H
  | .unknown code => w.say .warn s!"JMP_IF at 0x{Text.hexText 4 origin}: unknown comparison {code}"
  | _ => w

/-- Jumps if a condition holds. -/
def jumpIf (w : World H) (origin : Nat) (c : Condition) : World H :=
  let warned := w.warned origin c.comparison
  if c.comparison.holds (w.read c.var) (w.comparand c.comparand) then warned.jump c.target else warned

/-- Requests pauses or stops of a range of threads. -/
def resetThreads (w : World H) (origin : Nat) (r : ThreadRange) : World H :=
  let last := r.last &&& 0x3F
  if ThreadRange.isEmpty r.first r.last then
    w.say .warn s!"RESET_THREADS at 0x{Text.hexText 4 origin}: empty range {r.first}..={last}"
  else w.resetRange origin r.first.toNat last.toNat r.action

/-- A horizontal place. -/
def horizontal (w : World H) : Horizontal → Int16
  | .word value => value.toInt16
  | .var index => w.read index
  | .byte value => widen value
  | .beyond value => widen value + 0x100

/-- A vertical place. -/
def vertical (w : World H) : Vertical → Int16
  | .word value => value.toInt16
  | .var index => w.read index
  | .byte value => widen value

/-- A scale with the segment of the polygons. -/
def zoom (w : World H) : Zoom → UInt16 × PolygonSource
  | .normal => (normalZoom, .cinematic)
  | .var index => ((w.read index).toUInt16, .cinematic)
  | .byte value => (value.toUInt16, .cinematic)
  | .alternate => (normalZoom, .alternate)

variable [Host H]

/-- Draws a sprite polygon. -/
def drawSprite (w : World H) (halved : UInt16) (x : Horizontal) (y : Vertical) (zoom : Zoom) : World H :=
  w.drawPolygon (w.zoom zoom).2 halved (w.zoom zoom).1 (w.horizontal x) (w.vertical y)

/-- Executes an instruction of the table that stands at `origin` and has been read already. -/
def executeTable (w : World H) (origin : Nat) : (op : Opcode) → Operands op.operands → Except Fault Unit × World H
  | .set, (dst, value, ()) => (.ok (), w.setVariable dst value.toInt16)
  | .mov, (dst, src, ()) => (.ok (), w.setVariable dst (w.read src))
  | .add, (dst, src, ()) => (.ok (), w.setVariable dst (w.read dst + w.read src))
  | .addi, (dst, value, ()) => (.ok (), w.setVariable dst (w.read dst + value.toInt16))
  | .sub, (dst, src, ()) => (.ok (), w.setVariable dst (w.read dst - w.read src))
  | .and, (dst, (mask : UInt16), ()) => (.ok (), w.updateBits dst (· &&& mask))
  | .or, (dst, (mask : UInt16), ()) => (.ok (), w.updateBits dst (· ||| mask))
  | .shl, (dst, amount, ()) => (.ok (), w.updateBits dst (shiftLeft · amount))
  | .shr, (dst, amount, ()) => (.ok (), w.updateBits dst (shiftRight · amount))
  | .call, (target, ()) => w.enter origin target
  | .ret, () => w.leave origin
  | .jmp, (target, ()) => (.ok (), w.jump target)
  | .djnz, (counter, target, ()) => (.ok (), w.countDown counter target)
  | .jmpIf, (condition, ()) => (.ok (), w.jumpIf origin condition)
  | .pause, () => (.ok (), w.yield)
  | .kill, () => (.ok (), (w.jump ThreadTable.inactive).yield)
  | .setVec, (thread, target, ()) => w.setVector thread target
  | .resetThreads, (range, ()) => (.ok (), w.resetThreads origin range)
  | .setPalette, ((palette : UInt16), ()) => (.ok (), w.call (.setPalette (palette >>> 8).toUInt8))
  | .selectPage, (page, ()) => (.ok (), w.call (.selectPage page))
  | .fillPage, (page, color, ()) => (.ok (), w.call (.fillPage page color))
  | .copyPage, (source, target, ()) => (.ok (), w.call (.copyPage source target (w.read Variables.scrollY)))
  | .blit, (page, ()) => (.ok (), w.blit page)
  | .drawString, (id, x, y, color, ()) => (.ok (), w.call (.drawString id x y color))
  | .playSound, (resource, frequency, volume, channel, ()) =>
    (.ok (), w.call (.playSound resource frequency volume channel))
  | .loadResource, (resource, ()) => (.ok (), w.loadResource resource)
  | .playMusic, (resource, delay, position, ()) => (.ok (), w.call (.playMusic resource delay position))

/-- Executes an instruction that stands at `origin` and has been read already. -/
def execute (w : World H) (origin : Nat) : Instr → Except Fault Unit × World H
  | .table op operands => w.executeTable origin op operands
  | .background halved x y => (.ok (), w.drawBackground halved (widen x) (widen y))
  | .sprite halved x y zoom => (.ok (), w.drawSprite halved x y zoom)

omit [Host H]

/-- The world with another script. -/
def onScript (w : World H) (script : Script) : World H :=
  w.mapMachine fun m => { m with script }

/-- The world when the opcode of an instruction is known: the instruction is counted. -/
def begun (w : World H) (lead : Lead) : World H :=
  w.mapMachine fun m => { m with instrOffset := m.script.pc, profile := m.profile.record lead.category }

/-- The world when an instruction is read and counted, with the script behind the instruction. -/
def fetched (w : World H) (instr : Instr) (script : Script) : World H :=
  (w.begun instr.lead).onScript script

/-- The world when an instruction cannot be read: it is counted if its opcode is known, and the script stands behind the
    bytes that were fetched. -/
def broken (w : World H) (fault : Fault) : World H :=
  w.mapMachine fun m =>
    { m with
      script.pc := fault.cursor, instrOffset := m.script.pc
      profile := (Lead.next? m.script).elim m.profile fun lead => m.profile.record lead.category }

end World

/-! ### Actions that follow readers -/

namespace Action

variable {H α β : Type}

theorem bind_apply (action : Action H α) (next : α → Action H β) (w : World H) : (action >>= next) w =
    match action w with
    | (.error fault, w) => (.error fault, w)
    | (.ok value, w) => next value w := by
  show ExceptT.bindCont next (action w).1 (action w).2 = _
  rcases action w with ⟨_ | _, _⟩ <;> rfl

/-- In a world of which only the script moves, an action follows a reader: it fails where the reader fails, behind the
    bytes that were there, and otherwise does something with the value, behind what was read. -/
structure Follows (w : World H) (action : Action H β) (read : Reader α) (act : α → Action H β) : Prop where
  fails : ∀ {s fault}, read s = .error fault →
    action (w.onScript s) = (.error fault, w.onScript { s with pc := fault.cursor })
  acts : ∀ {s s' value}, read s = .ok (value, s') → s'.code = s.code ∧ action (w.onScript s) = act value (w.onScript s')

namespace Follows

variable {w : World H}

theorem give {action : Action H β} {value : α} {act : α → Action H β}
    (same : ∀ s, action (w.onScript s) = act value (w.onScript s)) : Follows w action (Reader.give value) act where
  fails failed := by cases failed
  acts := by
    rintro s _ _ ⟨⟩
    exact ⟨rfl, same s⟩

/-- An action that goes on with what it has fetched follows the readers in turn. -/
theorem bind {γ δ : Type} {action : Action H β} {read : Reader α} {f : α → β} {next : β → Action H γ}
    {reads : α → Reader δ} {act : δ → Action H γ} (first : Follows w action read fun value => pure (f value))
    (later : ∀ value, Follows w (next (f value)) (reads value) act) :
    Follows w (action >>= next) (read.andThen reads) act where
  fails {s fault} failed := by
    rw [bind_apply]
    rcases here : read s with fault' | ⟨value, behind⟩
    · rw [first.fails here]
      simp only [andThen, here, Except.error.injEq] at failed ⊢
      rw [failed]
    · obtain ⟨code, acted⟩ := first.acts here
      simp only [andThen, here] at failed
      have fails := (later value).fails failed
      rw [code] at fails
      rw [acted]
      exact fails
  acts {s s' result} well := by
    rw [bind_apply]
    rcases here : read s with fault' | ⟨value, behind⟩
    · simp only [andThen, here] at well
      cases well
    · obtain ⟨code, acted⟩ := first.acts here
      simp only [andThen, here] at well
      have acts := (later value).acts well
      rw [acted]
      exact ⟨acts.1.trans code, acts.2⟩

/-- An action that follows a reader follows a reader that makes something of the value. -/
theorem map {γ : Type} {action : Action H β} {read : Reader α} {f : α → γ} {act : γ → Action H β}
    (follows : Follows w action read fun value => act (f value)) : Follows w action (read.map f) act where
  fails {s fault} failed := by
    rcases here : read s with fault' | ⟨value, behind⟩
    · simp only [Reader.map, andThen, here] at failed
      cases failed
      exact follows.fails here
    · simp only [Reader.map, andThen, here, Reader.give] at failed
      cases failed
  acts {s s' result} well := by
    rcases here : read s with fault' | ⟨value, behind⟩
    · simp only [Reader.map, andThen, here] at well
      cases well
    · simp only [Reader.map, andThen, here, Reader.give] at well
      cases well
      exact follows.acts here

/-- Fetching follows a reader that leaves the code alone, and that leaves the offset alone when it fails. -/
theorem fetch {read : Reader α} (code : ∀ {s s' value}, read s = .ok (value, s') → s'.code = s.code)
    (stays : ∀ {s fault}, read s = .error fault → fault.cursor = s.pc) : Follows w (fetch read) read pure where
  fails {s fault} failed := by
    have same : { s with pc := fault.cursor } = s := by rw [stays failed]
    rw [same]
    simp only [Action.fetch, World.onScript, World.mapMachine, failed]
  acts {s s' value} well := by
    refine ⟨code well, ?_⟩
    simp only [Action.fetch, World.onScript, World.mapMachine, well]
    rfl

theorem fetchByte : Follows w fetchByte Script.byte pure :=
  fetch ReadAlike.byte.code fun failed => by rw [Script.byte_error failed]; rfl

theorem fetchWord : Follows w fetchWord Script.word pure :=
  fetch Script.word_alike.code fun failed => by rw [Script.word_error failed]; rfl

/-- An action that only looks at the world does not come between a reader and what follows it. -/
theorem look {γ : Type} {action : Action H γ} {value : γ} {next : γ → Action H β} {read : Reader α}
    {act : α → Action H β} (looks : ∀ s, action (w.onScript s) = (.ok value, w.onScript s)) (later : Follows w (next value) read act) :
    Follows w (action >>= next) read act where
  fails failed := by
    rw [bind_apply, looks]
    exact later.fails failed
  acts well := by
    rw [bind_apply, looks]
    exact later.acts well

theorem readVariable {index : UInt8} {next : Int16 → Action H β} {read : Reader α} {act : α → Action H β}
    (later : Follows w (next (w.read index)) read act) : Follows w (readVariable index >>= next) read act :=
  look (fun _ => rfl) later

theorem origin {next : Nat → Action H β} {read : Reader α} {act : α → Action H β}
    (later : Follows w (next w.machine.instrOffset) read act) : Follows w (origin >>= next) read act :=
  look (fun _ => rfl) later

theorem nil {action : Action H β} {act : Operands [] → Action H β}
    (same : ∀ s, action (w.onScript s) = act () (w.onScript s)) : Follows w action (Operands.read []) act :=
  give same

/-- An action that fetches an operand first follows the reader of the operands. -/
theorem cons (kind : OperandKind) {kinds : List OperandKind} {action : Action H kind.Value}
    {next : kind.Value → Action H β} {act : Operands (kind :: kinds) → Action H β}
    (first : Follows w action kind.read pure)
    (later : ∀ value, Follows w (next value) (Operands.read kinds) fun values => act (value, values)) :
    Follows w (action >>= next) (Operands.read (kind :: kinds)) act := by
  rw [Operands.read_cons]
  exact bind first fun value => (later value).map

/-- An action that follows the reader of an operand follows the reader of that operand alone. -/
theorem only {kind : OperandKind} {action : Action H β} {act : Operands [kind] → Action H β}
    (follows : Follows w action kind.read fun value => act (value, ())) :
    Follows w action (Operands.read [kind]) act := by
  rw [Operands.read_cons]
  exact follows.map

section kinds

variable {kinds : List OperandKind}

theorem var {next : UInt8 → Action H β} {act : Operands (.var :: kinds) → Action H β}
    (later : ∀ value, Follows w (next value) (Operands.read kinds) fun values => act (value, values)) :
    Follows w (Action.fetchByte >>= next) (Operands.read (.var :: kinds)) act :=
  cons .var fetchByte later

theorem byte {next : UInt8 → Action H β} {act : Operands (.byte :: kinds) → Action H β}
    (later : ∀ value, Follows w (next value) (Operands.read kinds) fun values => act (value, values)) :
    Follows w (Action.fetchByte >>= next) (Operands.read (.byte :: kinds)) act :=
  cons .byte fetchByte later

theorem word {next : UInt16 → Action H β} {act : Operands (.word :: kinds) → Action H β}
    (later : ∀ value, Follows w (next value) (Operands.read kinds) fun values => act (value, values)) :
    Follows w (Action.fetchWord >>= next) (Operands.read (.word :: kinds)) act :=
  cons .word fetchWord later

theorem address {next : UInt16 → Action H β} {act : Operands (.address :: kinds) → Action H β}
    (later : ∀ value, Follows w (next value) (Operands.read kinds) fun values => act (value, values)) :
    Follows w (Action.fetchWord >>= next) (Operands.read (.address :: kinds)) act :=
  cons .address fetchWord later

end kinds

end Follows

section Operands

variable (w : World H)

theorem comparand_follows (condition : UInt8) :
    Follows w (fetchComparand condition) (Comparand.read condition) fun c => pure (w.comparand c) := by
  rw [Comparand.read_eq]
  unfold fetchComparand
  split
  · exact .bind .fetchByte fun _ => .give fun _ => rfl
  · split
    · exact .bind .fetchWord fun _ => .give fun _ => rfl
    · exact .bind .fetchByte fun _ => .give fun _ => rfl

theorem compare_apply (condition : UInt8) (left right : Int16) : compare (condition &&& 7) left right w =
    (.ok ((Comparison.ofCode condition).holds left right), w.warned w.machine.instrOffset (.ofCode condition)) := by
  unfold compare Comparison.ofCode
  rcases (condition &&& 7).toNat with _ | _ | _ | _ | _ | _ | _ <;> rfl

theorem jumpIf_follows : Follows w jumpIf Condition.read fun c u => (.ok (), u.jumpIf w.machine.instrOffset c) := by
  rw [Condition.read_eq]
  refine .bind .fetchByte fun condition => .bind .fetchByte fun var => .readVariable ?_
  refine .bind (comparand_follows w condition) fun comparand => .bind .fetchWord fun target => .give fun s => ?_
  rw [bind_apply, compare_apply, World.jumpIf]
  show _ = (_, if (Comparison.ofCode condition).holds (w.read var) (w.comparand comparand) then _ else _)
  cases (Comparison.ofCode condition).holds (w.read var) (w.comparand comparand) <;> rfl

theorem resetThreads_follows :
    Follows w resetThreads ThreadRange.read fun r u => (.ok (), u.resetThreads w.machine.instrOffset r) := by
  rw [ThreadRange.read_eq]
  refine .bind .fetchByte fun first => .bind .fetchByte fun last => .origin ?_
  by_cases empty : last &&& 0x3F < first
  · have isEmpty : ThreadRange.isEmpty first last = true := decide_eq_true empty
    rw [if_pos empty, if_pos isEmpty]
    refine .give fun s => ?_
    rw [World.resetThreads, if_pos isEmpty]
    rfl
  · have isFilled : ¬ ThreadRange.isEmpty first last = true := by simpa [ThreadRange.isEmpty] using empty
    rw [if_neg empty, if_neg isFilled]
    refine .bind .fetchByte fun action => .give fun s => ?_
    rw [World.resetThreads, if_neg isFilled]
    rfl

theorem horizontal_follows (opcode : UInt8) :
    Follows w (fetchHorizontal opcode) (Horizontal.read .twoBytes opcode) fun x => pure (w.horizontal x) := by
  rw [Horizontal.read_eq]
  by_cases wide : opcode &&& 0x20 = 0 ∧ opcode &&& 0x10 = 0
  · have twoBytes : CoordinateRead.twoBytes.read = Script.byteByByte := rfl
    rw [if_pos wide, twoBytes, Script.byteByByte_eq, andThen_assoc]
    refine .bind .fetchByte fun first => ?_
    rw [andThen_assoc, if_pos wide.1, if_pos wide.2]
    exact .bind .fetchByte fun low => .give fun _ => rfl
  · rw [if_neg wide]
    refine .bind .fetchByte fun first => .give fun s => ?_
    by_cases first : opcode &&& 0x20 = 0
    · have second : ¬ opcode &&& 0x10 = 0 := fun second => wide ⟨first, second⟩
      simp only [if_pos first, if_neg second]
      rfl
    · by_cases second : opcode &&& 0x10 = 0
      · simp only [if_neg first, second, ne_eq, not_true_eq_false, if_false, if_true]
        rfl
      · simp only [if_neg first, second, ne_eq, not_false_eq_true, if_false, if_true]
        rfl

theorem vertical_follows (opcode : UInt8) :
    Follows w (fetchVertical opcode) (Vertical.read .twoBytes opcode) fun y => pure (w.vertical y) := by
  rw [Vertical.read_eq]
  by_cases wide : opcode &&& 0x08 = 0 ∧ opcode &&& 0x04 = 0
  · have twoBytes : CoordinateRead.twoBytes.read = Script.byteByByte := rfl
    rw [if_pos wide, twoBytes, Script.byteByByte_eq, andThen_assoc]
    refine .bind .fetchByte fun first => ?_
    rw [andThen_assoc, if_pos wide.1, if_pos wide.2]
    exact .bind .fetchByte fun low => .give fun _ => rfl
  · rw [if_neg wide]
    refine .bind .fetchByte fun first => .give fun s => ?_
    by_cases first : opcode &&& 0x08 = 0
    · have second : ¬ opcode &&& 0x04 = 0 := fun second => wide ⟨first, second⟩
      simp only [if_pos first, if_neg second]
      rfl
    · simp only [if_neg first]
      rfl

theorem zoom_follows (opcode : UInt8) : Follows w (fetchZoom opcode) (Zoom.read opcode) fun z => pure (w.zoom z) := by
  rw [Zoom.read_eq, fetchZoom, Zoom.flags_bits]
  by_cases first : opcode &&& 0x02 = 0
  · rw [if_pos first, if_pos first]
    by_cases second : opcode &&& 0x01 = 0
    · rw [if_pos second, if_pos second]
      exact .give fun _ => rfl
    · rw [if_neg second, if_neg second]
      exact .bind .fetchByte fun _ => .readVariable (.give fun _ => rfl)
  · rw [if_neg first, if_neg first]
    by_cases second : opcode &&& 0x01 = 0
    · rw [if_pos second, if_pos second]
      exact .bind .fetchByte fun _ => .give fun _ => rfl
    · rw [if_neg second, if_neg second]
      exact .give fun _ => rfl

variable [Host H]

theorem drawSprite_follows (opcode : UInt8) : Follows w (drawSprite opcode) (Instr.readAfter .twoBytes opcode .sprite)
    fun instr u => u.execute w.machine.instrOffset instr := by
  rw [Instr.readAfter_sprite]
  refine .bind .fetchWord fun halved => .bind (horizontal_follows w opcode) fun x => ?_
  exact .bind (vertical_follows w opcode) fun y => .bind (zoom_follows w opcode) fun zoom => .give fun _ => rfl

/-- The bit that marks an opcode as a background draw is no bit of the offset. -/
theorem double_wordOf (opcode low : UInt8) : Bytes.wordOf opcode low * 2 = Bytes.wordOf (opcode &&& 0x7F) low * 2 := by
  have masked : (opcode &&& 0x7F).toNat = opcode.toNat % 128 := by
    rw [UInt8.toNat_and]
    exact Nat.and_two_pow_sub_one_eq_mod opcode.toNat 7
  apply UInt16.toNat_inj.mp
  rw [UInt16.toNat_mul, UInt16.toNat_mul, Bytes.toNat_wordOf, Bytes.toNat_wordOf, masked]
  show _ * 2 % 65536 = _ * 2 % 65536
  omega

theorem drawBackground_follows (opcode : UInt8) :
    Follows w (drawBackground opcode) (Instr.readAfter .twoBytes opcode .background)
      fun instr u => u.execute w.machine.instrOffset instr := by
  rw [Instr.readAfter_background]
  refine .bind .fetchByte fun low => .bind .fetchByte fun x => .bind .fetchByte fun y => .give fun s => ?_
  show (Except.ok (), (w.onScript s).drawBackground (Bytes.wordOf opcode low) (widen x) (widen y)) =
    (Except.ok (), (w.onScript s).drawBackground (Bytes.wordOf (opcode &&& 0x7F) low) (widen x) (widen y))
  simp only [World.drawBackground, World.drawPolygon, double_wordOf opcode low]

/-- An instruction of the table fetches its operands in order and executes them. -/
theorem exec_follows (op : Opcode) : Follows w (exec op) (Operands.read op.operands)
    fun operands u => u.executeTable w.machine.instrOffset op operands := by
  cases op with
  | set | addi | and | or | shl | shr => exact .var fun _ => .word fun _ => .nil fun _ => rfl
  | mov | add | sub => exact .var fun _ => .var fun _ => .nil fun _ => rfl
  | call => exact .address fun _ => .origin (.nil fun _ => rfl)
  | jmp => exact .address fun _ => .nil fun _ => rfl
  | ret => exact .origin (.nil fun _ => rfl)
  | pause | kill => exact .nil fun _ => rfl
  | setVec => exact .byte fun _ => .address fun _ => .nil fun _ => rfl
  | djnz => exact .var fun _ => .address fun _ => .nil fun _ => rfl
  | jmpIf => exact .only (jumpIf_follows w)
  | resetThreads => exact .only (resetThreads_follows w)
  | setPalette | loadResource => exact .word fun _ => .nil fun _ => rfl
  | selectPage | blit => exact .byte fun _ => .nil fun _ => rfl
  | fillPage | copyPage => exact .byte fun _ => .byte fun _ => .nil fun _ => rfl
  | drawString | playSound => exact .word fun _ => .byte fun _ => .byte fun _ => .byte fun _ => .nil fun _ => rfl
  | playMusic => exact .word fun _ => .word fun _ => .byte fun _ => .nil fun _ => rfl

/-- What follows the opcode of an instruction. -/
def afterLead (opcode : UInt8) : Lead → Action H Unit
  | .table op => exec op
  | .background => drawBackground opcode
  | .sprite => drawSprite opcode

theorem afterLead_follows (opcode : UInt8) (lead : Lead) :
    Follows w (afterLead opcode lead) (Instr.readAfter .twoBytes opcode lead)
      fun instr u => u.execute w.machine.instrOffset instr := by
  cases lead with
  | background => exact drawBackground_follows w opcode
  | sprite => exact drawSprite_follows w opcode
  | table op =>
    rw [Instr.readAfter_table]
    exact (exec_follows w op).map

end Operands

end Action

theorem Instr.lead_of_readAfter {how : CoordinateRead} {opcode : UInt8} {lead : Lead} {s s' : Script} {instr : Instr}
    (read : Instr.readAfter how opcode lead s = .ok (instr, s')) : instr.lead = lead := by
  revert read
  fun_cases Instr.readAfter how opcode lead s <;> simp_all [Instr.lead]
  all_goals
    rintro rfl _
    rfl

namespace World

variable {H : Type} [Host H]

/-- The world when an instruction begins. -/
def started (w : World H) : World H :=
  w.mapMachine fun m => { m with instrOffset := m.script.pc }

theorem step_of_byte_error {w : World H} {fault : Fault} (first : w.machine.script.byte = .error fault) :
    w.step = (.error fault, w.started) := by
  have fetched : Action.fetchByte w.started = (.error fault, w.started) := by
    simp only [Action.fetchByte, Action.fetch, started, mapMachine, first]
  show (Action.fetchByte >>= _) w.started = _
  rw [Action.bind_apply, fetched]

theorem step_of_byte {w : World H} {opcode : UInt8} {behind : Script}
    (first : w.machine.script.byte = .ok (opcode, behind)) : w.step =
      match Lead.ofByte? opcode with
      | none => (.error (.invalidInstruction opcode w.machine.script.pc), w.started.onScript behind)
      | some lead => Action.afterLead opcode lead ((w.begun lead).onScript behind) := by
  have fetched : Action.fetchByte w.started = (.ok opcode, w.started.onScript behind) := by
    simp only [Action.fetchByte, Action.fetch, started, onScript, mapMachine, first]
  show (Action.fetchByte >>= _) w.started = _
  rw [Action.bind_apply, fetched]
  simp only [Lead.ofByte?]
  split
  · rfl
  · split
    · rfl
    · rcases Opcode.ofByte? opcode with _ | op <;> rfl

/-- What a step does: it reads the instruction at its position as a whole, and executes it. -/
theorem step_eq (w : World H) : w.step =
    match Instr.read .twoBytes w.machine.script with
    | .error fault => (.error fault, w.broken fault)
    | .ok (instr, script) => (w.fetched instr script).execute w.machine.script.pc instr := by
  rcases first : w.machine.script.byte with fault | ⟨opcode, behind⟩
  · have stands : fault.cursor = w.machine.script.pc := by rw [Script.byte_error first]; rfl
    rw [step_of_byte_error first]
    simp only [Instr.read, first, broken, started, mapMachine, Lead.next?, Option.elim, stands]
  · have code : behind.code = w.machine.script.code := ReadAlike.byte.code first
    rw [step_of_byte first]
    rcases meaning : Lead.ofByte? opcode with _ | lead
    · have next : behind = { w.machine.script with pc := w.machine.script.pc + 1 } := by
        unfold Script.byte at first
        split at first <;> cases first
        rfl
      simp only [Instr.read, first, meaning, broken, started, onScript, mapMachine, Lead.next?, Option.elim, Fault.cursor,
        next]
    · have follows := Action.afterLead_follows (w.begun lead) opcode lead
      simp only [Instr.read, first, meaning]
      rcases read : Instr.readAfter .twoBytes opcode lead behind with fault | ⟨instr, script⟩
      · rw [follows.fails read, code]
        simp only [broken, begun, onScript, mapMachine, Lead.next?, first, meaning, Option.elim]
      · rw [(follows.acts read).2]
        simp only [fetched, Instr.lead_of_readAfter read]
        rfl

end World

end Framescript
