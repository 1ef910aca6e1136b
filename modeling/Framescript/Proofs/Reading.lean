import Framescript.Proofs.Decoding

/-!
What readers of bytecode read. A reader takes the bytes in front of it, gives the same value wherever the same
bytes stand, and fails at the end of the code wherever only some of them are left (`Takes`). Two readers read
alike if they take the same bytes for the same value wherever they are (`ReadAlike`), and they do so if their
parts do. So an instruction is the same, with the same bytes, however its coordinates are read
(`Instr.readAfter_alike`).
-/
namespace Framescript

/-- Reads a value at the position of a script. -/
abbrev Reader (α : Type) := Script → Except Fault (α × Script)

/-- Whether a fault says that the code has ended. -/
def Fault.isEndOfCode : Fault → Bool
  | .endOfCode .. => true
  | _ => false

namespace Script

/-- The bytes from the position on. -/
def rest (s : Script) : Bytes :=
  s.code.toList.drop s.pc

/-- The script some bytes further on. -/
def advance (s : Script) (count : Nat) : Script :=
  { s with pc := s.pc + count }

@[simp] theorem advance_pc (s : Script) (count : Nat) : (s.advance count).pc = s.pc + count := rfl

theorem advance_advance (s : Script) (first second : Nat) :
    (s.advance first).advance second = s.advance (first + second) := by
  simp [advance, Nat.add_assoc]

@[simp] theorem rest_advance (s : Script) (count : Nat) : (s.advance count).rest = s.rest.drop count := by
  simp [rest, advance]

theorem length_rest (s : Script) : s.rest.length = s.code.size - s.pc := by
  simp [rest]

theorem getElem?_rest (s : Script) (index : Nat) : s.rest[index]? = s.code[s.pc + index]? := by
  simp [rest]

theorem byte_of_rest {s : Script} {value : UInt8} {tail : Bytes} (front : s.rest = value :: tail) :
    s.byte = .ok (value, s.advance 1) := by
  have inside : s.pc < s.code.size := by
    have := congrArg List.length front
    simp only [length_rest, List.length_cons] at this
    omega
  have first : s.code[s.pc] = value := by
    have := s.getElem?_rest 0
    simp only [front, List.getElem?_cons_zero, Nat.add_zero, Array.getElem?_eq_getElem inside] at this
    exact (Option.some.inj this).symm
  simp [byte, inside, first, advance]

theorem word_of_rest {s : Script} {high low : UInt8} {tail : Bytes} (front : s.rest = high :: low :: tail) :
    s.word = .ok (Bytes.wordOf high low, s.advance 2) := by
  have inside : s.pc + 1 < s.code.size := by
    have := congrArg List.length front
    simp only [length_rest, List.length_cons] at this
    omega
  have before : s.pc < s.code.size := by omega
  have first : s.code[s.pc] = high := by
    have := s.getElem?_rest 0
    simp only [front, List.getElem?_cons_zero, Nat.add_zero, Array.getElem?_eq_getElem before] at this
    exact (Option.some.inj this).symm
  have second : s.code[s.pc + 1] = low := by
    have := s.getElem?_rest 1
    simp only [front, List.getElem?_cons_succ, List.getElem?_cons_zero, Array.getElem?_eq_getElem inside] at this
    exact (Option.some.inj this).symm
  simp [word, inside, first, second, advance]

theorem byte_error {s : Script} {fault : Fault} (failed : s.byte = .error fault) : fault = s.endOfCode 1 := by
  unfold byte at failed
  split at failed <;> cases failed
  rfl

theorem word_error {s : Script} {fault : Fault} (failed : s.word = .error fault) : fault = s.endOfCode 2 := by
  unfold word at failed
  split at failed <;> cases failed
  rfl

theorem byte_of_end {s : Script} (front : s.rest = []) : ∃ fault, s.byte = .error fault ∧ fault.isEndOfCode := by
  have outside : ¬ s.pc < s.code.size := by
    have := congrArg List.length front
    simp only [length_rest, List.length_nil] at this
    omega
  exact ⟨s.endOfCode 1, by simp [byte, outside], rfl⟩

theorem word_of_end {s : Script} (few : s.rest.length < 2) : ∃ fault, s.word = .error fault ∧ fault.isEndOfCode := by
  have outside : ¬ s.pc + 1 < s.code.size := by
    simp only [length_rest] at few
    omega
  exact ⟨s.endOfCode 2, by simp [word, outside], rfl⟩

end Script

/-! ### Readers -/

namespace Reader

variable {α β : Type}

/-- Gives a value without reading. -/
def give (value : α) : Reader α :=
  fun s => .ok (value, s)

/-- Reads on behind what a reader has read. -/
def andThen (read : Reader α) (next : α → Reader β) : Reader β := fun s =>
  match read s with
  | .error fault => .error fault
  | .ok (value, s) => next value s

/-- Reads a value and makes something of it. -/
def map (read : Reader α) (f : α → β) : Reader β :=
  read.andThen fun value => give (f value)

theorem andThen_assoc {γ : Type} (read : Reader α) (next : α → Reader β) (later : β → Reader γ) :
    (read.andThen next).andThen later = read.andThen fun value => (next value).andThen later := by
  funext s
  simp only [andThen]
  rcases read s with fault | ⟨value, s⟩ <;> rfl

theorem give_andThen (value : α) (next : α → Reader β) : (give value).andThen next = next value := rfl

/-- A reader takes `bytes` for `value`: wherever they stand it reads them, and wherever the code ends among them
    it fails for that. -/
structure Takes (read : Reader α) (bytes : Bytes) (value : α) : Prop where
  whole : ∀ s : Script, bytes <+: s.rest → read s = .ok (value, s.advance bytes.length)
  cut : ∀ s : Script, s.rest <+: bytes → s.rest.length < bytes.length →
    ∃ fault, read s = .error fault ∧ fault.isEndOfCode

theorem takes_give (value : α) : Takes (give value) [] value where
  whole _ _ := rfl
  cut _ _ short := absurd short (Nat.not_lt_zero _)

theorem takes_byte (value : UInt8) : Takes Script.byte [value] value where
  whole s front := by
    obtain ⟨tail, split⟩ := front
    exact Script.byte_of_rest split.symm
  cut s _ short := Script.byte_of_end (List.length_eq_zero_iff.mp (Nat.lt_one_iff.mp short))

theorem takes_word (high low : UInt8) : Takes Script.word [high, low] (Bytes.wordOf high low) where
  whole s front := by
    obtain ⟨tail, split⟩ := front
    exact Script.word_of_rest split.symm
  cut s _ short := Script.word_of_end short

/-- What is read in turn takes what the parts take. -/
theorem Takes.andThen {read : Reader α} {next : α → Reader β} {first second : Bytes} {value : α} {result : β}
    (here : Takes read first value) (there : Takes (next value) second result) :
    Takes (read.andThen next) (first ++ second) result where
  whole s front := by
    have taken := here.whole s ((List.prefix_append first second).trans front)
    obtain ⟨tail, split⟩ := front
    have behind : second <+: (s.advance first.length).rest := by
      refine ⟨tail, ?_⟩
      rw [Script.rest_advance, ← split, List.append_assoc, List.drop_left]
    rw [Reader.andThen, taken]
    simp only [there.whole _ behind, Script.advance_advance, List.length_append]
  cut s front short := by
    by_cases early : s.rest.length < first.length
    · have among : s.rest <+: first :=
        List.prefix_of_prefix_length_le front (List.prefix_append first second) (Nat.le_of_lt early)
      obtain ⟨fault, failed, atEnd⟩ := here.cut s among early
      exact ⟨fault, by simp only [Reader.andThen, failed], atEnd⟩
    · have whole : first <+: s.rest :=
        List.prefix_of_prefix_length_le (List.prefix_append first second) front (Nat.le_of_not_lt early)
      have behind : (s.advance first.length).rest <+: second := by
        obtain ⟨tail, split⟩ := whole
        rw [Script.rest_advance, ← split, List.drop_left]
        rw [← split] at front
        exact (List.prefix_append_right_inj first).mp front
      have shorter : (s.advance first.length).rest.length < second.length := by
        rw [List.length_append] at short
        rw [Script.rest_advance, List.length_drop]
        omega
      obtain ⟨fault, failed, atEnd⟩ := there.cut _ behind shorter
      exact ⟨fault, by simp only [Reader.andThen, here.whole s whole, failed], atEnd⟩

/-- Two readers read alike: wherever they are, both find that the code has ended, or both take the same bytes for the
    same value. -/
def ReadAlike (read other : Reader α) : Prop :=
  ∀ s : Script,
    ((∃ fault, read s = .error fault ∧ fault.isEndOfCode) ∧ ∃ fault, other s = .error fault ∧ fault.isEndOfCode) ∨
    ∃ bytes value, bytes <+: s.rest ∧ Takes read bytes value ∧ Takes other bytes value

theorem ReadAlike.give (value : α) : ReadAlike (give value) (Reader.give value) := by
  intro s
  exact .inr ⟨[], value, List.nil_prefix, takes_give value, takes_give value⟩

theorem ReadAlike.byte : ReadAlike Script.byte Script.byte := by
  intro s
  rcases front : s.rest with _ | ⟨value, tail⟩
  · exact .inl ⟨Script.byte_of_end front, Script.byte_of_end front⟩
  · exact .inr ⟨[value], value, ⟨tail, rfl⟩, takes_byte value, takes_byte value⟩

/-- Readers of two bytes read alike if they make the same word of them. -/
theorem ReadAlike.ofTwo {read other : Reader UInt16} (here : ∀ high low, Takes read [high, low] (Bytes.wordOf high low))
    (there : ∀ high low, Takes other [high, low] (Bytes.wordOf high low)) : ReadAlike read other := by
  intro s
  rcases front : s.rest with _ | ⟨high, _ | ⟨low, tail⟩⟩
  · have among : s.rest <+: [0, 0] := by simp [front]
    exact .inl ⟨(here 0 0).cut s among (by simp [front]), (there 0 0).cut s among (by simp [front])⟩
  · have among : s.rest <+: [high, 0] := by simp [front]
    exact .inl ⟨(here high 0).cut s among (by simp [front]), (there high 0).cut s among (by simp [front])⟩
  · exact .inr ⟨[high, low], _, ⟨tail, rfl⟩, here high low, there high low⟩

theorem ReadAlike.andThen {read other : Reader α} {next next' : α → Reader β} (here : ReadAlike read other)
    (there : ∀ value, ReadAlike (next value) (next' value)) : ReadAlike (read.andThen next) (other.andThen next') := by
  intro s
  rcases here s with ⟨⟨fault, failed, atEnd⟩, fault', failed', atEnd'⟩ | ⟨bytes, value, front, takes, takes'⟩
  · exact .inl ⟨⟨fault, by simp only [Reader.andThen, failed], atEnd⟩, fault', by simp only [Reader.andThen, failed'],
      atEnd'⟩
  · have first : read s = .ok (value, s.advance bytes.length) := takes.whole s front
    have first' : other s = .ok (value, s.advance bytes.length) := takes'.whole s front
    rcases there value (s.advance bytes.length) with
      ⟨⟨fault, failed, atEnd⟩, fault', failed', atEnd'⟩ | ⟨more, result, behind, takesMore, takesMore'⟩
    · refine .inl ⟨⟨fault, ?_, atEnd⟩, fault', ?_, atEnd'⟩
      · simp only [Reader.andThen, first, failed]
      · simp only [Reader.andThen, first', failed']
    · refine .inr ⟨bytes ++ more, result, ?_, takes.andThen takesMore, takes'.andThen takesMore'⟩
      obtain ⟨tail, split⟩ := front
      rw [Script.rest_advance, ← split, List.drop_left] at behind
      rw [← split]
      exact (List.prefix_append_right_inj bytes).mpr behind

/-- What reads alike leaves the code as it is. -/
theorem ReadAlike.code {read other : Reader α} (alike : ReadAlike read other) {s s' : Script} {value : α}
    (well : read s = .ok (value, s')) : s'.code = s.code := by
  rcases alike s with ⟨⟨fault, failed, _⟩, _⟩ | ⟨bytes, _, front, takes, _⟩
  · rw [failed] at well
    cases well
  · rw [takes.whole s front] at well
    cases well
    rfl

/-- What reads alike fails only at the end of the code. -/
theorem ReadAlike.fault {read other : Reader α} (alike : ReadAlike read other) {s : Script} {fault : Fault}
    (failed : read s = .error fault) : fault.isEndOfCode := by
  rcases alike s with ⟨⟨_, failed', atEnd⟩, _⟩ | ⟨bytes, _, front, takes, _⟩
  · rw [failed'] at failed
    cases failed
    exact atEnd
  · rw [takes.whole s front] at failed
    cases failed

end Reader

open Reader

theorem Script.byteByByte_eq : Script.byteByByte =
    andThen Script.byte fun high => andThen Script.byte fun low => give (Bytes.wordOf high low) := by
  funext s
  fun_cases Script.byteByByte s <;> simp only [andThen, give, *]

theorem takes_byteByByte (high low : UInt8) : Takes Script.byteByByte [high, low] (Bytes.wordOf high low) := by
  rw [Script.byteByByte_eq]
  exact (takes_byte high).andThen ((takes_byte low).andThen (takes_give _))

theorem CoordinateRead.takes_read (how : CoordinateRead) (high low : UInt8) :
    Takes how.read [high, low] (Bytes.wordOf high low) := by
  cases how with
  | oneWord => exact takes_word high low
  | twoBytes => exact takes_byteByByte high low

theorem CoordinateRead.read_alike (how how' : CoordinateRead) : ReadAlike how.read how'.read :=
  ReadAlike.ofTwo how.takes_read how'.takes_read

theorem Script.word_alike : ReadAlike Script.word Script.word :=
  ReadAlike.ofTwo takes_word takes_word

/-! ### Operands -/

theorem Comparand.read_eq (condition : UInt8) : Comparand.read condition =
    if condition &&& 0x80 ≠ 0 then andThen Script.byte fun index => give (.var index)
    else if condition &&& 0x40 ≠ 0 then andThen Script.word fun value => give (.word value)
    else andThen Script.byte fun value => give (.byte value) := by
  funext s
  fun_cases Comparand.read condition s <;> simp [andThen, give, *]

theorem Condition.read_eq : Condition.read =
    andThen Script.byte fun condition => andThen Script.byte fun var =>
      andThen (Comparand.read condition) fun comparand =>
        andThen Script.word fun target => give ⟨.ofCode condition, var, comparand, target⟩ := by
  funext s
  fun_cases Condition.read s <;> simp [andThen, give, *]

theorem ThreadRange.read_eq : ThreadRange.read =
    andThen Script.byte fun first => andThen Script.byte fun last =>
      if ThreadRange.isEmpty first last then give ⟨first, last, 0⟩
      else andThen Script.byte fun action => give ⟨first, last, action⟩ := by
  funext s
  fun_cases ThreadRange.read s <;> simp [andThen, give, *]

theorem Operands.read_cons (kind : OperandKind) (kinds : List OperandKind) : Operands.read (kind :: kinds) =
    andThen kind.read fun value => andThen (Operands.read kinds) fun values => give (value, values) := by
  funext s
  rw [Operands.read, andThen]
  rcases kind.read s with fault | ⟨value, s⟩
  · rfl
  · simp only [andThen]
    rcases Operands.read kinds s with fault | ⟨values, s⟩ <;> rfl

theorem Horizontal.read_eq (how : CoordinateRead) (opcode : UInt8) : Horizontal.read how opcode =
    if opcode &&& 0x20 = 0 ∧ opcode &&& 0x10 = 0 then andThen how.read fun value => give (.word value)
    else andThen Script.byte fun b =>
      give (if opcode &&& 0x20 = 0 then .var b else if opcode &&& 0x10 = 0 then .byte b else .beyond b) := by
  funext s
  unfold Horizontal.read
  split
  · rw [andThen]
    rcases how.read s with fault | ⟨value, s⟩ <;> rfl
  · rw [andThen]
    rcases s.byte with fault | ⟨b, s⟩
    · rfl
    · simp only [give]
      split
      · rfl
      · split <;> rfl

theorem Vertical.read_eq (how : CoordinateRead) (opcode : UInt8) : Vertical.read how opcode =
    if opcode &&& 0x08 = 0 ∧ opcode &&& 0x04 = 0 then andThen how.read fun value => give (.word value)
    else andThen Script.byte fun b => give (if opcode &&& 0x08 = 0 then .var b else .byte b) := by
  funext s
  unfold Vertical.read
  split
  · rw [andThen]
    rcases how.read s with fault | ⟨value, s⟩ <;> rfl
  · rw [andThen]
    rcases s.byte with fault | ⟨b, s⟩
    · rfl
    · simp only [give]
      split <;> rfl

theorem Zoom.read_eq (opcode : UInt8) : Zoom.read opcode =
    if opcode &&& 0x02 = 0 then
      if opcode &&& 0x01 = 0 then give .normal else andThen Script.byte fun index => give (.var index)
    else if opcode &&& 0x01 = 0 then andThen Script.byte fun value => give (.byte value)
    else give .alternate := by
  funext s
  fun_cases Zoom.read opcode s <;> simp [andThen, give, *]

theorem Instr.readAfter_table (how : CoordinateRead) (opcode : UInt8) (op : Opcode) :
    Instr.readAfter how opcode (.table op) = andThen (Operands.read op.operands) fun values => give (.table op values) := by
  funext s
  rw [Instr.readAfter, andThen]
  rcases Operands.read op.operands s with fault | ⟨values, s⟩ <;> rfl

theorem Instr.readAfter_background (how : CoordinateRead) (opcode : UInt8) : Instr.readAfter how opcode .background =
    andThen Script.byte fun low => andThen Script.byte fun x => andThen Script.byte fun y =>
      give (.background (Bytes.wordOf (opcode &&& 0x7F) low) x y) := by
  funext s
  simp only [Instr.readAfter, andThen]
  rcases s.byte with fault | ⟨low, s⟩
  · rfl
  · simp only
    rcases s.byte with fault | ⟨x, s⟩
    · rfl
    · simp only
      rcases s.byte with fault | ⟨y, s⟩ <;> rfl

theorem Instr.readAfter_sprite (how : CoordinateRead) (opcode : UInt8) : Instr.readAfter how opcode .sprite =
    andThen Script.word fun halved => andThen (Horizontal.read how opcode) fun x =>
      andThen (Vertical.read how opcode) fun y => andThen (Zoom.read opcode) fun zoom =>
        give (.sprite halved x y zoom) := by
  funext s
  simp only [Instr.readAfter, andThen]
  rcases s.word with fault | ⟨halved, s⟩
  · rfl
  · simp only
    rcases Horizontal.read how opcode s with fault | ⟨x, s⟩
    · rfl
    · simp only
      rcases Vertical.read how opcode s with fault | ⟨y, s⟩
      · rfl
      · simp only
        rcases Zoom.read opcode s with fault | ⟨zoom, s⟩ <;> rfl

theorem Comparand.read_alike (condition : UInt8) : ReadAlike (Comparand.read condition) (Comparand.read condition) := by
  rw [Comparand.read_eq]
  split
  · exact ReadAlike.byte.andThen fun _ => ReadAlike.give _
  · split
    · exact Script.word_alike.andThen fun _ => ReadAlike.give _
    · exact ReadAlike.byte.andThen fun _ => ReadAlike.give _

theorem Condition.read_alike : ReadAlike Condition.read Condition.read := by
  rw [Condition.read_eq]
  exact ReadAlike.byte.andThen fun condition => ReadAlike.byte.andThen fun _ =>
    (Comparand.read_alike condition).andThen fun _ => Script.word_alike.andThen fun _ => ReadAlike.give _

theorem ThreadRange.read_alike : ReadAlike ThreadRange.read ThreadRange.read := by
  rw [ThreadRange.read_eq]
  refine ReadAlike.byte.andThen fun first => ReadAlike.byte.andThen fun last => ?_
  split
  · exact ReadAlike.give _
  · exact ReadAlike.byte.andThen fun _ => ReadAlike.give _

theorem OperandKind.read_alike (kind : OperandKind) : ReadAlike kind.read kind.read := by
  cases kind with
  | var => exact ReadAlike.byte
  | byte => exact ReadAlike.byte
  | word => exact Script.word_alike
  | address => exact Script.word_alike
  | condition => exact Condition.read_alike
  | range => exact ThreadRange.read_alike

theorem Operands.read_alike (kinds : List OperandKind) : ReadAlike (Operands.read kinds) (Operands.read kinds) := by
  induction kinds with
  | nil => exact ReadAlike.give _
  | cons kind kinds ih =>
    rw [Operands.read_cons]
    exact kind.read_alike.andThen fun _ => ih.andThen fun _ => ReadAlike.give _

/-! ### Instructions -/

section coordinates

variable (how how' : CoordinateRead) (opcode : UInt8)

theorem Horizontal.read_alike : ReadAlike (Horizontal.read how opcode) (Horizontal.read how' opcode) := by
  rw [Horizontal.read_eq, Horizontal.read_eq]
  split
  · exact (how.read_alike how').andThen fun _ => ReadAlike.give _
  · exact ReadAlike.byte.andThen fun _ => ReadAlike.give _

theorem Vertical.read_alike : ReadAlike (Vertical.read how opcode) (Vertical.read how' opcode) := by
  rw [Vertical.read_eq, Vertical.read_eq]
  split
  · exact (how.read_alike how').andThen fun _ => ReadAlike.give _
  · exact ReadAlike.byte.andThen fun _ => ReadAlike.give _

theorem Zoom.read_alike : ReadAlike (Zoom.read opcode) (Zoom.read opcode) := by
  rw [Zoom.read_eq]
  split
  · split
    · exact ReadAlike.give _
    · exact ReadAlike.byte.andThen fun _ => ReadAlike.give _
  · split
    · exact ReadAlike.byte.andThen fun _ => ReadAlike.give _
    · exact ReadAlike.give _

/-- What follows an opcode is the same instruction, with the same bytes, however its coordinates are read. -/
theorem Instr.readAfter_alike (lead : Lead) :
    ReadAlike (Instr.readAfter how opcode lead) (Instr.readAfter how' opcode lead) := by
  cases lead with
  | table op =>
    rw [Instr.readAfter_table, Instr.readAfter_table]
    exact (Operands.read_alike op.operands).andThen fun _ => ReadAlike.give _
  | background =>
    rw [Instr.readAfter_background, Instr.readAfter_background]
    exact ReadAlike.byte.andThen fun _ => ReadAlike.byte.andThen fun _ => ReadAlike.byte.andThen fun _ =>
      ReadAlike.give _
  | sprite =>
    rw [Instr.readAfter_sprite, Instr.readAfter_sprite]
    exact Script.word_alike.andThen fun _ => (Horizontal.read_alike how how' opcode).andThen fun _ =>
      (Vertical.read_alike how how' opcode).andThen fun _ => (Zoom.read_alike opcode).andThen fun _ => ReadAlike.give _

end coordinates

/-- An opcode takes its own byte and what the rest of its instruction takes. -/
theorem Instr.takes_read {how : CoordinateRead} {opcode : UInt8} {lead : Lead} {bytes : Bytes} {instr : Instr}
    (meaning : Lead.ofByte? opcode = some lead) (after : Takes (Instr.readAfter how opcode lead) bytes instr) :
    Takes (Instr.read how) (opcode :: bytes) instr where
  whole s front := by
    obtain ⟨tail, split⟩ := front
    have behind : bytes <+: (s.advance 1).rest := ⟨tail, by rw [Script.rest_advance, ← split]; rfl⟩
    simp only [Instr.read, Script.byte_of_rest split.symm, meaning, after.whole _ behind, Script.advance_advance,
      List.length_cons, Nat.add_comm]
  cut s front short := by
    rcases here : s.rest with _ | ⟨first, tail⟩
    · obtain ⟨fault, failed, atEnd⟩ := Script.byte_of_end here
      exact ⟨fault, by simp only [Instr.read, failed], atEnd⟩
    · rw [here] at front short
      obtain ⟨rfl, among⟩ := List.cons_prefix_cons.mp front
      have behind : (s.advance 1).rest = tail := by rw [Script.rest_advance, here]; rfl
      obtain ⟨fault, failed, atEnd⟩ := after.cut (s.advance 1) (behind ▸ among)
        (behind ▸ Nat.lt_of_succ_lt_succ short)
      exact ⟨fault, by simp only [Instr.read, Script.byte_of_rest here, meaning, failed], atEnd⟩

/-- All that reading an instruction can come to, the same for both ways of reading: the code ends, or the opcode
    has no meaning, or some bytes are taken for an instruction. -/
theorem Instr.read_cases (s : Script) :
    (∀ how, ∃ fault, Instr.read how s = .error fault ∧ fault.isEndOfCode) ∨
    (∃ opcode, ∀ how, Instr.read how s = .error (.invalidInstruction opcode s.pc)) ∨
    ∃ bytes instr, bytes ≠ [] ∧ bytes <+: s.rest ∧ ∀ how, Takes (Instr.read how) bytes instr := by
  rcases front : s.rest with _ | ⟨opcode, tail⟩
  · obtain ⟨fault, failed, atEnd⟩ := Script.byte_of_end front
    exact .inl fun how => ⟨fault, by simp only [Instr.read, failed], atEnd⟩
  · have first := Script.byte_of_rest front
    rcases meaning : Lead.ofByte? opcode with _ | lead
    · exact .inr (.inl ⟨opcode, fun how => by simp only [Instr.read, first, meaning]⟩)
    · have same (how : CoordinateRead) : Instr.read how s = Instr.readAfter how opcode lead (s.advance 1) := by
        simp only [Instr.read, first, meaning]
      rcases Instr.readAfter_alike .oneWord .twoBytes opcode lead (s.advance 1) with
        ⟨ended, ended'⟩ | ⟨bytes, instr, among, takes, takes'⟩
      · refine .inl fun how => ?_
        rw [same how]
        cases how with
        | oneWord => exact ended
        | twoBytes => exact ended'
      · refine .inr (.inr ⟨opcode :: bytes, instr, List.cons_ne_nil _ _, ?_, fun how => ?_⟩)
        · rw [Script.rest_advance, front, List.drop_one, List.tail_cons] at among
          exact List.cons_prefix_cons.mpr ⟨rfl, among⟩
        · cases how with
          | oneWord => exact Instr.takes_read meaning takes
          | twoBytes => exact Instr.takes_read meaning takes'

/-- An instruction that is read begins with an opcode byte that has a meaning. -/
theorem Instr.of_read {how : CoordinateRead} {s s' : Script} {instr : Instr} (read : Instr.read how s = .ok (instr, s')) :
    ∃ opcode behind lead, s.byte = .ok (opcode, behind) ∧ Lead.ofByte? opcode = some lead ∧
      Instr.readAfter how opcode lead behind = .ok (instr, s') := by
  unfold Instr.read at read
  split at read
  · cases read
  · rename_i opcode behind first
    split at read
    · cases read
    · rename_i lead meaning
      exact ⟨opcode, behind, lead, first, meaning, read⟩

/-- Reading moves the position in the code and does not change the code. -/
theorem Instr.code_of_read {how : CoordinateRead} {s s' : Script} {instr : Instr}
    (read : Instr.read how s = .ok (instr, s')) : s'.code = s.code := by
  obtain ⟨opcode, behind, lead, first, _, second⟩ := Instr.of_read read
  exact ((Instr.readAfter_alike how how opcode lead).code second).trans (ReadAlike.byte.code first)

end Framescript
