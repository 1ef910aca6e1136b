import Framescript.Listing
import Framescript.Proofs.Encoding

/-!
A line of a listing is an instruction that was read as a whole, with its text. The listing decodes the operands of an
instruction one by one and writes their texts as it goes (`Decoder.instruction_eq`).
-/
namespace Framescript.Listing

open Reader

namespace Decoder

variable {α β : Type}

theorem bind_eq (decoder : Decoder α) (next : α → Decoder β) : decoder >>= next = andThen decoder next := by
  funext s
  show Except.bind (decoder s) _ = _
  rw [andThen]
  rcases decoder s with fault | ⟨value, s⟩ <;> rfl

theorem pure_eq (value : α) : (pure value : Decoder α) = give value := rfl

/-- A piece that stands for a value is decoded to the text of that value. -/
theorem piece_eq {γ : Type} (read : Decoder α) (value : α → β) (text : β → γ) :
    (do return text (value (← read)) : Decoder γ) = Reader.map (andThen read fun piece => give (value piece)) text := by
  rw [Reader.map, andThen_assoc]
  exact bind_eq _ _

theorem comparison_eq (condition : UInt8) : comparison (condition &&& 7) = (Comparison.ofCode condition).symbol := by
  revert condition
  exact Bytes.forall_byte (by decide +kernel)

theorem comparand_eq (condition : UInt8) :
    comparand condition = Reader.map (Comparand.read condition) Comparand.render := by
  rw [Comparand.read_eq]
  unfold comparand
  split
  · exact piece_eq Script.byte Comparand.var Comparand.render
  · split
    · exact piece_eq Script.word Comparand.word Comparand.render
    · exact piece_eq Script.byte Comparand.byte Comparand.render

theorem condition_eq : condition = Reader.map Condition.read Condition.render := by
  rw [Condition.read_eq]
  unfold condition
  simp only [bind_eq, pure_eq, Reader.map, andThen_assoc, give_andThen, comparand_eq, comparison_eq]
  rfl

theorem range_eq : range = Reader.map ThreadRange.read ThreadRange.render := by
  rw [ThreadRange.read_eq]
  unfold range
  simp only [bind_eq, pure_eq, Reader.map, andThen_assoc]
  congr 1
  funext first
  congr 1
  funext last
  by_cases empty : ThreadRange.isEmpty first last
  · simp [ThreadRange.size, empty, give_andThen]
    rfl
  · simp [ThreadRange.size, empty, give_andThen, andThen_assoc]
    rfl

theorem operand_eq (kind : OperandKind) : operand kind = Reader.map kind.read kind.render := by
  cases kind with
  | condition => exact condition_eq
  | range => exact range_eq
  | _ => exact bind_eq _ _

theorem operands_eq (kinds : List OperandKind) :
    kinds.mapM operand = Reader.map (Operands.read kinds) (Operands.render kinds) := by
  induction kinds with
  | nil => rfl
  | cons kind kinds ih =>
    rw [List.mapM_cons, operand_eq, ih]
    simp only [bind_eq, pure_eq, Reader.map, andThen_assoc, give_andThen]
    funext s
    simp only [andThen, Operands.read]
    rcases kind.read s with fault | ⟨value, behind⟩
    · rfl
    · simp only
      rcases Operands.read kinds behind with fault | ⟨values, after⟩ <;> rfl

theorem horizontal_eq (opcode : UInt8) :
    horizontal opcode = Reader.map (Horizontal.read .oneWord opcode) Horizontal.render := by
  rw [Horizontal.read_eq, horizontal]
  by_cases first : opcode &&& 0x20 = 0
  · by_cases second : opcode &&& 0x10 = 0
    · simp only [first, second, ne_eq, not_true_eq_false, decide_false, and_self, if_true]
      exact piece_eq Script.word Horizontal.word Horizontal.render
    · simp only [first, second, ne_eq, not_true_eq_false, not_false_eq_true, decide_false, decide_true, and_false,
        if_true, if_false]
      exact piece_eq Script.byte Horizontal.var Horizontal.render
  · by_cases second : opcode &&& 0x10 = 0
    · simp only [first, second, ne_eq, not_true_eq_false, not_false_eq_true, decide_false, decide_true, false_and,
        if_true, if_false]
      exact piece_eq Script.byte Horizontal.byte Horizontal.render
    · simp only [first, second, ne_eq, not_false_eq_true, decide_true, and_self, if_false]
      exact piece_eq Script.byte Horizontal.beyond Horizontal.render

theorem vertical_eq (opcode : UInt8) :
    vertical opcode = Reader.map (Vertical.read .oneWord opcode) Vertical.render := by
  rw [Vertical.read_eq, vertical]
  by_cases first : opcode &&& 0x08 = 0
  · by_cases second : opcode &&& 0x04 = 0
    · simp only [first, second, ne_eq, not_true_eq_false, decide_false, and_self, if_true]
      exact piece_eq Script.word Vertical.word Vertical.render
    · simp only [first, second, ne_eq, not_true_eq_false, not_false_eq_true, decide_false, decide_true, and_false,
        if_true, if_false]
      exact piece_eq Script.byte Vertical.var Vertical.render
  · simp only [first, ne_eq, not_false_eq_true, decide_true, false_and, if_false]
    exact piece_eq Script.byte Vertical.byte Vertical.render

theorem zoom_eq (opcode : UInt8) : zoom opcode = Reader.map (Zoom.read opcode) Zoom.render := by
  rw [Zoom.read_eq, zoom, Zoom.flags_bits]
  by_cases first : opcode &&& 0x02 = 0
  · rw [if_pos first, if_pos first]
    by_cases second : opcode &&& 0x01 = 0
    · rw [if_pos second, if_pos second]
      rfl
    · rw [if_neg second, if_neg second]
      exact piece_eq Script.byte Zoom.var Zoom.render
  · rw [if_neg first, if_neg first]
    by_cases second : opcode &&& 0x01 = 0
    · rw [if_pos second, if_pos second]
      exact piece_eq Script.byte Zoom.byte Zoom.render
    · rw [if_neg second, if_neg second]
      rfl

theorem sprite_eq (opcode : UInt8) :
    sprite opcode = Reader.map (Instr.readAfter .oneWord opcode .sprite) Instr.render := by
  rw [Instr.readAfter_sprite]
  unfold sprite
  simp only [bind_eq, pure_eq, horizontal_eq, vertical_eq, zoom_eq, Reader.map, andThen_assoc, give_andThen]
  rfl

theorem background_eq (opcode : UInt8) :
    background opcode = Reader.map (Instr.readAfter .oneWord opcode .background) Instr.render := by
  rw [Instr.readAfter_background]
  unfold background
  simp only [bind_eq, pure_eq, Reader.map, andThen_assoc, give_andThen]
  rfl

/-- The text of the next instruction is the text of the instruction that is read as a whole. -/
theorem instruction_eq : instruction = Reader.map (Instr.read .oneWord) Instr.render := by
  funext s
  unfold instruction
  rw [bind_eq, andThen]
  show (byte >>= (_ : UInt8 → Decoder (List Char))) s = _
  rw [bind_eq, andThen, Reader.map, andThen, Instr.read, byte]
  rcases first : s.byte with fault | ⟨opcode, behind⟩
  · rfl
  · simp only [Lead.ofByte?]
    split
    · exact congrFun (background_eq opcode) behind
    · split
      · exact congrFun (sprite_eq opcode) behind
      · rcases Opcode.ofByte? opcode with _ | op
        · rfl
        · simp only [Option.map_some, operands_eq, bind_eq, pure_eq, Instr.readAfter_table, Reader.map, andThen]
          rcases Operands.read op.operands behind with fault | ⟨operands, after⟩ <;> rfl

end Decoder

/-- A line is an instruction that is read as a whole, with its bytes and its text. -/
theorem lineAt_eq (s : Script) : lineAt s =
    match Instr.read .oneWord s with
    | .error fault => .error fault
    | .ok (instr, rest) => .ok (⟨s.pc, (s.code.extract s.pc rest.pc).toList, instr.render⟩, rest) := by
  rw [lineAt, Decoder.instruction_eq, Reader.map, andThen]
  rcases Instr.read .oneWord s with fault | ⟨instr, rest⟩ <;> rfl

end Framescript.Listing
