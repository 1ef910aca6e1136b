import Framescript.Instruction.Encode
import Framescript.Instruction.Render
import Framescript.Script

/-!
What an instruction in bytecode is, apart from what is done with it: the instruction is read as a
whole, and then has a text. The machine and the listing both decode instructions piece by piece, each
in its own way; what they do is compared with this reading. They differ in one point only: the
machine reads a wide coordinate of a sprite one byte after the other, the listing as one word, so that
they report a missing second byte differently.
-/
namespace Framescript

namespace Comparison

/-- The comparison in the lowest three bits of a condition byte. -/
def ofCode (condition : UInt8) : Comparison :=
  match (condition &&& 7).toNat with
  | 0 => .equal
  | 1 => .notEqual
  | 2 => .greater
  | 3 => .greaterOrEqual
  | 4 => .less
  | 5 => .lessOrEqual
  | _ => .unknown (condition &&& 7)

end Comparison

/-- How the two bytes of a wide coordinate are read. -/
inductive CoordinateRead where
  | oneWord
  | twoBytes
  deriving DecidableEq, Repr

/-- Reads the two bytes of a wide coordinate. -/
def CoordinateRead.read : CoordinateRead → Script → Except Fault (UInt16 × Script)
  | .oneWord, s => s.word
  | .twoBytes, s => s.byteByByte

/-- Reads what a variable is compared with, as the condition byte says. -/
def Comparand.read (condition : UInt8) (s : Script) : Except Fault (Comparand × Script) :=
  if condition &&& 0x80 ≠ 0 then
    match s.byte with
    | .error fault => .error fault
    | .ok (index, s) => .ok (.var index, s)
  else if condition &&& 0x40 ≠ 0 then
    match s.word with
    | .error fault => .error fault
    | .ok (value, s) => .ok (.word value, s)
  else
    match s.byte with
    | .error fault => .error fault
    | .ok (value, s) => .ok (.byte value, s)

/-- Reads a condition. -/
def Condition.read (s : Script) : Except Fault (Condition × Script) :=
  match s.byte with
  | .error fault => .error fault
  | .ok (condition, s) =>
    match s.byte with
    | .error fault => .error fault
    | .ok (var, s) =>
      match Comparand.read condition s with
      | .error fault => .error fault
      | .ok (comparand, s) =>
        match s.word with
        | .error fault => .error fault
        | .ok (target, s) => .ok (⟨.ofCode condition, var, comparand, target⟩, s)

/-- Reads a range of threads; an empty range has no action and gets action 0. -/
def ThreadRange.read (s : Script) : Except Fault (ThreadRange × Script) :=
  match s.byte with
  | .error fault => .error fault
  | .ok (first, s) =>
    match s.byte with
    | .error fault => .error fault
    | .ok (last, s) =>
      if ThreadRange.isEmpty first last then .ok (⟨first, last, 0⟩, s)
      else
        match s.byte with
        | .error fault => .error fault
        | .ok (action, s) => .ok (⟨first, last, action⟩, s)

/-- Reads an operand. -/
def OperandKind.read : (kind : OperandKind) → Script → Except Fault (kind.Value × Script)
  | .var, s => s.byte
  | .byte, s => s.byte
  | .word, s => s.word
  | .address, s => s.word
  | .condition, s => Condition.read s
  | .range, s => ThreadRange.read s

/-- Reads operands in order. -/
def Operands.read : (kinds : List OperandKind) → Script → Except Fault (Operands kinds × Script)
  | [], s => .ok ((), s)
  | kind :: kinds, s =>
    match kind.read s with
    | .error fault => .error fault
    | .ok (value, s) =>
      match Operands.read kinds s with
      | .error fault => .error fault
      | .ok (values, s) => .ok ((value, values), s)

/-- Reads a horizontal place, as the opcode says. -/
def Horizontal.read (how : CoordinateRead) (opcode : UInt8) (s : Script) : Except Fault (Horizontal × Script) :=
  if opcode &&& 0x20 = 0 ∧ opcode &&& 0x10 = 0 then
    match how.read s with
    | .error fault => .error fault
    | .ok (value, s) => .ok (.word value, s)
  else
    match s.byte with
    | .error fault => .error fault
    | .ok (b, s) =>
      if opcode &&& 0x20 = 0 then .ok (.var b, s)
      else if opcode &&& 0x10 = 0 then .ok (.byte b, s)
      else .ok (.beyond b, s)

/-- Reads a vertical place, as the opcode says. -/
def Vertical.read (how : CoordinateRead) (opcode : UInt8) (s : Script) : Except Fault (Vertical × Script) :=
  if opcode &&& 0x08 = 0 ∧ opcode &&& 0x04 = 0 then
    match how.read s with
    | .error fault => .error fault
    | .ok (value, s) => .ok (.word value, s)
  else
    match s.byte with
    | .error fault => .error fault
    | .ok (b, s) => if opcode &&& 0x08 = 0 then .ok (.var b, s) else .ok (.byte b, s)

/-- Reads a scale, as the opcode says. -/
def Zoom.read (opcode : UInt8) (s : Script) : Except Fault (Zoom × Script) :=
  if opcode &&& 0x02 = 0 then
    if opcode &&& 0x01 = 0 then .ok (.normal, s)
    else
      match s.byte with
      | .error fault => .error fault
      | .ok (index, s) => .ok (.var index, s)
  else if opcode &&& 0x01 = 0 then
    match s.byte with
    | .error fault => .error fault
    | .ok (value, s) => .ok (.byte value, s)
  else .ok (.alternate, s)

/-- What an opcode byte starts. -/
inductive Lead where
  | table (op : Opcode)
  | background
  | sprite
  deriving DecidableEq, Repr

namespace Lead

/-- The meaning of an opcode byte, if it has one. -/
def ofByte? (opcode : UInt8) : Option Lead :=
  if opcode &&& Instr.backgroundBit ≠ 0 then some .background
  else if opcode &&& Instr.spriteBit ≠ 0 then some .sprite
  else (Opcode.ofByte? opcode).map .table

/-- What the instruction is counted as. -/
def category : Lead → Category
  | .table op => op.category
  | .background | .sprite => .polygons

end Lead

namespace Instr

/-- Reads what follows the opcode byte. -/
def readAfter (how : CoordinateRead) (opcode : UInt8) : Lead → Script → Except Fault (Instr × Script)
  | .table op, s =>
    match Operands.read op.operands s with
    | .error fault => .error fault
    | .ok (operands, s) => .ok (.table op operands, s)
  | .background, s =>
    match s.byte with
    | .error fault => .error fault
    | .ok (low, s) =>
      match s.byte with
      | .error fault => .error fault
      | .ok (x, s) =>
        match s.byte with
        | .error fault => .error fault
        | .ok (y, s) => .ok (.background (Bytes.wordOf (opcode &&& 0x7F) low) x y, s)
  | .sprite, s =>
    match s.word with
    | .error fault => .error fault
    | .ok (halved, s) =>
      match Horizontal.read how opcode s with
      | .error fault => .error fault
      | .ok (x, s) =>
        match Vertical.read how opcode s with
        | .error fault => .error fault
        | .ok (y, s) =>
          match Zoom.read opcode s with
          | .error fault => .error fault
          | .ok (zoom, s) => .ok (.sprite halved x y zoom, s)

/-- Reads one instruction. -/
def read (how : CoordinateRead) (s : Script) : Except Fault (Instr × Script) :=
  match s.byte with
  | .error fault => .error fault
  | .ok (opcode, rest) =>
    match Lead.ofByte? opcode with
    | none => .error (.invalidInstruction opcode s.pc)
    | some lead => readAfter how opcode lead rest

end Instr

/-! ## Instructions as source text -/

/-- The sign of a comparison. -/
def Comparison.symbol : Comparison → List Char
  | .equal => ['=', '=']
  | .notEqual => ['!', '=']
  | .greater => ['>']
  | .greaterOrEqual => ['>', '=']
  | .less => ['<']
  | .lessOrEqual => ['<', '=']
  | .unknown code => '?' :: Text.decimal code.toNat

/-- What a variable is compared with. -/
def Comparand.render : Comparand → List Char
  | .var index => varText index
  | .byte value => byteText value
  | .word value => wordText value

/-- A condition. -/
def Condition.render (c : Condition) : List Char :=
  commaSeparated [List.intercalate [' '] [varText c.var, c.comparison.symbol, c.comparand.render],
    addressText c.target.toNat]

/-- A range of threads. -/
def ThreadRange.render (r : ThreadRange) : List Char :=
  commaSeparated [byteText r.first, byteText r.last, byteText r.action]

/-- An operand. -/
def OperandKind.render : (kind : OperandKind) → kind.Value → List Char
  | .var, (index : UInt8) => varText index
  | .byte, (value : UInt8) => byteText value
  | .word, (value : UInt16) => wordText value
  | .address, (value : UInt16) => addressText value.toNat
  | .condition, (c : Condition) => c.render
  | .range, (r : ThreadRange) => r.render

/-- The texts of operands in order. -/
def Operands.render : (kinds : List OperandKind) → Operands kinds → List (List Char)
  | [], _ => []
  | kind :: kinds, (value, values) => kind.render value :: Operands.render kinds values

/-- A horizontal place. -/
def Horizontal.render : Horizontal → List Char
  | .word value => wordText value
  | .var index => varText index
  | .byte value => byteText value
  | .beyond value => Text.decimal (value.toNat + 256)

/-- A vertical place. -/
def Vertical.render : Vertical → List Char
  | .word value => wordText value
  | .var index => varText index
  | .byte value => byteText value

/-- A scale, unless it is the normal one. -/
def Zoom.render : Zoom → List (List Char)
  | .normal => []
  | .var index => [varText index]
  | .byte value => [byteText value]
  | .alternate => [Zoom.alternateName.toList]

/-- The source text of an instruction. -/
def Instr.render : Instr → List Char
  | .table op operands => withOperands op.mnemonic (Operands.render op.operands operands)
  | .background halved x y => withOperands backgroundName [addressText (halved.toNat * 2), byteText x, byteText y]
  | .sprite halved x y zoom =>
    withOperands spriteName (addressText (halved.toNat * 2) :: x.render :: y.render :: zoom.render)

end Framescript
