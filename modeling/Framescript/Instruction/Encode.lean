import Framescript.Bytes
import Framescript.Instruction.Basic

/-!
Instructions as bytecode.
-/
namespace Framescript

/-- The bits of the condition byte that say what follows the variable. -/
def Comparand.flags : Comparand → UInt8
  | .var _ => 0x80
  | .byte _ => 0x00
  | .word _ => 0x40

/-- The bytes of what a variable is compared with. -/
def Comparand.encode : Comparand → Bytes
  | .var index => [index]
  | .byte value => [value]
  | .word value => Bytes.bigWord value

/-- The bytes of a condition. -/
def Condition.encode (c : Condition) : Bytes :=
  (c.comparand.flags ||| c.comparison.code) :: c.var :: c.comparand.encode ++ Bytes.bigWord c.target

/-- The bytes of a range of threads; an empty range has no action. -/
def ThreadRange.encode (r : ThreadRange) : Bytes :=
  if ThreadRange.isEmpty r.first r.last then [r.first, r.last] else [r.first, r.last, r.action]

/-- The bytes of an operand. -/
def OperandKind.encode : (kind : OperandKind) → kind.Value → Bytes
  | .var, (index : UInt8) => [index]
  | .byte, (value : UInt8) => [value]
  | .word, (value : UInt16) => Bytes.bigWord value
  | .address, (value : UInt16) => Bytes.bigWord value
  | .condition, (c : Condition) => c.encode
  | .range, (r : ThreadRange) => r.encode

/-- The bytes of operands in order. -/
def Operands.encode : (kinds : List OperandKind) → Operands kinds → Bytes
  | [], _ => []
  | kind :: kinds, (value, values) => kind.encode value ++ Operands.encode kinds values

/-- The opcode bits for a horizontal place. -/
def Horizontal.flags : Horizontal → UInt8
  | .word _ => 0x00
  | .var _ => 0x10
  | .byte _ => 0x20
  | .beyond _ => 0x30

/-- The bytes of a horizontal place. -/
def Horizontal.encode : Horizontal → Bytes
  | .word value => Bytes.bigWord value
  | .var index => [index]
  | .byte value => [value]
  | .beyond value => [value]

/-- The opcode bits for a vertical place. -/
def Vertical.flags : Vertical → UInt8
  | .word _ => 0x00
  | .var _ => 0x04
  | .byte _ => 0x08

/-- The bytes of a vertical place. -/
def Vertical.encode : Vertical → Bytes
  | .word value => Bytes.bigWord value
  | .var index => [index]
  | .byte value => [value]

/-- The opcode bits for a scale. -/
def Zoom.flags : Zoom → UInt8
  | .normal => 0x00
  | .var _ => 0x01
  | .byte _ => 0x02
  | .alternate => 0x03

/-- The bytes of a scale. -/
def Zoom.encode : Zoom → Bytes
  | .normal => []
  | .var index => [index]
  | .byte value => [value]
  | .alternate => []

namespace Instr

/-- The opcode bit of a background draw. -/
def backgroundBit : UInt8 := 0x80

/-- The opcode bit of a sprite draw. -/
def spriteBit : UInt8 := 0x40

/-- The bytes of an instruction. -/
def encode : Instr → Bytes
  | .table op operands => op.toByte :: Operands.encode op.operands operands
  | .background halved x y => [backgroundBit ||| (halved >>> 8).toUInt8, halved.toUInt8, x, y]
  | .sprite halved x y zoom =>
    (spriteBit ||| x.flags ||| y.flags ||| zoom.flags) :: Bytes.bigWord halved ++ x.encode ++ y.encode ++ zoom.encode

end Instr

end Framescript
