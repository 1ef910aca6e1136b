import Framescript.Instruction.Opcode

/-!
Instructions with their operands. An instruction of the table has one value for each operand kind of
its opcode; the two polygon draws have forms of their own.
-/
namespace Framescript

/-- How a conditional jump compares. -/
inductive Comparison where
  | equal
  | notEqual
  | greater
  | greaterOrEqual
  | less
  | lessOrEqual
  /-- A code without a meaning, which never holds. -/
  | unknown (code : UInt8)
  deriving DecidableEq, Repr

namespace Comparison

/-- The code of a comparison in the condition byte. -/
def code : Comparison → UInt8
  | .equal => 0
  | .notEqual => 1
  | .greater => 2
  | .greaterOrEqual => 3
  | .less => 4
  | .lessOrEqual => 5
  | .unknown code => code

end Comparison

/-- What a variable is compared with. -/
inductive Comparand where
  | var (index : UInt8)
  | byte (value : UInt8)
  | word (value : UInt16)
  deriving DecidableEq, Repr

/-- A comparison of a variable, and where to go on if it holds. -/
structure Condition where
  comparison : Comparison
  var : UInt8
  comparand : Comparand
  target : UInt16
  deriving DecidableEq, Repr

/-- The bytes of the condition that starts with the given byte. -/
def Condition.size (condition : UInt8) : Nat :=
  if condition &&& 0x80 = 0 ∧ condition &&& 0x40 ≠ 0 then 6 else 5

/-- A range of threads and what to do to them. The action of an empty range is not kept. -/
structure ThreadRange where
  first : UInt8
  last : UInt8
  action : UInt8
  deriving DecidableEq, Repr

/-- Whether a range that ends at the lowest six bits of `last` has no thread. -/
def ThreadRange.isEmpty (first last : UInt8) : Bool :=
  last &&& 0x3F < first

/-- The bytes of a range. -/
def ThreadRange.size (first last : UInt8) : Nat :=
  if ThreadRange.isEmpty first last then 2 else 3

/-- The values of an operand kind. -/
def OperandKind.Value : OperandKind → Type
  | .var | .byte => UInt8
  | .word | .address => UInt16
  | .condition => Condition
  | .range => ThreadRange

/-- One value for each of the given kinds. -/
def Operands : List OperandKind → Type
  | [] => Unit
  | kind :: kinds => kind.Value × Operands kinds

instance : (kind : OperandKind) → DecidableEq kind.Value
  | .var | .byte => inferInstanceAs (DecidableEq UInt8)
  | .word | .address => inferInstanceAs (DecidableEq UInt16)
  | .condition => inferInstanceAs (DecidableEq Condition)
  | .range => inferInstanceAs (DecidableEq ThreadRange)

instance Operands.decidableEq : (kinds : List OperandKind) → DecidableEq (Operands kinds)
  | [] => inferInstanceAs (DecidableEq Unit)
  | kind :: kinds =>
    have := Operands.decidableEq kinds
    inferInstanceAs (DecidableEq (kind.Value × Operands kinds))

/-- The horizontal place of a sprite. -/
inductive Horizontal where
  | word (value : UInt16)
  | var (index : UInt8)
  | byte (value : UInt8)
  /-- A byte to which 256 is added. -/
  | beyond (value : UInt8)
  deriving DecidableEq, Repr

/-- The vertical place of a sprite. -/
inductive Vertical where
  | word (value : UInt16)
  | var (index : UInt8)
  | byte (value : UInt8)
  deriving DecidableEq, Repr

/-- The scale of a sprite. -/
inductive Zoom where
  | normal
  | var (index : UInt8)
  | byte (value : UInt8)
  /-- The normal scale, with polygons from the alternate segment. -/
  | alternate
  deriving DecidableEq, Repr

/-- An instruction with its operands. Polygon offsets are kept halved, as the bytecode has them. -/
inductive Instr where
  | table (op : Opcode) (operands : Operands op.operands)
  | background (halved : UInt16) (x y : UInt8)
  | sprite (halved : UInt16) (x : Horizontal) (y : Vertical) (zoom : Zoom)
  deriving DecidableEq

/-- The name of a background draw in source text. -/
def Instr.backgroundName : String := "POLY_BG"

/-- The name of a sprite draw in source text. -/
def Instr.spriteName : String := "POLY"

/-- The word for the alternate polygon segment in source text. -/
def Zoom.alternateName : String := "alt"

end Framescript
