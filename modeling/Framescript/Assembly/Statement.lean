import Framescript.Assembly.Literal
import Framescript.Instruction.Basic

/-!
Statements: an instruction name with its operand words, and the instruction that they denote once
the labels of their part are known.
-/
namespace Framescript.Assembly

/-- The labels of a part with their offsets, newest first. -/
abbrev Labels := List (List Char × UInt16)

/-- An instruction as it stands in the source. -/
structure Statement where
  line : Nat
  column : Nat
  name : List Char
  operands : List (List Char)
  deriving DecidableEq, Repr

/-- Reads an offset: a number if the token starts with a digit, else a label. -/
def address (labels : Labels) (token : List Char) : Except SourceFault UInt16 :=
  if (token.head?.map Char.isDigit).getD false then
    match integer token with
    | .error fault => .error fault
    | .ok n => if 0 ≤ n ∧ n ≤ 65535 then .ok (UInt16.ofNat n.toNat) else .error (.operand token .address)
  else
    match labels.lookup token with
    | some offset => .ok offset
    | none => .error (.undefinedLabel token)

/-- Reads a comparison. -/
def comparison (token : List Char) : Except SourceFault Comparison :=
  match token with
  | ['=', '='] => .ok .equal
  | ['!', '='] => .ok .notEqual
  | ['>'] => .ok .greater
  | ['>', '='] => .ok .greaterOrEqual
  | ['<'] => .ok .less
  | ['<', '='] => .ok .lessOrEqual
  | _ => .error (.operand token .comparison)

/-- Reads what a variable is compared with; a number is a byte if it fits into one. -/
def comparand (token : List Char) : Except SourceFault Comparand :=
  if token.head? = some 'v' then
    match var token with
    | .error fault => .error fault
    | .ok index => .ok (.var index)
  else
    match integer token with
    | .error fault => .error fault
    | .ok n =>
      if 0 ≤ n ∧ n ≤ 255 then .ok (.byte (UInt8.ofNat n.toNat))
      else
        match word token with
        | .error fault => .error fault
        | .ok value => .ok (.word value)

/-- Reads a condition: a variable, a comparison, what it is compared with, and the target. -/
def condition (labels : Labels) (tokens : List (List Char)) : Except SourceFault Condition :=
  match var (tokens.headD []) with
  | .error fault => .error fault
  | .ok v =>
    match comparison (tokens.getD 1 []) with
    | .error fault => .error fault
    | .ok c =>
      match comparand (tokens.getD 2 []) with
      | .error fault => .error fault
      | .ok r =>
        match address labels (tokens.getD 3 []) with
        | .error fault => .error fault
        | .ok target => .ok ⟨c, v, r, target⟩

/-- Reads a range of threads: the first, the last, and the action. -/
def threadRange (tokens : List (List Char)) : Except SourceFault ThreadRange :=
  match byte (tokens.headD []) with
  | .error fault => .error fault
  | .ok first =>
    match byte (tokens.getD 1 []) with
    | .error fault => .error fault
    | .ok last =>
      match byte (tokens.getD 2 []) with
      | .error fault => .error fault
      | .ok action => .ok ⟨first, last, action⟩

/-- The number of tokens of an operand. -/
def tokenCount : OperandKind → Nat
  | .condition => 4
  | .range => 3
  | _ => 1

/-- Reads an operand from its tokens. -/
def operand (labels : Labels) : (kind : OperandKind) → List (List Char) → Except SourceFault kind.Value
  | .var, tokens => var (tokens.headD [])
  | .byte, tokens => byte (tokens.headD [])
  | .word, tokens => word (tokens.headD [])
  | .address, tokens => address labels (tokens.headD [])
  | .condition, tokens => condition labels tokens
  | .range, tokens => threadRange tokens

/-- Reads operands in order. -/
def operands (labels : Labels) : (kinds : List OperandKind) → List (List Char) → Except SourceFault (Operands kinds)
  | [], _ => .ok ()
  | kind :: kinds, tokens =>
    match operand labels kind (tokens.take (tokenCount kind)) with
    | .error fault => .error fault
    | .ok value =>
      match operands labels kinds (tokens.drop (tokenCount kind)) with
      | .error fault => .error fault
      | .ok values => .ok (value, values)

/-- The number of tokens that an instruction takes. -/
def arity (op : Opcode) : Nat :=
  op.operands.foldr (fun kind count => tokenCount kind + count) 0

/-- Reads the horizontal place of a sprite in its shortest form. -/
def horizontal (token : List Char) : Except SourceFault Horizontal :=
  varOr token .var <|
    match integer token with
    | .error fault => .error fault
    | .ok n =>
      if 0 ≤ n ∧ n ≤ 255 then .ok (.byte (UInt8.ofNat n.toNat))
      else if 256 ≤ n ∧ n ≤ 511 then .ok (.beyond (UInt8.ofNat (n - 256).toNat))
      else
        match word token with
        | .error fault => .error fault
        | .ok value => .ok (.word value)

/-- Reads the vertical place of a sprite in its shortest form. -/
def vertical (token : List Char) : Except SourceFault Vertical :=
  varOr token .var <|
    match integer token with
    | .error fault => .error fault
    | .ok n =>
      if 0 ≤ n ∧ n ≤ 255 then .ok (.byte (UInt8.ofNat n.toNat))
      else
        match word token with
        | .error fault => .error fault
        | .ok value => .ok (.word value)

/-- Reads the scale of a sprite. -/
def zoom (token : List Char) : Except SourceFault Zoom :=
  if token = Zoom.alternateName.toList then .ok .alternate
  else
    varOr token .var <|
      match byte token with
      | .error fault => .error fault
      | .ok value => .ok (.byte value)

/-- Reads a background draw. -/
def background : List (List Char) → Except SourceFault Instr
  | [offset, x, y] =>
    match polygonOffset 0x7FFF offset with
    | .error fault => .error fault
    | .ok halved =>
      match byte x with
      | .error fault => .error fault
      | .ok x =>
        match byte y with
        | .error fault => .error fault
        | .ok y => .ok (.background halved x y)
  | tokens => .error (.arity Instr.backgroundName.toList 3 tokens.length)

/-- A sprite draw with the forms of its operands. -/
structure Sprite where
  halved : UInt16
  x : Horizontal
  y : Vertical
  zoom : Zoom
  deriving DecidableEq, Repr

/-- The instruction of a sprite draw. -/
def Sprite.instr (s : Sprite) : Instr :=
  .sprite s.halved s.x s.y s.zoom

/-- Reads a sprite draw whose scale is read already. -/
def spriteWith (offset x y : List Char) (scale : Except SourceFault Zoom) : Except SourceFault Sprite :=
  match polygonOffset 0xFFFF offset with
  | .error fault => .error fault
  | .ok halved =>
    match horizontal x with
    | .error fault => .error fault
    | .ok x =>
      match vertical y with
      | .error fault => .error fault
      | .ok y =>
        match scale with
        | .error fault => .error fault
        | .ok zoom => .ok ⟨halved, x, y, zoom⟩

/-- Reads a sprite draw. -/
def sprite : List (List Char) → Except SourceFault Sprite
  | [offset, x, y] => spriteWith offset x y (.ok .normal)
  | [offset, x, y, z] => spriteWith offset x y (zoom z)
  | tokens => .error (.arity Instr.spriteName.toList 3 tokens.length)

namespace Statement

/-- The instruction of the table with the name of a statement. -/
def opcode (s : Statement) : Except SourceFault Opcode :=
  match Opcode.ofMnemonic? s.name with
  | some op => .ok op
  | none => .error (.unknownName s.name)

/-- Refuses a wrong number of operands. -/
def checkArity (s : Statement) (op : Opcode) : Except SourceFault Unit :=
  if s.operands.length = arity op then .ok ()
  else .error (.arity op.mnemonic.toList (arity op) s.operands.length)

/-- The instruction that a statement denotes. -/
def instr (s : Statement) (labels : Labels) : Except SourceFault Instr :=
  if s.name = Instr.backgroundName.toList then background s.operands
  else if s.name = Instr.spriteName.toList then
    match sprite s.operands with
    | .error fault => .error fault
    | .ok draw => .ok draw.instr
  else
    match s.opcode with
    | .error fault => .error fault
    | .ok op =>
      match s.checkArity op with
      | .error fault => .error fault
      | .ok () =>
        match Assembly.operands labels op.operands s.operands with
        | .error fault => .error fault
        | .ok values => .ok (.table op values)

end Statement

end Framescript.Assembly
