import Framescript.Instruction.Encode
import Framescript.Instruction.Render
import Framescript.Script

/-!
Listings: bytecode taken apart from its start to its end, one instruction a line. The operands of an
instruction are decoded as the instruction table has them.
-/
namespace Framescript

/-- An instruction of a listing. -/
structure ListingLine where
  offset : Nat
  bytes : Bytes
  text : List Char
  deriving DecidableEq, Repr

namespace ListingLine

/-- The offset, the bytes and the text of an instruction, in columns. -/
def render (line : ListingLine) : String :=
  let bytes := List.intercalate [' '] (line.bytes.map fun b => Text.hex 2 b.toNat)
  String.ofList (Text.hex 4 line.offset ++ [' ', ' '] ++ Text.padEnd 21 ' ' bytes ++ ' ' :: line.text)

end ListingLine

namespace Listing

/-- The decoding of a piece of a script, which then stands behind that piece. -/
abbrev Decoder := StateT Script (Except Fault)

namespace Decoder

/-- The next byte. -/
def byte : Decoder UInt8 :=
  Script.byte

/-- The next word. -/
def word : Decoder UInt16 :=
  Script.word

/-- The signs of the comparisons, by their codes. -/
def comparisons : List (List Char) :=
  [['=', '='], ['!', '='], ['>'], ['>', '='], ['<'], ['<', '=']]

/-- The sign of the comparison with the given code, if it has one. -/
def comparison (code : UInt8) : List Char :=
  comparisons[code.toNat]?.getD ('?' :: Text.decimal code.toNat)

/-- What a variable is compared with. -/
def comparand (condition : UInt8) : Decoder (List Char) := do
  if condition &&& 0x80 ≠ 0 then return varText (← byte)
  else if condition &&& 0x40 ≠ 0 then return wordText (← word)
  else return byteText (← byte)

/-- A condition. -/
def condition : Decoder (List Char) := do
  let condition ← byte
  let var ← byte
  let right ← comparand condition
  let target ← word
  return commaSeparated [List.intercalate [' '] [varText var, comparison (condition &&& 7), right],
    addressText target.toNat]

/-- A range of threads. An empty range has no action and is listed with action 0. -/
def range : Decoder (List Char) := do
  let first ← byte
  let last ← byte
  let action ← if ThreadRange.size first last = 3 then byte else pure 0
  return commaSeparated [byteText first, byteText last, byteText action]

/-- An operand. -/
def operand : OperandKind → Decoder (List Char)
  | .var => return varText (← byte)
  | .byte => return byteText (← byte)
  | .word => return wordText (← word)
  | .address => return addressText (← word).toNat
  | .condition => condition
  | .range => range

/-- The horizontal place of a sprite. -/
def horizontal (opcode : UInt8) : Decoder (List Char) :=
  match decide (opcode &&& 0x20 ≠ 0), decide (opcode &&& 0x10 ≠ 0) with
  | false, false => return wordText (← word)
  | false, true => return varText (← byte)
  | true, false => return byteText (← byte)
  | true, true => return Text.decimal ((← byte).toNat + 0x100)

/-- The vertical place of a sprite. -/
def vertical (opcode : UInt8) : Decoder (List Char) :=
  match decide (opcode &&& 0x08 ≠ 0), decide (opcode &&& 0x04 ≠ 0) with
  | false, false => return wordText (← word)
  | false, true => return varText (← byte)
  | true, _ => return byteText (← byte)

/-- The scale of a sprite, unless it is the normal one. -/
def zoom (opcode : UInt8) : Decoder (List (List Char)) :=
  match (opcode &&& 0x03).toNat with
  | 0 => return []
  | 1 => return [varText (← byte)]
  | 2 => return [byteText (← byte)]
  | _ => return [Zoom.alternateName.toList]

/-- What follows the opcode of a sprite draw. -/
def sprite (opcode : UInt8) : Decoder (List Char) := do
  let halved ← word
  let x ← horizontal opcode
  let y ← vertical opcode
  let zoom ← zoom opcode
  return Instr.withOperands Instr.spriteName (addressText (halved.toNat * 2) :: x :: y :: zoom)

/-- What follows the opcode of a background draw. -/
def background (opcode : UInt8) : Decoder (List Char) := do
  let low ← byte
  let x ← byte
  let y ← byte
  let halved := Bytes.wordOf (opcode &&& ~~~Instr.backgroundBit) low
  return Instr.withOperands Instr.backgroundName [addressText (halved.toNat * 2), byteText x, byteText y]

/-- The text of the next instruction. -/
def instruction : Decoder (List Char) := do
  let offset := (← get).pc
  let opcode ← byte
  if opcode &&& Instr.backgroundBit ≠ 0 then background opcode
  else if opcode &&& Instr.spriteBit ≠ 0 then sprite opcode
  else
    match Opcode.ofByte? opcode with
    | none => throw (.invalidInstruction opcode offset)
    | some op => return Instr.withOperands op.mnemonic (← op.operands.mapM operand)

end Decoder

/-- The instruction at the position of a script, and the script after it. -/
def lineAt (s : Script) : Except Fault (ListingLine × Script) :=
  match Decoder.instruction s with
  | .error fault => .error fault
  | .ok (text, rest) => .ok (⟨s.pc, (s.code.extract s.pc rest.pc).toList, text⟩, rest)

/-- The instructions from the position of a script on, behind those of `done` in reverse. Each takes
at least a byte, so that as many steps as there are bytes are enough. -/
def linesFrom : Nat → List ListingLine → Script → Except Fault (List ListingLine)
  | 0, done, _ => .ok done.reverse
  | fuel + 1, done, s =>
    if s.pc < s.code.size then
      match lineAt s with
      | .error fault => .error fault
      | .ok (line, rest) => linesFrom fuel (line :: done) rest
    else .ok done.reverse

/-- All instructions of the code. -/
def ofCode (code : Code) : Except Fault (List ListingLine) :=
  linesFrom code.size [] { code }

/-- The text of a listing, each line ended. -/
def render (lines : List ListingLine) : String :=
  lines.foldl (fun text line => text ++ line.render ++ "\n") ""

end Listing

end Framescript
