import Framescript.Bytes
import Framescript.Fault

/-!
Bytecode with a read position. Every read is checked against the end of the code.
-/
namespace Framescript

/-- Bytecode and the offset of the next byte to read. -/
structure Script where
  code : Code := #[]
  pc : Nat := 0
  deriving DecidableEq, Repr

namespace Script

/-- The number of offsets; positions in a script stay below it. -/
def offsetLimit : Nat := 0x10000000000000000

/-- The script at another offset. -/
def jump (s : Script) (offset : UInt16) : Script :=
  { s with pc := offset.toNat }

/-- The offset in the sixteen bits that threads and calls keep. -/
def offset16 (s : Script) : Except Fault UInt16 :=
  if s.pc < 0x10000 then .ok (UInt16.ofNat s.pc) else .error (.invalidOffset s.pc)

/-- The failure to read `count` bytes at the current offset. -/
def endOfCode (s : Script) (count : Nat) : Fault :=
  .endOfCode s.pc count (s.code.size - s.pc)

/-- The next `count` bytes. -/
def take (s : Script) (count : Nat) : Except Fault (Bytes × Script) :=
  if offsetLimit ≤ s.pc + count then .error (.invalidOffset s.pc)
  else if s.pc + count ≤ s.code.size then
    .ok ((s.code.extract s.pc (s.pc + count)).toList, { s with pc := s.pc + count })
  else .error (s.endOfCode count)

/-- The next byte. -/
def byte (s : Script) : Except Fault (UInt8 × Script) :=
  if inside : s.pc < s.code.size then .ok (s.code[s.pc], { s with pc := s.pc + 1 })
  else .error (s.endOfCode 1)

/-- The next word, both bytes at once. -/
def word (s : Script) : Except Fault (UInt16 × Script) :=
  if inside : s.pc + 1 < s.code.size then
    .ok (Bytes.wordOf s.code[s.pc] s.code[s.pc + 1], { s with pc := s.pc + 2 })
  else .error (s.endOfCode 2)

/-- The next word, one byte after the other. -/
def byteByByte (s : Script) : Except Fault (UInt16 × Script) :=
  match s.byte with
  | .error fault => .error fault
  | .ok (high, s) =>
    match s.byte with
    | .error fault => .error fault
    | .ok (low, s) => .ok (Bytes.wordOf high low, s)

end Script

end Framescript
