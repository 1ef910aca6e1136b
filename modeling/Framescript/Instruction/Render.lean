import Framescript.Text.Digits

/-!
The pieces of instructions in source text.
-/
namespace Framescript

/-- A variable. -/
def varText (index : UInt8) : List Char :=
  'v' :: Text.decimal index.toNat

/-- A byte as a plain number. -/
def byteText (value : UInt8) : List Char :=
  Text.decimal value.toNat

/-- A word as a signed number. -/
def wordText (value : UInt16) : List Char :=
  Text.signedDecimal value.toInt16.toInt

/-- An offset in hexadecimal. -/
def addressText (offset : Nat) : List Char :=
  '0' :: 'x' :: Text.hex 4 offset

/-- Texts with a comma and a space between them. -/
def commaSeparated (texts : List (List Char)) : List Char :=
  List.intercalate [',', ' '] texts

/-- A name with its operands. -/
def Instr.withOperands (name : String) : List (List Char) → List Char
  | [] => name.toList
  | texts => name.toList ++ ' ' :: commaSeparated texts

end Framescript
