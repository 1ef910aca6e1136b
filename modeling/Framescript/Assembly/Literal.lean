import Framescript.Assembly.Error
import Framescript.Text.Numeral

/-!
Numbers and variables in source text. A number is decimal, or hexadecimal behind `0x`, and may be
negative. Numbers are kept in 64 bits with sign, where the least one has no negative.
-/
namespace Framescript.Assembly

/-- A number that fits in 64 bits with sign. -/
def fits64 (n : Int) : Bool :=
  -0x8000000000000000 ≤ n && n < 0x8000000000000000

/-- The number after the minus sign, if any. -/
def magnitude? : List Char → Option Int
  | '0' :: 'x' :: digits => (Text.signed? 16 digits).filter fits64
  | '0' :: 'X' :: digits => (Text.signed? 16 digits).filter fits64
  | digits => (Text.signed? 10 digits).filter fits64

/-- The number that a token denotes. -/
def integer? : List Char → Option Int
  | '-' :: token => ((magnitude? token).map (-·)).filter fits64
  | token => magnitude? token

/-- Whether a token asks for a negative that leaves 64 bits. -/
def overflows : List Char → Bool
  | '-' :: token => (magnitude? token).any fun n => !fits64 (-n)
  | _ => false

/-- The variable that a token denotes. -/
def var? : List Char → Option UInt8
  | 'v' :: index => (integer? index).bind fun n => if 0 ≤ n ∧ n ≤ 255 then some (UInt8.ofNat n.toNat) else none
  | _ => none

/-- Reads a number. -/
def integer (token : List Char) : Except SourceFault Int :=
  match integer? token with
  | some n => .ok n
  | none => .error (if overflows token then .overflow else .operand token .integer)

/-- Whether the index of a variable overflows. -/
def indexOverflows : List Char → Bool
  | 'v' :: index => overflows index
  | _ => false

/-- Reads a variable. -/
def var (token : List Char) : Except SourceFault UInt8 :=
  match var? token with
  | some index => .ok index
  | none => .error (if indexOverflows token then .overflow else .operand token .variable)

/-- Reads a variable, or else something that is none. -/
def varOr {α : Type} (token : List Char) (ofVar : UInt8 → α) (other : Except SourceFault α) : Except SourceFault α :=
  match var token with
  | .ok index => .ok (ofVar index)
  | .error .overflow => .error .overflow
  | .error _ => other

/-- Reads a byte. -/
def byte (token : List Char) : Except SourceFault UInt8 :=
  match integer token with
  | .error fault => .error fault
  | .ok n => if 0 ≤ n ∧ n ≤ 255 then .ok (UInt8.ofNat n.toNat) else .error (.operand token .byte)

/-- Reads a word; a negative number stands for its two's complement. -/
def word (token : List Char) : Except SourceFault UInt16 :=
  match integer token with
  | .error fault => .error fault
  | .ok n =>
    if -32768 ≤ n ∧ n ≤ 65535 then .ok (UInt16.ofNat (n % 65536).toNat) else .error (.operand token .word)

/-- Reads an even offset of polygon data and halves it; `most` bounds the half. -/
def polygonOffset (most : Nat) (token : List Char) : Except SourceFault UInt16 :=
  match integer token with
  | .error fault => .error fault
  | .ok n =>
    if 0 ≤ n ∧ n % 2 = 0 ∧ n / 2 ≤ most then .ok (UInt16.ofNat (n / 2).toNat)
    else .error (.operand token .polygonOffset)

end Framescript.Assembly
