import Framescript.Text.Digits

/-!
Shares in percent, with one decimal. The share is computed in binary floating point with 53 bits; the
decimal is that of the exact value of the result, and a half goes to the even neighbour.
-/
namespace Framescript.Percent

/-- The whole number nearest to a fraction; of two, the even one. -/
def roundEven (numerator denominator : Nat) : Nat :=
  let quotient := numerator / denominator
  let rest := 2 * (numerator % denominator)
  if rest > denominator ∨ (rest = denominator ∧ quotient % 2 = 1) then quotient + 1 else quotient

/-- The tenths nearest to a number that is not negative, is given by its bits, and is at least the
least normal number or zero. -/
def tenths (bits : UInt64) : Nat :=
  let exponent := (bits >>> 52).toNat
  let mantissa := 0x10000000000000 + (bits &&& 0xFFFFFFFFFFFFF).toNat
  if exponent = 0 then 0
  else roundEven ((10 * mantissa) <<< (exponent - 1075)) (1 <<< (1075 - exponent))

/-- A number of tenths with a point before its last digit. -/
def point (tenths : Nat) : String :=
  s!"{tenths / 10}.{tenths % 10}"

/-- A share of a total in percent. -/
def share (amount total : UInt64) : String :=
  let percent : Float := if total = 0 then 0 else amount.toFloat / total.toFloat * 100
  point (tenths percent.toBits)

end Framescript.Percent
