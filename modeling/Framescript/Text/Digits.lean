/-!
Numbers as text: decimal, hexadecimal of a least width, groups of three, and padding to a column.
-/
namespace Framescript.Text

/-- The digits of `n` in base `base`, with `A` to `F` above nine. -/
def upperDigits (base n : Nat) : List Char :=
  (Nat.toDigits base n).map Char.toUpper

/-- The text with copies of `fill` in front up to the given length. -/
def padStart (width : Nat) (fill : Char) (cs : List Char) : List Char :=
  List.replicate (width - cs.length) fill ++ cs

/-- The text with copies of `fill` behind up to the given length. -/
def padEnd (width : Nat) (fill : Char) (cs : List Char) : List Char :=
  cs ++ List.replicate (width - cs.length) fill

/-- Decimal digits of `n`. -/
def decimal (n : Nat) : List Char :=
  Nat.toDigits 10 n

/-- Decimal digits of `n` behind a minus sign when it is negative. -/
def signedDecimal (n : Int) : List Char :=
  if n < 0 then '-' :: decimal n.natAbs else decimal n.natAbs

/-- Upper case hexadecimal with leading zeros up to the given width. -/
def hex (width n : Nat) : List Char :=
  padStart width '0' (upperDigits 16 n)

/-- Upper case hexadecimal of a least width, as a string. -/
def hexText (width n : Nat) : String :=
  String.ofList (hex width n)

/-- The two lower case hexadecimal digits of a byte. -/
def byteDigits (b : UInt8) : List Char :=
  padStart 2 '0' (Nat.toDigits 16 b.toNat)

/-- Bytes as lower case hexadecimal, two digits each. -/
def hexBytes (bytes : List UInt8) : String :=
  String.ofList (bytes.flatMap byteDigits)

/-- A comma after every third place from the right, as long as digits follow on its left. -/
def groupThousands : List Char → List Char
  | [] => []
  | c :: cs => if cs.length % 3 = 0 ∧ cs ≠ [] then c :: ',' :: groupThousands cs else c :: groupThousands cs

/-- A string padded in front with spaces. -/
def alignRight (width : Nat) (s : String) : String :=
  String.ofList (padStart width ' ' s.toList)

/-- A string padded behind with spaces. -/
def alignLeft (width : Nat) (s : String) : String :=
  String.ofList (padEnd width ' ' s.toList)

end Framescript.Text
