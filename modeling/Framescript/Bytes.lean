/-!
Byte strings and the words in them. Files and saved states hold words with the least significant
byte first, bytecode holds them with the most significant byte first.
-/
namespace Framescript

/-- A byte string. -/
abbrev Bytes := List UInt8

/-- Bytecode, read at random offsets. -/
abbrev Code := Array UInt8

namespace Bytes

/-- The lowest `width` base-256 digits of `n`, least significant first. -/
def little : Nat → Nat → Bytes
  | 0, _ => []
  | width + 1, n => UInt8.ofNat n :: little width (n / 256)

/-- The number whose base-256 digits are given, least significant first. -/
def ofLittle : Bytes → Nat
  | [] => 0
  | b :: bs => b.toNat + 256 * ofLittle bs

/-- A word as two bytes, most significant first. -/
def bigWord (w : UInt16) : Bytes :=
  [(w >>> 8).toUInt8, w.toUInt8]

/-- The word with the given high and low byte. -/
def wordOf (high low : UInt8) : UInt16 :=
  high.toUInt16 <<< 8 ||| low.toUInt16

/-- The byte string with `image` written over it from `start` on. -/
def overlay (start : Nat) (image bytes : Bytes) : Bytes :=
  bytes.take start ++ image ++ bytes.drop (start + image.length)

theorem length_little (width n : Nat) : (little width n).length = width := by
  induction width generalizing n with
  | zero => rfl
  | succ width ih => simp [little, ih]

theorem little_ofLittle (bytes : Bytes) : little bytes.length (ofLittle bytes) = bytes := by
  induction bytes with
  | nil => rfl
  | cons b bs ih =>
    have low : UInt8.ofNat (b.toNat + 256 * ofLittle bs) = b := by
      apply UInt8.toNat_inj.mp
      rw [UInt8.toNat_ofNat']
      have := b.toNat_lt
      omega
    have high : (b.toNat + 256 * ofLittle bs) / 256 = ofLittle bs := by
      have := b.toNat_lt
      omega
    rw [List.length_cons, ofLittle, little, low, high, ih]

end Bytes

end Framescript
