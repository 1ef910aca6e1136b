import Framescript.Codec
import Framescript.Digest.Keccak
import Framescript.Text.Digits

/-!
SHA3-256 digests. The message, followed by the padding, is absorbed in blocks of 136 bytes into a
Keccak state whose first four lanes are then the digest.
-/
namespace Framescript

/-- A 32-byte digest. -/
structure Digest where
  bytes : Vector UInt8 32
  deriving DecidableEq

namespace Digest

/-- Bytes absorbed between two permutations. -/
def rate : Nat := 136

/-- The digest of zero bytes. -/
def zero : Digest := ⟨.replicate 32 0⟩

/-- Lower case hexadecimal of all bytes. -/
def hex (d : Digest) : String :=
  Text.hexBytes d.bytes.toList

/-- Lower case hexadecimal of the first eight bytes. -/
def short (d : Digest) : String :=
  Text.hexBytes (d.bytes.toList.take 8)

instance : Codec Digest := Codec.ofMembers Digest.bytes Digest.mk

/-- The lane at the front of a byte string; missing bytes count as zero. -/
def lane : Bytes → UInt64
  | b0 :: b1 :: b2 :: b3 :: b4 :: b5 :: b6 :: b7 :: _ =>
    b0.toUInt64 ||| b1.toUInt64 <<< 8 ||| b2.toUInt64 <<< 16 ||| b3.toUInt64 <<< 24 ||| b4.toUInt64 <<< 32 |||
      b5.toUInt64 <<< 40 ||| b6.toUInt64 <<< 48 ||| b7.toUInt64 <<< 56
  | bytes => UInt64.ofNat (Bytes.ofLittle bytes)

/-- The plane at the front of a byte string. -/
def plane (bytes : Bytes) : Keccak.Plane :=
  let b1 := bytes.drop 8
  let b2 := b1.drop 8
  let b3 := b2.drop 8
  ⟨lane bytes, lane b1, lane b2, lane b3, lane (b3.drop 8)⟩

/-- The state with the block at the front of a byte string added and permuted. -/
def absorbBlock (s : Keccak.State) (block : Bytes) : Keccak.State :=
  let b1 := block.drop 40
  let b2 := b1.drop 40
  let b3 := b2.drop 40
  Keccak.State.permute
    { s with p0 := s.p0.xor (plane block), p1 := s.p1.xor (plane b1), p2 := s.p2.xor (plane b2)
             p3 := s.p3.xor ⟨lane b3, lane (b3.drop 8), 0, 0, 0⟩ }

/-- What follows the last whole block of a message: its remaining bytes, a six, zeros, and the top bit
of the last byte. -/
def lastBlock (rest : Bytes) : Bytes :=
  if rest.length + 1 = rate then rest ++ [0x86]
  else rest ++ 0x06 :: List.replicate (rate - 2 - rest.length) 0 ++ [0x80]

/-- Absorbs all blocks of a message with its padding. -/
def absorb (s : Keccak.State) (message : Bytes) : Keccak.State :=
  if _ : (message.take rate).length = rate then absorb (absorbBlock s message) (message.drop rate)
  else absorbBlock s (lastBlock message)
termination_by message.length
decreasing_by
  have full := ‹(message.take rate).length = rate›
  rw [List.length_take] at full
  rw [List.length_drop]
  have : rate = 136 := rfl
  omega

/-- The SHA3-256 digest of a message. -/
def sha3 (message : Bytes) : Digest :=
  let s := absorb .zero message
  let lanes : Vector UInt64 4 := #v[s.p0.l0, s.p0.l1, s.p0.l2, s.p0.l3]
  ⟨Vector.ofFn fun i => (lanes[i.val / 8] >>> (8 * UInt64.ofNat (i.val % 8))).toUInt8⟩

end Digest

end Framescript
