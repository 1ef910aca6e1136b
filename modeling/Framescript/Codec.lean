import Framescript.Bytes

/-!
The binary codec of program and state files. Integers have a fixed width, lists and byte blocks have
an eight-byte count in front, fixed-length vectors and records are the encodings of their members in
order. A value is encoded into a sink, which keeps the bytes or only counts them. Decoding returns the
bytes it did not read.
-/
namespace Framescript

/-- Why bytes do not encode a value. -/
inductive DecodeError where
  /-- The input ended inside the value. -/
  | unexpectedEnd
  /-- Bytes remain after the value. -/
  | invalidValue
  /-- A count is larger than any container has. -/
  | lengthOverflow
  deriving DecidableEq, Repr

/-- The name of a decoding error in messages. -/
def DecodeError.name : DecodeError → String
  | .unexpectedEnd => "UnexpectedEof"
  | .invalidValue => "InvalidValue"
  | .lengthOverflow => "LengthOverflow"

/-- A destination for encoded bytes. -/
class Sink (σ : Type) where
  write : σ → Bytes → σ

/-- A sink that only measures how many bytes would be written. -/
structure SizeCounter where
  length : Nat := 0

instance : Sink SizeCounter where
  write counter bytes := { counter with length := counter.length + bytes.length }

instance : Sink Code where
  write out bytes := out ++ bytes

/-- Values with a binary encoding, which `put` writes to a sink. -/
class Codec (α : Type) where
  put : {σ : Type} → [Sink σ] → α → σ → σ
  decode : Bytes → Except DecodeError (α × Bytes)

namespace Codec

/-- The encoding of a value. -/
def encode {α : Type} [Codec α] (value : α) : Bytes :=
  (put value (#[] : Code)).toList

/-- The length of the encoding of a value, which is counted and not built. -/
def size {α : Type} [Codec α] (value : α) : Nat :=
  (put value ({} : SizeCounter)).length

/-- The first `count` bytes and the rest. -/
def split (count : Nat) (input : Bytes) : Except DecodeError (Bytes × Bytes) :=
  let front := input.take count
  if front.length = count then .ok (front, input.drop count) else .error .unexpectedEnd

/-- Decodes a value that must span all of the input. -/
def decodeAll {α : Type} [Codec α] (input : Bytes) : Except DecodeError α :=
  match decode input with
  | .error e => .error e
  | .ok (value, rest) => if rest.isEmpty then .ok value else .error .invalidValue

/-- The codec of a type whose values are numbers of a fixed width in bytes. -/
@[reducible] def fixedWidth {α : Type} (width : Nat) (toNat : α → Nat) (ofNat : Nat → α) : Codec α where
  put value out := Sink.write out (Bytes.little width (toNat value))
  decode input :=
    match split width input with
    | .error e => .error e
    | .ok (front, rest) => .ok (ofNat (Bytes.ofLittle front), rest)

instance : Codec UInt8 := fixedWidth 1 UInt8.toNat UInt8.ofNat
instance : Codec UInt16 := fixedWidth 2 UInt16.toNat UInt16.ofNat
instance : Codec UInt32 := fixedWidth 4 UInt32.toNat UInt32.ofNat
instance : Codec UInt64 := fixedWidth 8 UInt64.toNat UInt64.ofNat
instance : Codec Int8 := fixedWidth 1 (fun n => n.toUInt8.toNat) (fun n => (UInt8.ofNat n).toInt8)
instance : Codec Int16 := fixedWidth 2 (fun n => n.toUInt16.toNat) (fun n => (UInt16.ofNat n).toInt16)
instance : Codec Int32 := fixedWidth 4 (fun n => n.toUInt32.toNat) (fun n => (UInt32.ofNat n).toInt32)

/-- The largest count that decoding accepts. -/
def maxCount : Nat := 0x1000000

/-- Writes the count in front of a list or a block. -/
def putCount {σ : Type} [Sink σ] (count : Nat) (out : σ) : σ :=
  put (UInt64.ofNat count) out

/-- Reads a count and refuses one that no container has. -/
def decodeCount (input : Bytes) : Except DecodeError (Nat × Bytes) :=
  match (decode input : Except DecodeError (UInt64 × Bytes)) with
  | .error e => .error e
  | .ok (count, rest) => if maxCount < count.toNat then .error .lengthOverflow else .ok (count.toNat, rest)

/-- Decodes `count` values in order, in front of which stand those of `done` in reverse. -/
def decodeMany {α : Type} [Codec α] : Nat → List α → Bytes → Except DecodeError (List α × Bytes)
  | 0, done, input => .ok (done.reverse, input)
  | count + 1, done, input =>
    match decode input with
    | .error e => .error e
    | .ok (value, rest) => decodeMany count (value :: done) rest

/-- Writes values one after the other. -/
def putMany {α σ : Type} [Codec α] [Sink σ] (values : List α) (out : σ) : σ :=
  values.foldl (fun out value => put value out) out

instance {α : Type} [Codec α] : Codec (List α) where
  put values out := putMany values (putCount values.length out)
  decode input :=
    match decodeCount input with
    | .error e => .error e
    | .ok (count, rest) => decodeMany count [] rest

theorem length_decodeMany {α : Type} [Codec α] {count : Nat} {done values : List α} {input rest : Bytes}
    (decoded : decodeMany count done input = .ok (values, rest)) : values.length = done.length + count := by
  induction count generalizing done input with
  | zero =>
    simp only [decodeMany, Except.ok.injEq, Prod.mk.injEq] at decoded
    simp [← decoded.1]
  | succ count ih =>
    rw [decodeMany] at decoded
    split at decoded
    · contradiction
    · have := ih decoded
      simp only [List.length_cons] at this
      omega

instance {α : Type} [Codec α] {n : Nat} : Codec (Vector α n) where
  put values out := putMany values.toList out
  decode input :=
    match decoded : decodeMany n [] input with
    | .error e => .error e
    | .ok (values, rest) =>
      .ok (⟨values.toArray, by rw [List.size_toArray, length_decodeMany decoded]; simp⟩, rest)

instance : Codec Code where
  put code out := Sink.write (putCount code.size out) code.toList
  decode input :=
    match decodeCount input with
    | .error e => .error e
    | .ok (count, rest) =>
      match split count rest with
      | .error e => .error e
      | .ok (front, rest) => .ok (front.toArray, rest)

instance {α β : Type} [Codec α] [Codec β] : Codec (α × β) where
  put pair out := put pair.2 (put pair.1 out)
  decode input :=
    match decode input with
    | .error e => .error e
    | .ok (first, rest) =>
      match decode rest with
      | .error e => .error e
      | .ok (second, rest) => .ok ((first, second), rest)

/-- A record without members takes no bytes. -/
instance : Codec Unit where
  put _ out := out
  decode input := .ok ((), input)

/-- The codec of a record that has the same members as a type with a codec. -/
@[reducible] def ofMembers {σ α : Type} [Codec α] (members : σ → α) (build : α → σ) : Codec σ where
  put value out := put (members value) out
  decode input :=
    match decode input with
    | .error e => .error e
    | .ok (value, rest) => .ok (build value, rest)

end Codec

end Framescript
