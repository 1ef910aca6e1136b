import Framescript.Codec
import Framescript.Proofs.StoredCells

/-!
Codecs that decode exactly what they encode. All that such a codec does to a sink is to write the encoding of the value, so
that the sink that counts bytes counts those of the encoding (`size_eq_length`). The law of decoding is one equivalence
with any bytes behind the value, so that nothing but the encoding of a value is read as that value, and no encoding goes on
where another one ends (`encode_append_inj`). Integers obey these laws (`LawfulCodec`), and each way of building a codec
from others passes them on, with a limit on the counts that stand in front of lists and blocks.
-/
namespace Framescript

open Codec (put encode decode split putCount putMany decodeCount decodeMany maxCount)

/-! ### Sinks -/

/-- A sink to which it makes no difference in how many pieces bytes are written. -/
class LawfulSink (σ : Type) [Sink σ] : Prop where
  write_nil (out : σ) : Sink.write out [] = out
  write_write (out : σ) (front back : Bytes) : Sink.write (Sink.write out front) back = Sink.write out (front ++ back)

open LawfulSink (write_nil write_write)

instance : LawfulSink SizeCounter where
  write_nil _ := rfl
  write_write out front back := by
    simp only [Sink.write, List.length_append, Nat.add_assoc]

instance : LawfulSink Code where
  write_nil _ := rfl
  write_write out front back := by
    rw [← Array.toList_inj]
    simp [Sink.write]

/-- A codec that writes the encoding of a value to every sink, and by which a value is decoded, with some bytes left, from
    nothing but its encoding in front of these bytes. Values that do not fit are encoded but never decoded. -/
class LawfulCodec (α : Type) [Codec α] where
  Fits : α → Prop
  put_eq {σ : Type} [Sink σ] [LawfulSink σ] (value : α) (out : σ) : put value out = Sink.write out (encode value)
  decode_eq_ok_iff {input rest : Bytes} {value : α} :
    decode input = .ok (value, rest) ↔ input = encode value ++ rest ∧ Fits value

namespace LawfulCodec

variable {α β : Type} [Codec α] [Codec β]

theorem toList_write (out : Code) (bytes : Bytes) : (Sink.write out bytes).toList = out.toList ++ bytes := by
  simp [Sink.write]

/-- The same bytes, written to every sink, are the encoding. -/
theorem encode_eq {value : α} {bytes : Bytes}
    (writes : ∀ {σ : Type} [Sink σ] [LawfulSink σ] (out : σ), put value out = Sink.write out bytes) :
    encode value = bytes := by
  rw [encode, writes, toList_write, List.nil_append]

theorem toList_put [LawfulCodec α] (value : α) (out : Code) : (put value out).toList = out.toList ++ encode value := by
  rw [put_eq, toList_write]

/-- What is counted is the length of the encoding. -/
theorem size_eq_length [LawfulCodec α] (value : α) : Codec.size value = (encode value).length := by
  rw [Codec.size, put_eq]
  exact Nat.zero_add _

theorem decode_encode [LawfulCodec α] {value : α} (fits : Fits value) (rest : Bytes) :
    decode (encode value ++ rest) = .ok (value, rest) :=
  decode_eq_ok_iff.mpr ⟨rfl, fits⟩

theorem decode_encode_last [LawfulCodec α] {value : α} (fits : Fits value) :
    decode (encode value) = .ok (value, []) :=
  decode_eq_ok_iff.mpr ⟨(List.append_nil _).symm, fits⟩

/-- Of what is encoded in front of other bytes, both can be told. -/
theorem encode_append_inj [LawfulCodec α] {value other : α} {rest rest' : Bytes} (fits : Fits value)
    (fits' : Fits other) (same : encode value ++ rest = encode other ++ rest') : value = other ∧ rest = rest' := by
  have decoded := decode_encode fits rest
  rw [same, decode_encode fits' rest'] at decoded
  cases decoded
  exact ⟨rfl, rfl⟩

/-! ### Integers -/

theorem split_eq_ok_iff {count : Nat} {input front rest : Bytes} :
    split count input = .ok (front, rest) ↔ input = front ++ rest ∧ front.length = count := by
  constructor
  · intro cut
    simp only [split] at cut
    split at cut
    · rename_i full
      cases cut
      exact ⟨(List.take_append_drop count input).symm, full⟩
    · cases cut
  · rintro ⟨rfl, rfl⟩
    simp [split]

theorem encode_fixedWidth {α : Type} (width : Nat) (toNat : α → Nat) (ofNat : Nat → α) (value : α) :
    @encode α (Codec.fixedWidth width toNat ofNat) value = Bytes.little width (toNat value) :=
  letI := Codec.fixedWidth width toNat ofNat
  encode_eq fun _ => rfl

/-- A type with as many values as there are byte strings of its width is decoded from all of them. -/
@[reducible] def fixedWidth {width : Nat} {toNat : α → Nat} {ofNat : Nat → α}
    (below : ∀ value, toNat value < Bytes.capacity width) (ofNat_toNat : ∀ value, ofNat (toNat value) = value)
    (toNat_ofNat : ∀ n < Bytes.capacity width, toNat (ofNat n) = n) :
    @LawfulCodec α (Codec.fixedWidth width toNat ofNat) :=
  letI := Codec.fixedWidth width toNat ofNat
  { Fits := fun _ => True
    put_eq := fun value out => by rw [encode_fixedWidth]; rfl
    decode_eq_ok_iff := by
      intro input rest value
      rw [encode_fixedWidth]
      constructor
      · intro decoded
        simp only [decode] at decoded
        rcases cut : split width input with e | ⟨front, behind⟩
        · rw [cut] at decoded
          cases decoded
        · rw [cut] at decoded
          cases decoded
          obtain ⟨rfl, rfl⟩ := split_eq_ok_iff.mp cut
          have kept : Bytes.little front.length (toNat (ofNat (Bytes.ofLittle front))) = front := by
            rw [toNat_ofNat _ (Bytes.ofLittle_lt front), Bytes.little_ofLittle]
          exact ⟨by rw [kept], trivial⟩
      · rintro ⟨rfl, -⟩
        have cut : split width (Bytes.little width (toNat value) ++ rest) =
            .ok (Bytes.little width (toNat value), rest) :=
          split_eq_ok_iff.mpr ⟨rfl, Bytes.length_little width _⟩
        have back : Bytes.ofLittle (Bytes.little width (toNat value)) = toNat value := by
          rw [Bytes.ofLittle_little, Nat.mod_eq_of_lt (below value)]
        simp only [decode, cut, back, ofNat_toNat] }

instance : LawfulCodec UInt8 :=
  fixedWidth UInt8.toNat_lt (fun _ => UInt8.ofNat_toNat) fun _ small => UInt8.toNat_ofNat_of_lt' small

instance : LawfulCodec UInt16 :=
  fixedWidth UInt16.toNat_lt (fun _ => UInt16.ofNat_toNat) fun _ small => UInt16.toNat_ofNat_of_lt' small

instance : LawfulCodec UInt32 :=
  fixedWidth UInt32.toNat_lt (fun _ => UInt32.ofNat_toNat) fun _ small => UInt32.toNat_ofNat_of_lt' small

instance : LawfulCodec UInt64 :=
  fixedWidth UInt64.toNat_lt (fun _ => UInt64.ofNat_toNat) fun _ small => UInt64.toNat_ofNat_of_lt' small

/-- A signed integer is encoded as the bits that it is stored with. -/
@[reducible] def signed (kind : ScalarKind) :
    @LawfulCodec kind.Value (Codec.fixedWidth kind.bytes kind.bits kind.ofBits) :=
  letI := Codec.fixedWidth kind.bytes kind.bits kind.ofBits
  fixedWidth kind.bits_lt kind.ofBits_bits fun n small => (kind.bits_ofBits n).trans (Nat.mod_eq_of_lt small)

instance : LawfulCodec Int8 := signed .i8

instance : LawfulCodec Int16 := signed .i16

instance : LawfulCodec Int32 := signed .i32

/-! ### Lists and blocks -/

/-- The count in front of a list or a block. -/
def encodeCount (count : Nat) : Bytes :=
  encode (UInt64.ofNat count)

section
variable {σ : Type} [Sink σ] [LawfulSink σ]

theorem putCount_eq (count : Nat) (out : σ) : putCount count out = Sink.write out (encodeCount count) :=
  put_eq (UInt64.ofNat count) out

theorem putMany_eq [LawfulCodec α] (values : List α) (out : σ) :
    putMany values out = Sink.write out (values.flatMap encode) := by
  induction values generalizing out with
  | nil => exact (write_nil out).symm
  | cons value values ih =>
    show putMany values (put value out) = _
    rw [ih, put_eq, write_write, List.flatMap_cons]

theorem put_list [LawfulCodec α] (values : List α) (out : σ) :
    put values out = Sink.write out (encodeCount values.length ++ values.flatMap encode) := by
  rw [← write_write, ← putCount_eq, ← putMany_eq]
  rfl

theorem put_code (code : Code) (out : σ) : put code out = Sink.write out (encodeCount code.size ++ code.toList) := by
  rw [← write_write, ← putCount_eq]
  rfl

end

theorem encode_list [LawfulCodec α] (values : List α) :
    encode values = encodeCount values.length ++ values.flatMap encode :=
  encode_eq (put_list values)

theorem encode_vector [LawfulCodec α] {n : Nat} (values : Vector α n) : encode values = values.toList.flatMap encode :=
  encode_eq (putMany_eq values.toList)

theorem encode_code (code : Code) : encode code = encodeCount code.size ++ code.toList :=
  encode_eq (put_code code)

theorem decodeCount_eq_ok_iff {input rest : Bytes} {count : Nat} :
    decodeCount input = .ok (count, rest) ↔ input = encodeCount count ++ rest ∧ count ≤ maxCount := by
  constructor
  · intro decoded
    simp only [decodeCount] at decoded
    rcases read : (decode input : Except DecodeError (UInt64 × Bytes)) with e | ⟨word, behind⟩
    · rw [read] at decoded
      cases decoded
    · simp only [read] at decoded
      split at decoded
      · cases decoded
      · rename_i small
        cases decoded
        obtain ⟨rfl, -⟩ := decode_eq_ok_iff.mp read
        exact ⟨by rw [encodeCount, UInt64.ofNat_toNat], Nat.not_lt.mp small⟩
  · rintro ⟨rfl, small⟩
    have word : (UInt64.ofNat count).toNat = count :=
      UInt64.toNat_ofNat_of_lt' (Nat.lt_of_le_of_lt small (by decide))
    have read : decode (encodeCount count ++ rest) = .ok (UInt64.ofNat count, rest) := decode_encode trivial rest
    simp only [decodeCount, read, word, if_neg (Nat.not_lt.mpr small)]

theorem decodeMany_eq_ok_iff [LawfulCodec α] {count : Nat} {done values : List α} {input rest : Bytes} :
    decodeMany count done input = .ok (values, rest) ↔
      ∃ more, values = done.reverse ++ more ∧ more.length = count ∧ input = more.flatMap encode ++ rest ∧
        ∀ value ∈ more, Fits value := by
  induction count generalizing done input with
  | zero =>
    constructor
    · intro decoded
      simp only [decodeMany, Except.ok.injEq, Prod.mk.injEq] at decoded
      exact ⟨[], by simp [decoded.1], rfl, by simp [decoded.2], by simp⟩
    · rintro ⟨more, rfl, none, rfl, -⟩
      obtain rfl := List.length_eq_zero_iff.mp none
      simp [decodeMany]
  | succ count ih =>
    constructor
    · intro decoded
      simp only [decodeMany] at decoded
      rcases read : (decode input : Except DecodeError (α × Bytes)) with e | ⟨value, behind⟩
      · simp only [read] at decoded
        cases decoded
      · simp only [read] at decoded
        obtain ⟨rfl, fits⟩ := decode_eq_ok_iff.mp read
        obtain ⟨more, rfl, rfl, rfl, allFit⟩ := ih.mp decoded
        refine ⟨value :: more, by simp, by simp, by simp, ?_⟩
        simpa using ⟨fits, allFit⟩
    · rintro ⟨more, rfl, size, rfl, allFit⟩
      obtain ⟨value, more, rfl⟩ := List.exists_cons_of_length_eq_add_one size
      have read := decode_encode (allFit value List.mem_cons_self) (more.flatMap encode ++ rest)
      have others : ∀ value ∈ more, Fits value := fun _ inside => allFit _ (List.mem_cons_of_mem _ inside)
      simp only [List.flatMap_cons, List.append_assoc, decodeMany, read]
      exact ih.mpr ⟨more, by simp, by simpa using size, rfl, others⟩

instance [LawfulCodec α] : LawfulCodec (List α) where
  Fits values := values.length ≤ maxCount ∧ ∀ value ∈ values, Fits value
  put_eq values out := by rw [encode_list, put_list]
  decode_eq_ok_iff := by
    intro input rest values
    rw [encode_list]
    constructor
    · intro decoded
      simp only [decode] at decoded
      rcases counted : decodeCount input with e | ⟨count, behind⟩
      · rw [counted] at decoded
        cases decoded
      · simp only [counted] at decoded
        obtain ⟨rfl, small⟩ := decodeCount_eq_ok_iff.mp counted
        obtain ⟨more, rfl, rfl, rfl, allFit⟩ := decodeMany_eq_ok_iff.mp decoded
        exact ⟨by simp, small, allFit⟩
    · rintro ⟨rfl, small, allFit⟩
      have counted : decodeCount (encodeCount values.length ++ values.flatMap encode ++ rest) =
          .ok (values.length, values.flatMap encode ++ rest) :=
        decodeCount_eq_ok_iff.mpr ⟨by simp, small⟩
      simp only [decode, counted]
      exact decodeMany_eq_ok_iff.mpr ⟨values, rfl, rfl, rfl, allFit⟩

/-- A vector is decoded as the list of its elements. -/
theorem decode_vector_eq_ok_iff {n : Nat} {input rest : Bytes} {values : Vector α n} :
    decode input = .ok (values, rest) ↔ decodeMany n [] input = .ok (values.toList, rest) := by
  constructor
  · intro decoded
    simp only [decode] at decoded
    split at decoded
    · cases decoded
    · rename_i read
      cases decoded
      exact read
  · intro read
    simp only [decode]
    split
    · rename_i failed
      cases read.symm.trans failed
    · rename_i decoded
      cases read.symm.trans decoded
      rfl

instance [LawfulCodec α] {n : Nat} : LawfulCodec (Vector α n) where
  Fits values := ∀ value ∈ values.toList, Fits value
  put_eq values out := by
    rw [encode_vector]
    exact putMany_eq values.toList out
  decode_eq_ok_iff := by
    intro input rest values
    rw [decode_vector_eq_ok_iff, decodeMany_eq_ok_iff, encode_vector]
    constructor
    · rintro ⟨more, same, -, rfl, allFit⟩
      obtain rfl : values.toList = more := same
      exact ⟨rfl, allFit⟩
    · rintro ⟨rfl, allFit⟩
      exact ⟨values.toList, rfl, values.length_toList, rfl, allFit⟩

instance : LawfulCodec Code where
  Fits code := code.size ≤ maxCount
  put_eq code out := by rw [encode_code, put_code]
  decode_eq_ok_iff := by
    intro input rest code
    rw [encode_code]
    constructor
    · intro decoded
      simp only [decode] at decoded
      rcases counted : decodeCount input with e | ⟨count, behind⟩
      · rw [counted] at decoded
        cases decoded
      · simp only [counted] at decoded
        rcases cut : split count behind with e | ⟨front, last⟩
        · rw [cut] at decoded
          cases decoded
        · simp only [cut] at decoded
          cases decoded
          obtain ⟨rfl, small⟩ := decodeCount_eq_ok_iff.mp counted
          obtain ⟨rfl, rfl⟩ := split_eq_ok_iff.mp cut
          exact ⟨by simp, by simpa using small⟩
    · rintro ⟨rfl, small⟩
      have counted : decodeCount (encodeCount code.size ++ code.toList ++ rest) =
          .ok (code.size, code.toList ++ rest) :=
        decodeCount_eq_ok_iff.mpr ⟨by simp, small⟩
      have cut : split code.size (code.toList ++ rest) = .ok (code.toList, rest) :=
        split_eq_ok_iff.mpr ⟨rfl, code.length_toList⟩
      simp only [decode, counted, cut, Array.toArray_toList]

/-! ### Records -/

theorem put_pair {σ : Type} [Sink σ] [LawfulSink σ] [LawfulCodec α] [LawfulCodec β] (pair : α × β) (out : σ) :
    put pair out = Sink.write out (encode pair.1 ++ encode pair.2) := by
  rw [← write_write, ← put_eq, ← put_eq]
  rfl

theorem encode_pair [LawfulCodec α] [LawfulCodec β] (pair : α × β) : encode pair = encode pair.1 ++ encode pair.2 :=
  encode_eq (put_pair pair)

instance [LawfulCodec α] [LawfulCodec β] : LawfulCodec (α × β) where
  Fits pair := Fits pair.1 ∧ Fits pair.2
  put_eq pair out := by rw [encode_pair, put_pair]
  decode_eq_ok_iff := by
    rintro input rest ⟨first, second⟩
    rw [encode_pair]
    constructor
    · intro decoded
      simp only [decode] at decoded
      rcases read : (decode input : Except DecodeError (α × Bytes)) with e | ⟨a, behind⟩
      · simp only [read] at decoded
        cases decoded
      · simp only [read] at decoded
        rcases read' : (decode behind : Except DecodeError (β × Bytes)) with e | ⟨b, last⟩
        · simp only [read'] at decoded
          cases decoded
        · simp only [read'] at decoded
          cases decoded
          obtain ⟨rfl, fits⟩ := decode_eq_ok_iff.mp read
          obtain ⟨rfl, fits'⟩ := decode_eq_ok_iff.mp read'
          exact ⟨by simp, fits, fits'⟩
    · rintro ⟨rfl, fits, fits'⟩
      rw [List.append_assoc]
      simp only [decode, decode_encode fits, decode_encode fits']

instance : LawfulCodec Unit where
  Fits _ := True
  put_eq _ out := (write_nil out).symm
  decode_eq_ok_iff := by
    intro input rest value
    constructor
    · rintro ⟨⟩
      exact ⟨rfl, trivial⟩
    · rintro ⟨rfl, -⟩
      rfl

/-- A record is decoded if its members are. -/
@[reducible] def ofMembers {σ : Type} [LawfulCodec α] {members : σ → α} {build : α → σ}
    (build_members : ∀ value, build (members value) = value) (members_build : ∀ value, members (build value) = value) :
    @LawfulCodec σ (Codec.ofMembers members build) :=
  letI := Codec.ofMembers members build
  { Fits := fun value => Fits (members value)
    put_eq := fun value out => put_eq (members value) out
    decode_eq_ok_iff := by
      intro input rest value
      constructor
      · intro decoded
        simp only [decode] at decoded
        rcases read : (decode input : Except DecodeError (α × Bytes)) with e | ⟨found, behind⟩
        · simp only [read] at decoded
          cases decoded
        · simp only [read] at decoded
          cases decoded
          rw [members_build]
          obtain ⟨rfl, fits⟩ := decode_eq_ok_iff.mp read
          exact ⟨by simp only [encode, put, members_build], fits⟩
      · rintro ⟨rfl, fits⟩
        have read : (decode (encode value ++ rest) : Except DecodeError (α × Bytes)) = .ok (members value, rest) :=
          decode_encode fits rest
        simp only [decode, read, build_members] }

end LawfulCodec

end Framescript
