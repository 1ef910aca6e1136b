import Framescript.Proofs.Files

/-!
Every type that a codec can be built for. `Codec.Built` lists the ways to build one, and `Codec.Built.counts` the counts
that stand in front of the lists and blocks inside a value. By induction over how its codec is built, a value of any such
type is decoded from its encoding and from nothing else, as long as no count in it is beyond the limit, and its size is
the length of its encoding (`Codec.Built.decodes_exactly`).
-/
namespace Framescript

namespace Codec

/-- How the codec of a type is built from those of integers and blocks of bytes: with vectors and lists of any depth, and
    with records, whose members are pairs of the first one and the others. An index or a count is a `u64`. -/
inductive Built : (α : Type) → [Codec α] → Type 1
  | u8 : Built UInt8
  | u16 : Built UInt16
  | u32 : Built UInt32
  | u64 : Built UInt64
  | i8 : Built Int8
  | i16 : Built Int16
  | i32 : Built Int32
  | block : Built Code
  | vector {α : Type} [Codec α] (count : Nat) (element : Built α) : Built (Vector α count)
  | list {α : Type} [Codec α] (element : Built α) : Built (List α)
  | none : Built Unit
  | pair {α β : Type} [Codec α] [Codec β] (first : Built α) (others : Built β) : Built (α × β)
  | record {σ α : Type} [Codec α] (members : σ → α) (build : α → σ) (build_members : ∀ value, build (members value) = value)
    (members_build : ∀ value, members (build value) = value) (inner : Built α) : @Built σ (ofMembers members build)

namespace Built

/-- The lengths of all lists and blocks inside a value. -/
def counts : {α : Type} → {_ : Codec α} → Built α → α → List Nat
  | _, _, .block, code => [code.size]
  | _, _, @vector _ _ _ element, values => values.toList.flatMap element.counts
  | _, _, @list _ _ element, values => values.length :: values.flatMap element.counts
  | _, _, @pair _ _ _ _ first others, value => first.counts value.1 ++ others.counts value.2
  | _, _, @record _ _ _ members _ _ _ inner, value => inner.counts (members value)
  | _, _, _, _ => []

variable {α : Type}

/-- Nothing but the encoding of a value is written to a sink, and nothing but it is decoded as that value, if no count in
    it is beyond the limit. -/
structure Exact (α : Type) [Codec α] (counts : α → List Nat) : Prop where
  put_eq {σ : Type} [Sink σ] [LawfulSink σ] (value : α) (out : σ) : put value out = Sink.write out (encode value)
  decode_iff (input rest : Bytes) (value : α) :
    decode input = .ok (value, rest) ↔ input = encode value ++ rest ∧ ∀ count ∈ counts value, count ≤ maxCount

/-- The laws of a codec, with its limits said by the counts. -/
@[reducible] def Exact.lawful [Codec α] {counts : α → List Nat} (exact : Exact α counts) : LawfulCodec α where
  Fits value := ∀ count ∈ counts value, count ≤ maxCount
  put_eq := exact.put_eq
  decode_eq_ok_iff := exact.decode_iff _ _ _

theorem exact_of_lawful [Codec α] [LawfulCodec α] {counts : α → List Nat}
    (limits : ∀ value : α, LawfulCodec.Fits value ↔ ∀ count ∈ counts value, count ≤ maxCount) : Exact α counts where
  put_eq := LawfulCodec.put_eq
  decode_iff input rest value := by rw [LawfulCodec.decode_eq_ok_iff, limits]

/-- What obeys the laws without limits has no count in it. -/
theorem exact_of_unlimited [Codec α] [LawfulCodec α] (unlimited : ∀ value : α, LawfulCodec.Fits value) :
    Exact α fun _ => [] :=
  exact_of_lawful fun value => ⟨fun _ _ inside => absurd inside List.not_mem_nil, fun _ => unlimited value⟩

/-- The laws hold of a type by the laws of those that it is made of. -/
theorem exact_of_built [Codec α] (built : Built α) : Exact α built.counts := by
  induction built with
  | block => exact exact_of_lawful fun code => (List.forall_mem_singleton (p := (· ≤ maxCount))).symm
  | vector count element ih =>
    -- what is known of the elements is made their laws, from which the laws of the whole are inferred
    let _ := ih.lawful
    exact exact_of_lawful fun values => List.forall_mem_flatMap.symm
  | list element ih =>
    let _ := ih.lawful
    refine exact_of_lawful fun values => ?_
    rw [counts, List.forall_mem_cons, List.forall_mem_flatMap]
    rfl
  | pair first others ihFirst ihOthers =>
    let _ := ihFirst.lawful
    let _ := ihOthers.lawful
    exact exact_of_lawful fun value => List.forall_mem_append.symm
  | record members build build_members members_build inner ih =>
    let _ := ih.lawful
    let _ := Codec.ofMembers members build
    let _ := LawfulCodec.ofMembers build_members members_build
    exact exact_of_lawful fun value => Iff.rfl
  | _ => exact exact_of_unlimited fun _ => trivial

/-- Whatever type a codec is built for, a value is decoded, with `rest` left, from its encoding in front of `rest` and
    from nothing else, if and only if no list and no block inside it is longer than `2 ^ 24`. The size that is counted
    is the length of the encoding. -/
theorem decodes_exactly [Codec α] (built : Built α) (value : α) (input rest : Bytes) :
    (decode input = .ok (value, rest) ↔
      input = encode value ++ rest ∧ ∀ count ∈ built.counts value, count ≤ 2 ^ 24) ∧
    size value = (encode value).length := by
  let _ := (exact_of_built built).lawful
  exact ⟨(exact_of_built built).decode_iff input rest value, LawfulCodec.size_eq_length value⟩

/-- Lists of lists of signed words beside a program, with a byte left. -/
theorem decodes_exactly_nested :
    let value : List (List Int16) × Program := ([[-2, 300], []], ⟨[⟨0x3E80, #[6, 6]⟩]⟩)
    let input : Bytes := [2, 0, 0, 0, 0, 0, 0, 0, 2, 0, 0, 0, 0, 0, 0, 0, 0xFE, 0xFF, 0x2C, 1, 0, 0, 0, 0, 0, 0, 0, 0,
      1, 0, 0, 0, 0, 0, 0, 0, 0x80, 0x3E, 2, 0, 0, 0, 0, 0, 0, 0, 6, 6, 9]
    decode input = .ok (value, [9]) ∧ size value = 48 := by
  intro value input
  let part : Built Part := .record _ _ (fun _ => rfl) (fun _ => rfl) (.pair .u16 .block)
  let program : Built Program := .record _ _ (fun _ => rfl) (fun _ => rfl) (.list part)
  obtain ⟨decodes, size⟩ := decodes_exactly (.pair (.list (.list .i16)) program) value input [9]
  exact ⟨decodes.mpr ⟨by decide +kernel, by decide +kernel⟩, size.trans (by decide +kernel)⟩

end Built

end Codec

end Framescript
