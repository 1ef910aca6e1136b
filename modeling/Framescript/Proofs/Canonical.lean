import Framescript.Proofs.Relisting

/-!
Which bytecode survives a listing. Bytes can say an instruction in more than one way, and a statement says it in one:
the bits that have no meaning are clear, and a number is written no wider than it is (`Bytes.Canonical`). Bytes that are
taken for an instruction are the ones that are written for it exactly if they are canonical (`Instr.canonical_iff`), so
a listing assembles to what it lists exactly if all its lines are (`Listing.assemble_source_iff`).
-/
namespace Framescript

open Reader

/-! ### Canonical bytes -/

namespace Bytes

/-- The word at an index, with zeros behind the end. -/
def wordAt (bytes : Bytes) (index : Nat) : UInt16 :=
  wordOf (bytes.getD index 0) (bytes.getD (index + 1) 0)

/-- A conditional jump whose condition has no bit without a meaning and a known comparison, and whose comparand is not
    of two kinds at once, and a word only if it is no byte. -/
def CanonicalJump (bytes : Bytes) : Prop :=
  let condition := bytes.getD 1 0
  (condition &&& 0x38 = 0 ∧ condition &&& 0x07 ≤ 5 ∧ ¬ (condition &&& 0x80 ≠ 0 ∧ condition &&& 0x40 ≠ 0)) ∧
    (condition &&& 0x40 ≠ 0 → 255 < (bytes.wordAt 3).toNat)

/-- A sprite at a word only if a byte, or for its column one beyond 256, would not do, and whose row is not of two kinds
    at once. -/
def CanonicalSprite (bytes : Bytes) : Prop :=
  let opcode := bytes.getD 0 0
  let x := (bytes.wordAt 3).toInt16.toInt
  let y := (bytes.wordAt (if opcode &&& 0x30 = 0 then 5 else 4)).toInt16.toInt
  (opcode &&& 0x30 = 0 → ¬ (0 ≤ x ∧ x ≤ 511)) ∧ (opcode &&& 0x0C = 0 → ¬ (0 ≤ y ∧ y ≤ 255)) ∧
    (opcode &&& 0x08 ≠ 0 → opcode &&& 0x04 = 0)

/-- The bytes of an instruction in the one form in which they are written; only conditional jumps and sprites have
    others. -/
def Canonical (bytes : Bytes) : Prop :=
  let opcode := bytes.getD 0 0
  (opcode = Opcode.jmpIf.toByte → bytes.CanonicalJump) ∧ (opcode &&& 0xC0 = Instr.spriteBit → bytes.CanonicalSprite)

instance (bytes : Bytes) : Decidable bytes.CanonicalJump :=
  inferInstanceAs (Decidable (_ ∧ _))

instance (bytes : Bytes) : Decidable bytes.CanonicalSprite :=
  inferInstanceAs (Decidable (_ ∧ _))

instance (bytes : Bytes) : Decidable bytes.Canonical :=
  inferInstanceAs (Decidable (_ ∧ _))

theorem bigWord_wordOf (high low : UInt8) : bigWord (wordOf high low) = [high, low] := by
  have small := low.toNat_lt
  have first : (wordOf high low >>> 8).toUInt8 = high := by
    apply UInt8.toNat_inj.mp
    rw [toNat_high, toNat_wordOf]
    omega
  have second : (wordOf high low).toUInt8 = low := by
    apply UInt8.toNat_inj.mp
    rw [toNat_low, toNat_wordOf]
    omega
  rw [bigWord, first, second]

end Bytes

/-! ### What was read -/

namespace Script

variable {s s' : Script}

theorem rest_of_byte {value : UInt8} (read : s.byte = .ok (value, s')) : s.rest = value :: s'.rest := by
  rcases front : s.rest with _ | ⟨first, tail⟩
  · obtain ⟨fault, failed, _⟩ := byte_of_end front
    cases failed.symm.trans read
  · cases (byte_of_rest front).symm.trans read
    rw [rest_advance, front]
    rfl

theorem rest_of_word {value : UInt16} (read : s.word = .ok (value, s')) : s.rest = Bytes.bigWord value ++ s'.rest := by
  rcases front : s.rest with _ | ⟨high, _ | ⟨low, tail⟩⟩
  · obtain ⟨fault, failed, _⟩ := word_of_end (s := s) (by simp [front])
    cases failed.symm.trans read
  · obtain ⟨fault, failed, _⟩ := word_of_end (s := s) (by simp [front])
    cases failed.symm.trans read
  · cases (word_of_rest front).symm.trans read
    rw [rest_advance, front, Bytes.bigWord_wordOf]
    rfl

end Script

theorem Reader.andThen_ok {α β : Type} {read : Reader α} {next : α → Reader β} {s s' : Script} {result : β}
    (well : read.andThen next s = .ok (result, s')) :
    ∃ value mid, read s = .ok (value, mid) ∧ next value mid = .ok (result, s') := by
  unfold Reader.andThen at well
  rcases first : read s with fault | ⟨value, mid⟩
  · rw [first] at well
    cases well
  · rw [first] at well
    exact ⟨value, mid, rfl, well⟩

section readers

variable {s s' : Script}

/-- The bits of a condition byte that are heeded of those that say what follows the variable. -/
def Comparand.flagsOf (condition : UInt8) : UInt8 :=
  if condition &&& 0x80 ≠ 0 then 0x80 else if condition &&& 0x40 ≠ 0 then 0x40 else 0x00

theorem Comparand.read_exact {condition : UInt8} {c : Comparand} (read : Comparand.read condition s = .ok (c, s')) :
    s.rest = c.encode ++ s'.rest ∧ c.flags = flagsOf condition := by
  rw [Comparand.read_eq] at read
  unfold flagsOf
  by_cases var : condition &&& 0x80 ≠ 0
  · rw [if_pos var] at read ⊢
    obtain ⟨index, mid, first, made⟩ := andThen_ok read
    cases made
    exact ⟨Script.rest_of_byte first, rfl⟩
  · rw [if_neg var] at read ⊢
    by_cases word : condition &&& 0x40 ≠ 0
    · rw [if_pos word] at read ⊢
      obtain ⟨value, mid, first, made⟩ := andThen_ok read
      cases made
      exact ⟨Script.rest_of_word first, rfl⟩
    · rw [if_neg word] at read ⊢
      obtain ⟨value, mid, first, made⟩ := andThen_ok read
      cases made
      exact ⟨Script.rest_of_byte first, rfl⟩

theorem Condition.read_exact {c : Condition} (read : Condition.read s = .ok (c, s')) :
    ∃ condition, s.rest = condition :: c.var :: c.comparand.encode ++ Bytes.bigWord c.target ++ s'.rest ∧
      c.comparison = .ofCode condition ∧ c.comparand.flags = Comparand.flagsOf condition := by
  rw [Condition.read_eq] at read
  obtain ⟨condition, _, first, read⟩ := andThen_ok read
  obtain ⟨var, _, second, read⟩ := andThen_ok read
  obtain ⟨comparand, _, third, read⟩ := andThen_ok read
  obtain ⟨target, _, last, made⟩ := andThen_ok read
  cases made
  obtain ⟨compared, flags⟩ := Comparand.read_exact third
  refine ⟨condition, ?_, rfl, flags⟩
  rw [Script.rest_of_byte first, Script.rest_of_byte second, compared, Script.rest_of_word last]
  simp

theorem ThreadRange.read_exact {r : ThreadRange} (read : ThreadRange.read s = .ok (r, s')) :
    s.rest = r.encode ++ s'.rest := by
  rw [ThreadRange.read_eq] at read
  obtain ⟨first, _, one, read⟩ := andThen_ok read
  obtain ⟨last, _, two, read⟩ := andThen_ok read
  rw [Script.rest_of_byte one, Script.rest_of_byte two]
  by_cases empty : ThreadRange.isEmpty first last = true
  · rw [if_pos empty] at read
    cases read
    rw [encode, if_pos empty]
    rfl
  · rw [if_neg empty] at read
    obtain ⟨action, _, three, made⟩ := andThen_ok read
    cases made
    rw [encode, if_neg empty, Script.rest_of_byte three]
    rfl

theorem OperandKind.read_exact {kind : OperandKind} (unconditional : kind ≠ .condition) {value : kind.Value}
    (read : kind.read s = .ok (value, s')) : s.rest = kind.encode value ++ s'.rest := by
  cases kind with
  | var => exact Script.rest_of_byte read
  | byte => exact Script.rest_of_byte read
  | word => exact Script.rest_of_word read
  | address => exact Script.rest_of_word read
  | range => exact ThreadRange.read_exact read
  | condition => exact absurd rfl unconditional

theorem Operands.read_exact {kinds : List OperandKind} (unconditional : .condition ∉ kinds) {values : Operands kinds}
    (read : Operands.read kinds s = .ok (values, s')) : s.rest = Operands.encode kinds values ++ s'.rest := by
  induction kinds generalizing s with
  | nil =>
    cases read
    rfl
  | cons kind kinds ih =>
    obtain ⟨here, there⟩ := not_or.mp (mt List.mem_cons.mpr unconditional)
    rw [Operands.read_cons] at read
    obtain ⟨value, _, first, read⟩ := andThen_ok read
    obtain ⟨others, _, behind, made⟩ := andThen_ok read
    cases made
    rw [OperandKind.read_exact (Ne.symm here) first, ih there behind, ← List.append_assoc]
    rfl

/-- The column bits of a sprite's opcode are those of the column that is read. -/
theorem Horizontal.flags_bits (opcode : UInt8) : opcode &&& 0x30 =
    if opcode &&& 0x20 = 0 then (if opcode &&& 0x10 = 0 then 0x00 else 0x10)
    else if opcode &&& 0x10 = 0 then 0x20 else 0x30 := by
  revert opcode
  exact Bytes.forall_byte (by decide +kernel)

theorem Horizontal.read_exact {opcode : UInt8} {x : Horizontal} (read : Horizontal.read .oneWord opcode s = .ok (x, s')) :
    s.rest = x.encode ++ s'.rest ∧ x.flags = opcode &&& 0x30 := by
  rw [Horizontal.read_eq] at read
  rw [Horizontal.flags_bits]
  by_cases high : opcode &&& 0x20 = 0
  · by_cases low : opcode &&& 0x10 = 0
    · rw [if_pos ⟨high, low⟩] at read
      obtain ⟨value, _, first, made⟩ := andThen_ok read
      cases made
      rw [if_pos high, if_pos low]
      exact ⟨Script.rest_of_word first, rfl⟩
    · rw [if_neg (fun both => low both.2)] at read
      obtain ⟨value, _, first, made⟩ := andThen_ok read
      cases made
      rw [if_pos high, if_pos high, if_neg low]
      exact ⟨Script.rest_of_byte first, rfl⟩
  · rw [if_neg (fun both => high both.1)] at read
    obtain ⟨value, _, first, made⟩ := andThen_ok read
    cases made
    rw [if_neg high, if_neg high]
    by_cases low : opcode &&& 0x10 = 0
    · rw [if_pos low, if_pos low]
      exact ⟨Script.rest_of_byte first, rfl⟩
    · rw [if_neg low, if_neg low]
      exact ⟨Script.rest_of_byte first, rfl⟩

/-- The row bits of a sprite's opcode that are heeded. -/
def Vertical.flagsOf (opcode : UInt8) : UInt8 :=
  if opcode &&& 0x08 = 0 then (if opcode &&& 0x04 = 0 then 0x00 else 0x04) else 0x08

theorem Vertical.read_exact {opcode : UInt8} {y : Vertical} (read : Vertical.read .oneWord opcode s = .ok (y, s')) :
    s.rest = y.encode ++ s'.rest ∧ y.flags = flagsOf opcode := by
  rw [Vertical.read_eq] at read
  unfold flagsOf
  by_cases high : opcode &&& 0x08 = 0
  · by_cases low : opcode &&& 0x04 = 0
    · rw [if_pos ⟨high, low⟩] at read
      obtain ⟨value, _, first, made⟩ := andThen_ok read
      cases made
      rw [if_pos high, if_pos low]
      exact ⟨Script.rest_of_word first, rfl⟩
    · rw [if_neg (fun both => low both.2)] at read
      obtain ⟨value, _, first, made⟩ := andThen_ok read
      cases made
      rw [if_pos high, if_pos high, if_neg low]
      exact ⟨Script.rest_of_byte first, rfl⟩
  · -- the lower bit is not looked at
    rw [if_neg (fun both => high both.1)] at read
    obtain ⟨value, _, first, made⟩ := andThen_ok read
    cases made
    rw [if_neg high, if_neg high]
    exact ⟨Script.rest_of_byte first, rfl⟩

theorem Zoom.read_exact {opcode : UInt8} {zoom : Zoom} (read : Zoom.read opcode s = .ok (zoom, s')) :
    s.rest = zoom.encode ++ s'.rest ∧ zoom.flags = opcode &&& 0x03 := by
  rw [Zoom.read_eq] at read
  rw [Zoom.flags_bits]
  by_cases high : opcode &&& 0x02 = 0
  · rw [if_pos high] at read ⊢
    by_cases low : opcode &&& 0x01 = 0
    · rw [if_pos low] at read ⊢
      cases read
      exact ⟨rfl, rfl⟩
    · rw [if_neg low] at read ⊢
      obtain ⟨index, _, first, made⟩ := andThen_ok read
      cases made
      exact ⟨Script.rest_of_byte first, rfl⟩
  · rw [if_neg high] at read ⊢
    by_cases low : opcode &&& 0x01 = 0
    · rw [if_pos low] at read ⊢
      obtain ⟨value, _, first, made⟩ := andThen_ok read
      cases made
      exact ⟨Script.rest_of_byte first, rfl⟩
    · rw [if_neg low] at read ⊢
      cases read
      exact ⟨rfl, rfl⟩

end readers

/-! ### Instructions -/

theorem Opcode.toByte_of_ofByte {opcode : UInt8} {op : Opcode} (found : Opcode.ofByte? opcode = some op) :
    op.toByte = opcode := by
  have all : ∀ opcode : UInt8, (Opcode.ofByte? opcode).all (fun op => op.toByte = opcode) = true :=
    Bytes.forall_byte (by decide +kernel)
  have here := all opcode
  rw [found] at here
  exact of_decide_eq_true here

/-- What the bits of an opcode say about what it starts. -/
theorem Lead.of_meaning {opcode : UInt8} {lead : Lead} (meaning : Lead.ofByte? opcode = some lead) :
    (lead = .background ∧ opcode &&& 0x80 ≠ 0) ∨ (lead = .sprite ∧ opcode &&& 0x80 = 0 ∧ opcode &&& 0x40 ≠ 0) ∨
      ∃ op, lead = .table op ∧ opcode = op.toByte := by
  unfold Lead.ofByte? at meaning
  split at meaning
  · rename_i top
    cases meaning
    exact .inl ⟨rfl, top⟩
  · rename_i top
    split at meaning
    · rename_i next
      cases meaning
      exact .inr (.inl ⟨rfl, Decidable.not_not.mp top, next⟩)
    · obtain ⟨op, found, rfl⟩ := Option.map_eq_some_iff.mp meaning
      exact .inr (.inr ⟨op, rfl, (Opcode.toByte_of_ofByte found).symm⟩)

/-- A condition byte is made of its parts exactly if no bit without a meaning is set, the comparison is known and the
    comparand is not of two kinds at once. -/
theorem Condition.canonical_byte (condition : UInt8) :
    (condition &&& 0x38 = 0 ∧ condition &&& 0x07 ≤ 5 ∧ ¬ (condition &&& 0x80 ≠ 0 ∧ condition &&& 0x40 ≠ 0)) ↔
      (Comparison.ofCode condition).isKnown = true ∧
        Comparand.flagsOf condition ||| (Comparison.ofCode condition).code = condition := by
  revert condition
  exact Bytes.forall_byte (by decide +kernel)

theorem Instr.canonical_spriteOpcode (opcode : UInt8) : opcode &&& 0x80 = 0 → opcode &&& 0x40 ≠ 0 →
    (spriteBit ||| (opcode &&& 0x30) ||| Vertical.flagsOf opcode ||| (opcode &&& 0x03) = opcode ↔
      (opcode &&& 0x08 ≠ 0 → opcode &&& 0x04 = 0)) := by
  revert opcode
  exact Bytes.forall_byte (by decide +kernel)

theorem Bytes.wordAt_bigWord (front : Bytes) (value : UInt16) (behind : Bytes) :
    wordAt (front ++ bigWord value ++ behind) front.length = value := by
  have first : (front ++ bigWord value ++ behind).getD front.length 0 = (value >>> 8).toUInt8 := by
    simp [bigWord]
  have second : (front ++ bigWord value ++ behind).getD (front.length + 1) 0 = value.toUInt8 := by
    simp [bigWord]
  rw [wordAt, first, second, wordOf_parts]

/-- A word that is no byte, as a number with a sign or without. -/
theorem Comparand.sayable_word (value : UInt16) : (Comparand.word value).Sayable ↔ 255 < value.toNat := by
  have small := value.toNat_lt
  show ¬ (0 ≤ value.toInt16.toInt ∧ value.toInt16.toInt ≤ 255) ↔ _
  rw [toInt_toInt16]
  split <;> omega

theorem Comparand.flagsOf_word (condition : UInt8) : ¬ (condition &&& 0x80 ≠ 0 ∧ condition &&& 0x40 ≠ 0) →
    (condition &&& 0x40 ≠ 0 ↔ flagsOf condition = 0x40) := by
  revert condition
  exact Bytes.forall_byte (by decide +kernel)

namespace Bytes

/-- A conditional jump is canonical if its condition byte is, and its comparand can be said. -/
theorem canonicalJump_iff {condition : UInt8} {c : Condition} (flags : c.comparand.flags = Comparand.flagsOf condition) :
    CanonicalJump (Opcode.jmpIf.toByte :: condition :: c.var :: c.comparand.encode ++ bigWord c.target) ↔
      ((Comparison.ofCode condition).isKnown = true ∧
        Comparand.flagsOf condition ||| (Comparison.ofCode condition).code = condition) ∧ c.comparand.Sayable := by
  rw [← Condition.canonical_byte]
  refine and_congr_right fun ⟨_, _, single⟩ => ?_
  obtain ⟨comparison, var, comparand, target⟩ := c
  have word := Comparand.flagsOf_word condition single
  rw [← show comparand.flags = _ from flags] at word
  show (condition &&& 0x40 ≠ 0 → _) ↔ _
  rw [word]
  cases comparand with
  | var index => exact iff_of_true (fun same => absurd same (show (0x80 : UInt8) ≠ 0x40 by decide)) trivial
  | byte value => exact iff_of_true (fun same => absurd same (show (0x00 : UInt8) ≠ 0x40 by decide)) trivial
  | word value =>
    have stands : wordAt (Opcode.jmpIf.toByte :: condition :: var :: bigWord value ++ bigWord target) 3 = value :=
      wordAt_bigWord [Opcode.jmpIf.toByte, condition, var] value (bigWord target)
    show (_ → 255 < (wordAt (Opcode.jmpIf.toByte :: condition :: var :: bigWord value ++ bigWord target) 3).toNat) ↔ _
    rw [stands, Comparand.sayable_word]
    exact imp_iff_right rfl

/-- A sprite at a column can be said if the column is no word, or the word behind the bytes in front is wide. -/
theorem column_iff {opcode : UInt8} {x : Horizontal} (columns : x.flags = opcode &&& 0x30) (front behind : Bytes) :
    (opcode &&& 0x30 = 0 → ¬ (0 ≤ (wordAt (front ++ x.encode ++ behind) front.length).toInt16.toInt ∧
      (wordAt (front ++ x.encode ++ behind) front.length).toInt16.toInt ≤ 511)) ↔ x.Sayable := by
  rw [← columns]
  cases x with
  | word value =>
    rw [show (Horizontal.word value).encode = bigWord value from rfl, wordAt_bigWord]
    exact imp_iff_right rfl
  | var index => exact iff_of_true (fun same => absurd same (show (0x10 : UInt8) ≠ 0 by decide)) trivial
  | byte value => exact iff_of_true (fun same => absurd same (show (0x20 : UInt8) ≠ 0 by decide)) trivial
  | beyond value => exact iff_of_true (fun same => absurd same (show (0x30 : UInt8) ≠ 0 by decide)) trivial

theorem row_iff {opcode : UInt8} {y : Vertical} (rows : y.flags = Vertical.flagsOf opcode) (front behind : Bytes) :
    (opcode &&& 0x0C = 0 → ¬ (0 ≤ (wordAt (front ++ y.encode ++ behind) front.length).toInt16.toInt ∧
      (wordAt (front ++ y.encode ++ behind) front.length).toInt16.toInt ≤ 255)) ↔ y.Sayable := by
  have word : ∀ opcode, opcode &&& 0x0C = 0 ↔ Vertical.flagsOf opcode = 0 := forall_byte (by decide +kernel)
  rw [word, ← rows]
  cases y with
  | word value =>
    rw [show (Vertical.word value).encode = bigWord value from rfl, wordAt_bigWord]
    exact imp_iff_right rfl
  | var index => exact iff_of_true (fun same => absurd same (show (0x04 : UInt8) ≠ 0 by decide)) trivial
  | byte value => exact iff_of_true (fun same => absurd same (show (0x08 : UInt8) ≠ 0 by decide)) trivial

/-- A sprite is canonical if its opcode is, and its column and its row can be said. -/
theorem canonicalSprite_iff {opcode : UInt8} {x : Horizontal} {y : Vertical} (columns : x.flags = opcode &&& 0x30)
    (rows : y.flags = Vertical.flagsOf opcode) (halved : UInt16) (behind : Bytes) :
    CanonicalSprite (opcode :: bigWord halved ++ x.encode ++ y.encode ++ behind) ↔
      x.Sayable ∧ y.Sayable ∧ (opcode &&& 0x08 ≠ 0 → opcode &&& 0x04 = 0) := by
  have place : (opcode :: bigWord halved ++ x.encode).length = if opcode &&& 0x30 = 0 then 5 else 4 := by
    rw [← columns]
    cases x <;> rfl
  -- the column is behind the opcode and the offset, and the row behind the column, wherever that ends
  have column := column_iff columns (opcode :: bigWord halved) (y.encode ++ behind)
  rw [← List.append_assoc] at column
  have row := row_iff rows (opcode :: bigWord halved ++ x.encode) behind
  rw [place] at row
  exact and_congr column (and_congr row Iff.rfl)

end Bytes

namespace Instr

variable {s s' : Script} {opcode : UInt8} {instr : Instr}

theorem canonical_background (top : opcode &&& 0x80 ≠ 0)
    (read : readAfter .oneWord opcode .background s = .ok (instr, s')) (used : s'.rest = []) :
    Bytes.Canonical (opcode :: s.rest) ↔ instr.Sayable ∧ instr.encode = opcode :: s.rest := by
  have bits : ∀ opcode : UInt8, opcode &&& 0x80 ≠ 0 → (opcode ≠ Opcode.jmpIf.toByte ∧ opcode &&& 0xC0 ≠ spriteBit) ∧
      backgroundBit ||| (opcode &&& 0x7F) = opcode ∧ (opcode &&& 0x7F).toNat < 128 :=
    Bytes.forall_byte (by decide +kernel)
  obtain ⟨⟨noJump, noSprite⟩, whole, small⟩ := bits opcode top
  rw [readAfter_background] at read
  obtain ⟨low, _, first, read⟩ := andThen_ok read
  obtain ⟨x, _, second, read⟩ := andThen_ok read
  obtain ⟨y, _, third, made⟩ := andThen_ok read
  cases made
  obtain ⟨high, last⟩ := List.cons.inj (Bytes.bigWord_wordOf (opcode &&& 0x7F) low)
  rw [Script.rest_of_byte first, Script.rest_of_byte second, Script.rest_of_byte third, used]
  refine iff_of_true ⟨fun same => absurd same noJump, fun same => absurd same noSprite⟩ ⟨?_, ?_⟩
  · have := low.toNat_lt
    show Bytes.wordOf (opcode &&& 0x7F) low < 0x8000
    rw [UInt16.lt_iff_toNat_lt, Bytes.toNat_wordOf]
    show _ < 0x8000
    omega
  · rw [encode, high, (List.cons.inj last).1, whole]

theorem canonical_sprite (top : opcode &&& 0x80 = 0) (next : opcode &&& 0x40 ≠ 0)
    (read : readAfter .oneWord opcode .sprite s = .ok (instr, s')) (used : s'.rest = []) :
    Bytes.Canonical (opcode :: s.rest) ↔ instr.Sayable ∧ instr.encode = opcode :: s.rest := by
  have bits : ∀ opcode : UInt8, opcode &&& 0x80 = 0 → opcode &&& 0x40 ≠ 0 →
      opcode ≠ Opcode.jmpIf.toByte ∧ opcode &&& 0xC0 = spriteBit :=
    Bytes.forall_byte (by decide +kernel)
  obtain ⟨noJump, sprite⟩ := bits opcode top next
  rw [readAfter_sprite] at read
  obtain ⟨halved, _, first, read⟩ := andThen_ok read
  obtain ⟨x, _, second, read⟩ := andThen_ok read
  obtain ⟨y, _, third, read⟩ := andThen_ok read
  obtain ⟨zoom, _, last, made⟩ := andThen_ok read
  cases made
  obtain ⟨column, columns⟩ := Horizontal.read_exact second
  obtain ⟨row, rows⟩ := Vertical.read_exact third
  obtain ⟨scale, scales⟩ := Zoom.read_exact last
  have rest : s.rest = Bytes.bigWord halved ++ x.encode ++ y.encode ++ zoom.encode := by
    rw [Script.rest_of_word first, column, row, scale, used]
    simp
  have form : Bytes.Canonical (opcode :: s.rest) ↔
      Bytes.CanonicalSprite (opcode :: Bytes.bigWord halved ++ x.encode ++ y.encode ++ zoom.encode) := by
    rw [rest]
    exact ⟨fun canonical => canonical.2 sprite, fun canonical => ⟨fun same => absurd same noJump, fun _ => canonical⟩⟩
  have written : (Instr.sprite halved x y zoom).encode = opcode :: s.rest ↔
      (opcode &&& 0x08 ≠ 0 → opcode &&& 0x04 = 0) := by
    rw [← canonical_spriteOpcode opcode top next, ← columns, ← rows, ← scales, rest]
    exact ⟨fun same => (List.cons.inj same).1, fun same => congrArg (· :: _) same⟩
  rw [form, written, Bytes.canonicalSprite_iff columns rows, ← and_assoc]
  exact Iff.rfl

theorem canonical_jump (read : readAfter .oneWord Opcode.jmpIf.toByte (.table .jmpIf) s = .ok (instr, s'))
    (used : s'.rest = []) :
    Bytes.Canonical (Opcode.jmpIf.toByte :: s.rest) ↔ instr.Sayable ∧ instr.encode = Opcode.jmpIf.toByte :: s.rest := by
  rw [readAfter_table] at read
  obtain ⟨values, _, read, made⟩ := andThen_ok read
  cases made
  change Operands.read [.condition] s = _ at read
  rw [Operands.read_cons] at read
  obtain ⟨(c : Condition), _, first, read⟩ := andThen_ok read
  obtain ⟨_, _, none, made⟩ := andThen_ok read
  cases none
  cases made
  obtain ⟨condition, rest, comparison, flags⟩ := Condition.read_exact first
  rw [used, List.append_nil] at rest
  have form : Bytes.Canonical (Opcode.jmpIf.toByte :: s.rest) ↔ Bytes.CanonicalJump
      (Opcode.jmpIf.toByte :: condition :: c.var :: c.comparand.encode ++ Bytes.bigWord c.target) := by
    rw [rest]
    exact ⟨fun canonical => canonical.1 rfl, fun canonical => ⟨fun _ => canonical, fun sprite =>
      absurd sprite (show Opcode.jmpIf.toByte &&& 0xC0 ≠ spriteBit by decide)⟩⟩
  have said : (Instr.table .jmpIf (c, ())).Sayable ↔
      (Comparison.ofCode condition).isKnown = true ∧ c.comparand.Sayable := by
    rw [← comparison]
    exact and_iff_left trivial
  have written : (Instr.table .jmpIf (c, ())).encode = Opcode.jmpIf.toByte :: s.rest ↔
      Comparand.flagsOf condition ||| (Comparison.ofCode condition).code = condition := by
    rw [← flags, ← comparison, rest]
    show Opcode.jmpIf.toByte :: (((_ ||| _) :: c.var :: _ ++ _) ++ []) = _ ↔ _
    simp
  rw [form, said, written, Bytes.canonicalJump_iff flags]
  exact and_right_comm

theorem canonical_table {op : Opcode} (unconditional : op ≠ .jmpIf)
    (read : readAfter .oneWord op.toByte (.table op) s = .ok (instr, s')) (used : s'.rest = []) :
    Bytes.Canonical (op.toByte :: s.rest) ↔ instr.Sayable ∧ instr.encode = op.toByte :: s.rest := by
  have bits : op.toByte &&& 0xC0 ≠ spriteBit := by cases op <;> decide
  have noJump : op.toByte ≠ Opcode.jmpIf.toByte := by cases op <;> first | decide | exact absurd rfl unconditional
  have free : .condition ∉ op.operands := by cases op <;> first | decide | exact absurd rfl unconditional
  rw [readAfter_table] at read
  obtain ⟨values, _, read, made⟩ := andThen_ok read
  cases made
  refine iff_of_true ⟨fun same => absurd same noJump, fun same => absurd same bits⟩
    ⟨Operands.sayable_of_unconditional free values, ?_⟩
  rw [Operands.read_exact free read, used, List.append_nil]
  rfl

/-- Bytes that are taken for an instruction are those that are written for it, and for one that a statement can say,
    exactly if they are canonical. -/
theorem canonical_iff {bytes : Bytes} (takes : Takes (Instr.read .oneWord) bytes instr) :
    bytes.Canonical ↔ instr.Sayable ∧ instr.encode = bytes := by
  -- bytes that are taken for an instruction are so in a script of their own, which then is at its end
  have all : ({ code := bytes.toArray } : Script).rest = bytes := rfl
  have read := takes.whole { code := bytes.toArray } (List.prefix_refl bytes)
  have used : (({ code := bytes.toArray } : Script).advance bytes.length).rest = [] := by
    rw [Script.rest_advance, all, List.drop_length]
  obtain ⟨opcode, behind, lead, first, meaning, read⟩ := of_read read
  have split := Script.rest_of_byte first
  rw [all] at split
  rw [split]
  rcases Lead.of_meaning meaning with ⟨rfl, top⟩ | ⟨rfl, top, next⟩ | ⟨op, rfl, rfl⟩
  · exact canonical_background top read used
  · exact canonical_sprite top next read used
  · by_cases jump : op = .jmpIf
    · subst jump
      exact canonical_jump read used
    · exact canonical_table jump read used

/-- The bytes of an instruction that a statement can say are canonical. -/
theorem Sayable.canonical (sayable : instr.Sayable) : Bytes.Canonical instr.encode :=
  (canonical_iff (takes_encode sayable.encodable .oneWord)).mpr ⟨sayable.kept, encode_kept instr⟩

end Instr

/-! ### Listings -/

namespace Listing

/-- The lines of the instructions from the position of a script on, one behind the other to its end. -/
inductive Lists : Script → List ListingLine → Prop
  | nil {s : Script} (ended : s.rest = []) : Lists s []
  | cons {s : Script} {bytes : Bytes} {instr : Instr} {lines : List ListingLine} (filled : bytes ≠ [])
      (front : bytes <+: s.rest) (takes : Takes (Instr.read .oneWord) bytes instr)
      (later : Lists (s.advance bytes.length) lines) : Lists s (⟨s.pc, bytes, instr.render⟩ :: lines)

theorem linesFrom_lists {fuel : Nat} {done lines : List ListingLine} {s : Script} (enough : s.rest.length ≤ fuel)
    (listed : linesFrom fuel done s = .ok lines) : ∃ own, lines = done.reverse ++ own ∧ Lists s own := by
  induction fuel generalizing done s with
  | zero =>
    cases listed
    exact ⟨[], (List.append_nil _).symm, .nil (List.length_eq_zero_iff.mp (Nat.le_zero.mp enough))⟩
  | succ fuel ih =>
    rw [linesFrom] at listed
    by_cases inside : s.pc < s.code.size
    · rw [if_pos inside] at listed
      rcases Instr.read_cases s with ended | ⟨opcode, invalid⟩ | ⟨bytes, instr, filled, front, takes⟩
      · obtain ⟨fault, failed, _⟩ := ended .oneWord
        rw [lineAt_of_unread failed] at listed
        cases listed
      · rw [lineAt_of_unread (invalid .oneWord)] at listed
        cases listed
      · rw [lineAt_of_takes (takes .oneWord) front] at listed
        have shorter : (s.advance bytes.length).rest.length ≤ fuel := by
          have := List.length_pos_iff.mpr filled
          rw [Script.rest_advance, List.length_drop]
          omega
        obtain ⟨own, rfl, lists⟩ := ih shorter listed
        refine ⟨_, ?_, .cons filled front (takes .oneWord) lists⟩
        rw [List.reverse_cons, List.append_assoc]
        rfl
    · rw [if_neg inside] at listed
      cases listed
      have ended : s.rest.length = 0 := by
        rw [Script.length_rest]
        omega
      exact ⟨[], (List.append_nil _).symm, .nil (List.length_eq_zero_iff.mp ended)⟩

theorem ofCode_lists {code : Code} {lines : List ListingLine} (listed : ofCode code = .ok lines) :
    Lists { code } lines := by
  obtain ⟨own, rfl, lists⟩ := linesFrom_lists (by rw [Script.length_rest]; exact Nat.sub_le _ _) listed
  exact lists

namespace Lists

variable {s : Script} {lines : List ListingLine}

/-- The lines have all bytes from the position on, in order. -/
theorem flatMap_bytes (lists : Lists s lines) : lines.flatMap ListingLine.bytes = s.rest := by
  induction lists with
  | nil ended => exact ended.symm
  | cons filled front takes later ih =>
    rw [List.flatMap_cons, ih, Script.rest_advance]
    exact List.prefix_iff_eq_append.mp front

theorem exists_instrs (lists : Lists s lines) : ∃ instrs : List Instr, lines.map ListingLine.text = instrs.map Instr.render ∧
    List.Forall₂ (fun line instr => Takes (Instr.read .oneWord) line.bytes instr) lines instrs := by
  induction lists with
  | nil ended => exact ⟨[], rfl, .nil⟩
  | @cons _ _ instr _ filled front takes later ih =>
    obtain ⟨instrs, texts, each⟩ := ih
    exact ⟨instr :: instrs, by rw [List.map_cons, texts]; rfl, .cons takes each⟩

end Lists

variable {lines : List ListingLine}

/-- Canonical bytes are those of instructions that a statement can say. -/
theorem exact_of_canonical {instrs : List Instr}
    (each : List.Forall₂ (fun line instr => Takes (Instr.read .oneWord) line.bytes instr) lines instrs)
    (canonical : ∀ line ∈ lines, line.bytes.Canonical) :
    (∀ instr ∈ instrs, instr.Sayable) ∧ instrs.flatMap Instr.encode = lines.flatMap ListingLine.bytes := by
  induction each with
  | nil => exact ⟨by simp, rfl⟩
  | cons takes _ ih =>
    obtain ⟨here, there⟩ := List.forall_mem_cons.mp canonical
    obtain ⟨said, written⟩ := (Instr.canonical_iff takes).mp here
    obtain ⟨sayable, behind⟩ := ih there
    refine ⟨List.forall_mem_cons.mpr ⟨said, sayable⟩, ?_⟩
    rw [List.flatMap_cons, List.flatMap_cons, written, behind]

/-- Exactly which code survives a listing: the texts of its lines, one in a line, assemble to a single part with the same
    code exactly if every instruction of it is canonical. -/
theorem assemble_source_iff {code : Code} (filled : code ≠ #[]) (listed : ofCode code = .ok lines) :
    (∃ part : Part, Assembly.assemble (source lines) = .ok ⟨[part]⟩ ∧ part.code = code) ↔
      ∀ line ∈ lines, line.bytes.Canonical := by
  constructor
  · -- assembled code is made of bytes that are written for sayable instructions, and its lines are these bytes
    rintro ⟨part, accepted, rfl⟩ line member
    obtain ⟨instrs, whole, sayable⟩ := Assembly.exists_instrs_of_assemble accepted List.mem_cons_self
    obtain ⟨found, listed', same⟩ := ofCode_encode_lines whole fun instr among => (sayable instr among).encodable
    cases listed'.symm.trans listed
    have own := List.mem_map_of_mem (f := fun line : ListingLine => (line.bytes, line.text)) member
    rw [same] at own
    obtain ⟨instr, among, written⟩ := List.mem_map.mp own
    rw [← (Prod.mk.inj written).1]
    exact (sayable instr among).canonical
  · -- each text is one of a sayable instruction, and assembles to the bytes of its line
    intro canonical
    have lists := ofCode_lists listed
    obtain ⟨instrs, texts, each⟩ := lists.exists_instrs
    obtain ⟨sayable, written⟩ := exact_of_canonical each canonical
    have whole : instrs.flatMap Instr.encode = code.toList := written.trans lists.flatMap_bytes
    have some : instrs ≠ [] := by
      rintro rfl
      exact filled (Array.toList_eq_nil_iff.mp whole.symm)
    refine ⟨⟨Part.first, code⟩, ?_, rfl⟩
    rw [assemble_source texts sayable some, whole]

/-- A conditional jump on a negative number and a sprite beyond the first 256 columns survive, and a sprite whose column
    256 is a word does not. -/
theorem assemble_source_iff_columns :
    (∃ lines, ofCode #[0x0A, 0x43, 2, 0xFE, 0xD4, 0, 0, 0x73, 0x80, 0x02, 44, 0xFF, 0xFB] = .ok lines ∧
      ∃ part : Part, Assembly.assemble (source lines) = .ok ⟨[part]⟩ ∧
        part.code = #[0x0A, 0x43, 2, 0xFE, 0xD4, 0, 0, 0x73, 0x80, 0x02, 44, 0xFF, 0xFB]) ∧
    (∃ lines, ofCode #[0x40, 0, 2, 1, 0, 0xFF, 0xFB] = .ok lines ∧
      ¬ ∃ part : Part, Assembly.assemble (source lines) = .ok ⟨[part]⟩ ∧
        part.code = #[0x40, 0, 2, 1, 0, 0xFF, 0xFB]) := by
  have first : ofCode #[0x0A, 0x43, 2, 0xFE, 0xD4, 0, 0, 0x73, 0x80, 0x02, 44, 0xFF, 0xFB] =
      .ok [⟨0, [0x0A, 0x43, 2, 0xFE, 0xD4, 0, 0], "JMP_IF v2 >= -300, 0x0000".toList⟩,
        ⟨7, [0x73, 0x80, 0x02, 44, 0xFF, 0xFB], "POLY 0x10004, 300, -5, alt".toList⟩] := by decide +kernel
  have second : ofCode #[0x40, 0, 2, 1, 0, 0xFF, 0xFB] =
      .ok [⟨0, [0x40, 0, 2, 1, 0, 0xFF, 0xFB], "POLY 0x0004, 256, -5".toList⟩] := by decide +kernel
  exact ⟨⟨_, first, (assemble_source_iff (by decide) first).mpr (by decide +kernel)⟩,
    ⟨_, second, mt (assemble_source_iff (by decide) second).mp (by decide +kernel)⟩⟩

end Listing

end Framescript
