import Framescript.Proofs.Reading

/-!
Reading undoes writing. The bytes of an instruction are taken for that instruction (`Instr.takes_encode`), except that
the action of an empty range of threads is not written and reads as zero.
-/
namespace Framescript

open Reader

namespace Bytes

/-- What holds of every number below 256 holds of every byte. -/
theorem forall_byte {p : UInt8 → Prop} (all : ∀ n < 256, p (UInt8.ofNat n)) (b : UInt8) : p b := by
  have here := all b.toNat b.toNat_lt
  rwa [UInt8.ofNat_toNat] at here

theorem toNat_wordOf (high low : UInt8) : (wordOf high low).toNat = high.toNat * 256 + low.toNat := by
  have below : high.toNat <<< 8 < 65536 := by
    have := high.toNat_lt
    rw [Nat.shiftLeft_eq]
    omega
  rw [wordOf, UInt16.toNat_or, UInt16.toNat_shiftLeft, UInt8.toNat_toUInt16, UInt8.toNat_toUInt16]
  show high.toNat <<< 8 % 65536 ||| low.toNat = _
  rw [Nat.mod_eq_of_lt below, ← Nat.shiftLeft_add_eq_or_of_lt low.toNat_lt, Nat.shiftLeft_eq]

theorem toNat_high (w : UInt16) : (w >>> 8).toUInt8.toNat = w.toNat / 256 := by
  have := w.toNat_lt
  rw [UInt16.toNat_toUInt8, UInt16.toNat_shiftRight]
  show w.toNat >>> 8 % 256 = _
  rw [Nat.shiftRight_eq_div_pow]
  omega

theorem toNat_low (w : UInt16) : w.toUInt8.toNat = w.toNat % 256 :=
  w.toNat_toUInt8

@[simp] theorem wordOf_parts (w : UInt16) : wordOf (w >>> 8).toUInt8 w.toUInt8 = w := by
  apply UInt16.toNat_inj.mp
  rw [toNat_wordOf, toNat_high, toNat_low]
  omega

end Bytes

theorem Zoom.flags_bits (opcode : UInt8) : opcode &&& 0x03 =
    if opcode &&& 0x02 = 0 then (if opcode &&& 0x01 = 0 then 0x00 else 0x01)
    else if opcode &&& 0x01 = 0 then 0x02 else 0x03 := by
  revert opcode
  exact Bytes.forall_byte (by decide +kernel)

theorem takes_bigWord (value : UInt16) : Takes Script.word (Bytes.bigWord value) value := by
  have takes := takes_word (value >>> 8).toUInt8 value.toUInt8
  rwa [Bytes.wordOf_parts] at takes

theorem CoordinateRead.takes_bigWord (how : CoordinateRead) (value : UInt16) :
    Takes how.read (Bytes.bigWord value) value := by
  have takes := how.takes_read (value >>> 8).toUInt8 value.toUInt8
  rwa [Bytes.wordOf_parts] at takes

/-- A value that is made of what is read takes no more bytes. -/
theorem Reader.Takes.map {α β : Type} {read : Reader α} {bytes : Bytes} {value : α} (takes : Takes read bytes value)
    (make : α → β) : Takes (read.andThen fun value => give (make value)) bytes (make value) := by
  have made : Takes (read.andThen fun value => give (make value)) (bytes ++ []) (make value) :=
    takes.andThen (takes_give (make value))
  rwa [List.append_nil] at made

/-! ### Operands -/

/-- Whether a comparison has a meaning. -/
def Comparison.isKnown : Comparison → Bool
  | .unknown _ => false
  | _ => true

/-- The condition byte says what it was made of. -/
theorem Comparison.ofCode_flags {c : Comparison} (known : c.isKnown = true) (comparand : Comparand) :
    ofCode (comparand.flags ||| c.code) = c := by
  cases c with
  | unknown code => cases known
  | _ => cases comparand <;> (rw [Comparand.flags]; decide)

theorem Comparand.takes_encode (comparand : Comparand) {c : Comparison} (known : c.isKnown = true) :
    Takes (Comparand.read (comparand.flags ||| c.code)) comparand.encode comparand := by
  have bits : (comparand.flags ||| c.code) &&& 0x80 = comparand.flags &&& 0x80 ∧
      (comparand.flags ||| c.code) &&& 0x40 = comparand.flags &&& 0x40 := by
    cases c with
    | unknown code => cases known
    | _ => cases comparand <;> (rw [flags]; decide)
  rw [Comparand.read_eq, bits.1, bits.2]
  cases comparand with
  | var index =>
    rw [flags, if_pos (by decide)]
    exact (takes_byte index).map _
  | byte value =>
    rw [flags, if_neg (by decide), if_neg (by decide)]
    exact (takes_byte value).map _
  | word value =>
    rw [flags, if_neg (by decide), if_pos (by decide)]
    exact (takes_bigWord value).map _

theorem Condition.takes_encode {c : Condition} (known : c.comparison.isKnown = true) :
    Takes Condition.read c.encode c := by
  have target : Takes (andThen Script.word fun target =>
      give (⟨.ofCode (c.comparand.flags ||| c.comparison.code), c.var, c.comparand, target⟩ : Condition))
      (Bytes.bigWord c.target) c := by
    rw [Comparison.ofCode_flags known]
    exact (takes_bigWord c.target).map _
  -- The reader takes the form of the comparand from the same byte from which it takes the comparison.
  rw [Condition.read_eq, Condition.encode]
  exact (takes_byte _).andThen ((takes_byte c.var).andThen ((Comparand.takes_encode _ known).andThen target))

/-- A range as it is read: without an action if it has no thread. -/
def ThreadRange.kept (r : ThreadRange) : ThreadRange :=
  if ThreadRange.isEmpty r.first r.last then { r with action := 0 } else r

theorem ThreadRange.takes_encode (r : ThreadRange) : Takes ThreadRange.read r.encode r.kept := by
  rw [ThreadRange.read_eq, encode, kept]
  -- Whether an action follows is settled by the first two bytes, for the writer and for the reader.
  have behind (bytes : Bytes) (value : ThreadRange)
      (takes : Takes (if ThreadRange.isEmpty r.first r.last then give ⟨r.first, r.last, 0⟩
        else andThen Script.byte fun action => give ⟨r.first, r.last, action⟩) bytes value) :
      Takes (andThen Script.byte fun first => andThen Script.byte fun last =>
        if ThreadRange.isEmpty first last then give ⟨first, last, 0⟩
        else andThen Script.byte fun action => give ⟨first, last, action⟩) (r.first :: r.last :: bytes) value :=
    (takes_byte r.first).andThen ((takes_byte r.last).andThen takes)
  by_cases empty : ThreadRange.isEmpty r.first r.last = true
  · rw [if_pos empty, if_pos empty]
    refine behind [] _ ?_
    rw [if_pos empty]
    exact takes_give _
  · rw [if_neg empty, if_neg empty]
    refine behind [r.action] _ ?_
    rw [if_neg empty]
    exact (takes_byte r.action).map _

/-- Whether an operand can be written and read back. -/
def OperandKind.Encodable : (kind : OperandKind) → kind.Value → Prop
  | .condition, (c : Condition) => c.comparison.isKnown = true
  | _, _ => True

/-- An operand as it is read. -/
def OperandKind.kept : (kind : OperandKind) → kind.Value → kind.Value
  | .range, (r : ThreadRange) => r.kept
  | _, value => value

theorem OperandKind.takes_encode {kind : OperandKind} {value : kind.Value} (encodable : kind.Encodable value) :
    Takes kind.read (kind.encode value) (kind.kept value) := by
  cases kind with
  | var => exact takes_byte value
  | byte => exact takes_byte value
  | word => exact takes_bigWord value
  | address => exact takes_bigWord value
  | condition => exact Condition.takes_encode encodable
  | range => exact ThreadRange.takes_encode value

/-- Whether operands can be written and read back. -/
def Operands.Encodable : (kinds : List OperandKind) → Operands kinds → Prop
  | [], _ => True
  | kind :: kinds, (value, values) => kind.Encodable value ∧ Operands.Encodable kinds values

/-- Operands as they are read. -/
def Operands.kept : (kinds : List OperandKind) → Operands kinds → Operands kinds
  | [], _ => ()
  | kind :: kinds, (value, values) => (kind.kept value, Operands.kept kinds values)

theorem Operands.takes_encode {kinds : List OperandKind} {values : Operands kinds}
    (encodable : Operands.Encodable kinds values) :
    Takes (Operands.read kinds) (Operands.encode kinds values) (Operands.kept kinds values) := by
  induction kinds with
  | nil => exact takes_give ()
  | cons kind kinds ih =>
    obtain ⟨value, values⟩ := values
    rw [Operands.read_cons]
    exact (OperandKind.takes_encode encodable.1).andThen ((ih encodable.2).map _)

/-! ### Sprites -/

/-- The opcode of a sprite. -/
def Instr.spriteOpcode (x : Horizontal) (y : Vertical) (zoom : Zoom) : UInt8 :=
  spriteBit ||| x.flags ||| y.flags ||| zoom.flags

section sprites

variable (how : CoordinateRead) (x : Horizontal) (y : Vertical) (zoom : Zoom)

/-- Each bit of a sprite's opcode is the one that its place or its scale has there. -/
theorem Instr.spriteOpcode_bits : let opcode := spriteOpcode x y zoom
    (opcode &&& 0x80 = 0 ∧ opcode &&& 0x40 ≠ 0) ∧
    (opcode &&& 0x20 = x.flags &&& 0x20 ∧ opcode &&& 0x10 = x.flags &&& 0x10) ∧
    (opcode &&& 0x08 = y.flags &&& 0x08 ∧ opcode &&& 0x04 = y.flags &&& 0x04) ∧
    opcode &&& 0x02 = zoom.flags &&& 0x02 ∧ opcode &&& 0x01 = zoom.flags &&& 0x01 := by
  cases x <;> cases y <;> cases zoom <;> (rw [spriteOpcode, Horizontal.flags, Vertical.flags, Zoom.flags]; decide)

theorem Horizontal.takes_encode :
    Takes (Horizontal.read how (Instr.spriteOpcode x y zoom)) x.encode x := by
  obtain ⟨_, ⟨high, low⟩, _⟩ := Instr.spriteOpcode_bits x y zoom
  rw [Horizontal.read_eq, high, low]
  cases x with
  | word value => simpa +decide [flags, encode] using (how.takes_bigWord value).map Horizontal.word
  | var index => simpa +decide [flags, encode] using (takes_byte index).map Horizontal.var
  | byte value => simpa +decide [flags, encode] using (takes_byte value).map Horizontal.byte
  | beyond value => simpa +decide [flags, encode] using (takes_byte value).map Horizontal.beyond

theorem Vertical.takes_encode : Takes (Vertical.read how (Instr.spriteOpcode x y zoom)) y.encode y := by
  obtain ⟨_, _, ⟨high, low⟩, _⟩ := Instr.spriteOpcode_bits x y zoom
  rw [Vertical.read_eq, high, low]
  cases y with
  | word value => simpa +decide [flags, encode] using (how.takes_bigWord value).map Vertical.word
  | var index => simpa +decide [flags, encode] using (takes_byte index).map Vertical.var
  | byte value => simpa +decide [flags, encode] using (takes_byte value).map Vertical.byte

theorem Zoom.takes_encode : Takes (Zoom.read (Instr.spriteOpcode x y zoom)) zoom.encode zoom := by
  obtain ⟨_, _, _, high, low⟩ := Instr.spriteOpcode_bits x y zoom
  rw [Zoom.read_eq, high, low]
  cases zoom with
  | normal => exact takes_give _
  | var index => simpa +decide [flags, encode] using (takes_byte index).map Zoom.var
  | byte value => simpa +decide [flags, encode] using (takes_byte value).map Zoom.byte
  | alternate => exact takes_give _

end sprites

/-! ### Instructions -/

theorem Lead.ofByte?_toByte (op : Opcode) : Lead.ofByte? op.toByte = some (.table op) := by
  cases op <;> decide

theorem Lead.ofByte?_spriteOpcode (x : Horizontal) (y : Vertical) (zoom : Zoom) :
    Lead.ofByte? (Instr.spriteOpcode x y zoom) = some .sprite := by
  obtain ⟨⟨top, next⟩, _⟩ := Instr.spriteOpcode_bits x y zoom
  simp only [Lead.ofByte?, Instr.backgroundBit, Instr.spriteBit, top, next, ne_eq, not_true_eq_false, if_false,
    not_false_eq_true, if_true]

/-- The bit of a background is on top of the high byte of its offset, and hides nothing of it. -/
theorem Instr.backgroundBit_or {b : UInt8} (small : b.toNat < 128) :
    (backgroundBit ||| b) &&& backgroundBit ≠ 0 ∧ (backgroundBit ||| b) &&& 0x7F = b := by
  constructor
  · intro hidden
    have none : (128 ||| b.toNat) &&& 128 = 0 := congrArg UInt8.toNat hidden
    rw [Nat.and_or_distrib_right] at none
    simp at none
  · apply UInt8.toNat_inj.mp
    show (128 ||| b.toNat) &&& 127 = b.toNat
    rw [Nat.and_or_distrib_right]
    have whole : b.toNat &&& 127 = b.toNat % 128 := Nat.and_two_pow_sub_one_eq_mod b.toNat 7
    rw [whole, Nat.mod_eq_of_lt small]
    simp

/-- Whether an instruction can be written and read back. -/
def Instr.Encodable : Instr → Prop
  | .table op operands => Operands.Encodable op.operands operands
  | .background halved _ _ => halved < 0x8000
  | .sprite .. => True

/-- An instruction as it is read. -/
def Instr.kept : Instr → Instr
  | .table op operands => .table op (Operands.kept op.operands operands)
  | instr => instr

/-- The bytes of an instruction are taken for it. -/
theorem Instr.takes_encode {instr : Instr} (encodable : instr.Encodable) (how : CoordinateRead) :
    Takes (Instr.read how) instr.encode instr.kept := by
  cases instr with
  | table op operands =>
    refine takes_read (Lead.ofByte?_toByte op) ?_
    rw [readAfter_table]
    exact (Operands.takes_encode encodable).map (Instr.table op)
  | background halved x y =>
    have small : (halved >>> 8).toUInt8.toNat < 128 := by
      have : halved.toNat < 0x8000 := UInt16.lt_iff_toNat_lt.mp encodable
      rw [Bytes.toNat_high]
      omega
    obtain ⟨marked, low⟩ := backgroundBit_or small
    have meaning : Lead.ofByte? (backgroundBit ||| (halved >>> 8).toUInt8) = some .background := by
      rw [Lead.ofByte?, if_pos marked]
    refine takes_read meaning ?_
    rw [readAfter_background, low]
    have last : Takes (andThen Script.byte fun y =>
        give (Instr.background (Bytes.wordOf (halved >>> 8).toUInt8 halved.toUInt8) x y)) [y]
        (.background halved x y) := by
      rw [Bytes.wordOf_parts]
      exact (takes_byte y).map _
    exact (takes_byte halved.toUInt8).andThen ((takes_byte x).andThen last)
  | sprite halved x y zoom =>
    refine takes_read (Lead.ofByte?_spriteOpcode x y zoom) ?_
    have inOrder : Bytes.bigWord halved ++ x.encode ++ y.encode ++ zoom.encode =
        Bytes.bigWord halved ++ (x.encode ++ (y.encode ++ zoom.encode)) := by
      rw [List.append_assoc, List.append_assoc]
    show Takes _ (Bytes.bigWord halved ++ x.encode ++ y.encode ++ zoom.encode) _
    rw [readAfter_sprite, inOrder]
    exact (takes_bigWord halved).andThen ((Horizontal.takes_encode how x y zoom).andThen
      ((Vertical.takes_encode how x y zoom).andThen ((Zoom.takes_encode x y zoom).map (Instr.sprite halved x y))))

end Framescript
