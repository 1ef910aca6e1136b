import Framescript.Snapshot.Entry

/-!
The stored bytes of integers and of arrays of integers. An element that is stored with at least its
own width comes back as it was (`load_storeElements`), and bytes that are loaded into elements of at
least the stored width are stored again as they were (`storeElements_loadElements`). The direct copy
of bytes is the same as storing them one by one.
-/
namespace Framescript

namespace Bytes

/-- The number of byte strings of a given length. -/
def capacity : Nat → Nat
  | 0 => 1
  | width + 1 => 256 * capacity width

theorem capacity_pos (width : Nat) : 0 < capacity width := by
  induction width with
  | zero => exact Nat.one_pos
  | succ width ih => exact Nat.mul_pos (by decide) ih

theorem capacity_dvd {narrow wide : Nat} (le : narrow ≤ wide) : capacity narrow ∣ capacity wide := by
  induction le with
  | refl => exact Nat.dvd_refl _
  | step _ ih => exact Nat.dvd_mul_left_of_dvd ih 256

theorem ofLittle_little (width n : Nat) : ofLittle (little width n) = n % capacity width := by
  induction width generalizing n with
  | zero => simp [little, ofLittle, capacity, Nat.mod_one]
  | succ width ih => rw [little, ofLittle, ih, UInt8.toNat_ofNat', capacity, Nat.mod_mul]

theorem ofLittle_lt (bytes : Bytes) : ofLittle bytes < capacity bytes.length := by
  have reduced := ofLittle_little bytes.length (ofLittle bytes)
  rw [little_ofLittle] at reduced
  rw [reduced]
  exact Nat.mod_lt _ (capacity_pos _)

theorem ofLittle_take_lt (width : Nat) (bytes : Bytes) : ofLittle (bytes.take width) < capacity width := by
  have short : (bytes.take width).length ≤ width := List.length_take_le width bytes
  exact Nat.lt_of_lt_of_le (ofLittle_lt _) (Nat.le_of_dvd (capacity_pos width) (capacity_dvd short))

end Bytes

namespace ScalarKind

/-- The bytes that a value takes when nothing of it is cut off. -/
def bytes : ScalarKind → Nat
  | .u8 | .i8 => 1
  | .u16 | .i16 => 2
  | .u32 | .i32 => 4

theorem bits_lt (kind : ScalarKind) (value : kind.Value) : kind.bits value < Bytes.capacity kind.bytes := by
  cases kind with
  | u8 => exact UInt8.toNat_lt value
  | i8 => exact UInt8.toNat_lt (Int8.toUInt8 value)
  | u16 => exact UInt16.toNat_lt value
  | i16 => exact UInt16.toNat_lt (Int16.toUInt16 value)
  | u32 => exact UInt32.toNat_lt value
  | i32 => exact UInt32.toNat_lt (Int32.toUInt32 value)

theorem ofBits_bits (kind : ScalarKind) (value : kind.Value) : kind.ofBits (kind.bits value) = value := by
  cases kind with
  | u8 => exact UInt8.ofNat_toNat
  | i8 => simp only [ofBits, bits, UInt8.ofNat_toNat]; exact Int8.toInt8_toUInt8 value
  | u16 => exact UInt16.ofNat_toNat
  | i16 => simp only [ofBits, bits, UInt16.ofNat_toNat]; exact Int16.toInt16_toUInt16 value
  | u32 => exact UInt32.ofNat_toNat
  | i32 => simp only [ofBits, bits, UInt32.ofNat_toNat]; exact Int32.toInt32_toUInt32 value

theorem bits_ofBits (kind : ScalarKind) (n : Nat) : kind.bits (kind.ofBits n) = n % Bytes.capacity kind.bytes := by
  cases kind <;> simp [bits, ofBits, bytes, Bytes.capacity]

/-- A stored width of at least the value's own cuts nothing off. -/
theorem ofBits_bits_mod (kind : ScalarKind) {width : Nat} (wide : kind.bytes ≤ width) (value : kind.Value) :
    kind.ofBits (kind.bits value % Bytes.capacity width) = value := by
  have room : Bytes.capacity kind.bytes ≤ Bytes.capacity width :=
    Nat.le_of_dvd (Bytes.capacity_pos width) (Bytes.capacity_dvd wide)
  rw [Nat.mod_eq_of_lt (Nat.lt_of_lt_of_le (kind.bits_lt value) room), ofBits_bits]

end ScalarKind

namespace Cells

/-- Two fields with as many elements of the same integer type. -/
def SameShape (old new : Cells) : Prop :=
  old.kind = new.kind ∧ old.values.length = new.values.length

theorem length_storeElement (kind : ScalarKind) (width : Width) (value : kind.Value) :
    (storeElement kind width value).length = width.bytes :=
  Bytes.length_little width.bytes _

theorem length_loadElements (kind : ScalarKind) (width : Width) (shape : List kind.Value) (bytes : Bytes) :
    (loadElements kind width shape bytes).length = shape.length := by
  induction shape generalizing bytes with
  | nil => rfl
  | cons _ shape ih => simp [loadElements, ih]

theorem length_storeElements (cells : Cells) (width : Width) :
    (cells.storeElements width).length = cells.values.length * width.bytes := by
  obtain ⟨kind, values⟩ := cells
  induction values with
  | nil => simp [storeElements]
  | cons value values ih =>
    have front : storeElements ⟨kind, value :: values⟩ width =
        storeElement kind width value ++ storeElements ⟨kind, values⟩ width := List.flatMap_cons
    rw [front, List.length_append, length_storeElement, ih, List.length_cons, Nat.add_one_mul, Nat.add_comm]

/-- Every element comes back with the bits that its stored width holds. -/
theorem loadElements_storeElements (kind : ScalarKind) (width : Width) (shape values : List kind.Value) (rest : Bytes)
    (same : shape.length = values.length) :
    loadElements kind width shape (storeElements ⟨kind, values⟩ width ++ rest) =
      values.map fun value => kind.ofBits (kind.bits value % Bytes.capacity width.bytes) := by
  induction values generalizing shape with
  | nil =>
    rw [List.length_eq_zero_iff.mp same]
    rfl
  | cons value values ih =>
    obtain ⟨old, shape, rfl⟩ := List.exists_cons_of_length_eq_add_one same
    have front : storeElements ⟨kind, value :: values⟩ width ++ rest =
        storeElement kind width value ++ (storeElements ⟨kind, values⟩ width ++ rest) := by
      simp [storeElements]
    have size := length_storeElement kind width value
    rw [front, loadElements, List.take_left' size, List.drop_left' size, ih shape (by simpa using same)]
    simp [storeElement, Bytes.ofLittle_little]

/-- An element of at least the stored width keeps all bytes that are loaded into it. -/
theorem storeElement_ofBits {kind : ScalarKind} {width : Width} (narrow : width.bytes ≤ kind.bytes) (bytes : Bytes)
    (full : bytes.length = width.bytes) : storeElement kind width (kind.ofBits (Bytes.ofLittle bytes)) = bytes := by
  have divides : Bytes.capacity width.bytes ∣ Bytes.capacity kind.bytes := Bytes.capacity_dvd narrow
  have fits : Bytes.ofLittle bytes % Bytes.capacity width.bytes = Bytes.ofLittle bytes := by
    rw [← full, ← Bytes.ofLittle_little, Bytes.little_ofLittle]
  have cut (n : Nat) : Bytes.little width.bytes n = Bytes.little width.bytes (n % Bytes.capacity width.bytes) := by
    have back := Bytes.little_ofLittle (Bytes.little width.bytes n)
    rw [Bytes.length_little, Bytes.ofLittle_little] at back
    exact back.symm
  rw [storeElement, ScalarKind.bits_ofBits, cut, Nat.mod_mod_of_dvd _ divides, fits, ← full]
  exact Bytes.little_ofLittle bytes

/-- Bytes that are loaded into elements of at least the stored width are stored again as they were. -/
theorem storeElements_loadElements (kind : ScalarKind) (width : Width) (narrow : width.bytes ≤ kind.bytes)
    (shape : List kind.Value) (bytes : Bytes) (enough : shape.length * width.bytes ≤ bytes.length) :
    storeElements ⟨kind, loadElements kind width shape bytes⟩ width = bytes.take (shape.length * width.bytes) := by
  induction shape generalizing bytes with
  | nil => simp [loadElements, storeElements]
  | cons old shape ih =>
    rw [List.length_cons, Nat.add_one_mul] at enough ⊢
    have full : (bytes.take width.bytes).length = width.bytes := by rw [List.length_take]; omega
    have rest := ih (bytes.drop width.bytes) (by rw [List.length_drop]; omega)
    have split : storeElements ⟨kind, loadElements kind width (old :: shape) bytes⟩ width =
        storeElement kind width (kind.ofBits (Bytes.ofLittle (bytes.take width.bytes))) ++
          storeElements ⟨kind, loadElements kind width shape (bytes.drop width.bytes)⟩ width := by
      simp [storeElements, loadElements]
    rw [split, storeElement_ofBits narrow _ full, rest, Nat.add_comm, List.take_add]

/-- Every byte string is the stored form of as many elements as it has room for. -/
theorem exists_elements (kind : ScalarKind) (width : Width) (count : Nat) (narrow : width.bytes ≤ kind.bytes)
    {bytes : Bytes} (full : bytes.length = count * width.bytes) :
    ∃ values : List kind.Value, values.length = count ∧ storeElements ⟨kind, values⟩ width = bytes := by
  let shape := List.replicate count (kind.ofBits 0)
  have size : shape.length = count := List.length_replicate
  have stored := storeElements_loadElements kind width narrow shape bytes (Nat.le_of_eq (by rw [size, full]))
  rw [size, ← full, List.take_length] at stored
  exact ⟨loadElements kind width shape bytes, (length_loadElements kind width shape bytes).trans size, stored⟩

theorem storeElement_byte (value : UInt8) : storeElement .u8 .byte value = [value] := by
  simp [storeElement, Width.bytes, ScalarKind.bits, Bytes.little]

/-- Copying bytes as they are is storing them one by one. -/
theorem store_eq_storeElements (cells : Cells) (width : Width) : cells.store width = cells.storeElements width := by
  obtain ⟨kind, values⟩ := cells
  cases kind with
  | u8 =>
    cases width with
    | byte =>
      have single : storeElement .u8 .byte = fun value : UInt8 => [value] := funext storeElement_byte
      rw [storeElements, single]
      exact (List.flatMap_singleton' values).symm
    | word => rfl
    | long => rfl
  | _ => rfl

/-- Copying bytes back is loading them one by one, where there are enough of them. -/
theorem load_eq_loadElements (kind : ScalarKind) (values : List kind.Value) (width : Width) (bytes : Bytes)
    (enough : values.length * width.bytes ≤ bytes.length) :
    load ⟨kind, values⟩ width bytes = ⟨kind, loadElements kind width values bytes⟩ := by
  cases kind with
  | u8 =>
    cases width with
    | byte =>
      have loaded := storeElements_loadElements .u8 .byte (by decide) values bytes enough
      rw [← store_eq_storeElements, Width.bytes, Nat.mul_one] at loaded
      exact congrArg (Cells.mk .u8) loaded.symm
    | word => rfl
    | long => rfl
  | _ => rfl

/-- A field that is stored with at least its own width is loaded as it was. -/
theorem load_storeElements {old new : Cells} {width : Width} (shape : SameShape old new)
    (wide : new.kind.bytes ≤ width.bytes) (rest : Bytes) : old.load width (new.storeElements width ++ rest) = new := by
  obtain ⟨kind, old⟩ := old
  obtain ⟨newKind, new⟩ := new
  obtain ⟨sameKind, sameLength⟩ := shape
  cases sameKind
  have enough : old.length * width.bytes ≤ (storeElements ⟨kind, new⟩ width ++ rest).length := by
    rw [List.length_append, length_storeElements, ← sameLength]
    exact Nat.le_add_right _ _
  rw [load_eq_loadElements kind old width _ enough, loadElements_storeElements kind width old new rest sameLength]
  exact congrArg (Cells.mk kind)
    ((List.map_congr_left fun value _ => kind.ofBits_bits_mod wide value).trans (List.map_id new))

end Cells

end Framescript
