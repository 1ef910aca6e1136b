import Framescript.Proofs.Transfers

/-!
Arrays and their elements. A walk over an array comes to what a walk comes to that has each element as an integer of its
own (`Walker.walk_singles`), and that also where bytes that are stored as bytes are copied as one block
(`Walker.byteBlock_eq_elements`).
-/
namespace Framescript

namespace Walker

variable {w : Walker}

/-- What an access by access transfer of entries that have room and pass the check comes to, the walk comes to. -/
theorem walk_of_transferred {entries new : List Entry} {after : Walker}
    (room : w.hasRoom (Entry.measure w.version entries) = true)
    (checked : checkPositions w.base (Entry.participants w.version entries) = .ok ())
    (transferred : w.transferAll entries = some (after, new, .ok ())) :
    w.walk entries = ⟨after, new, .ok (), w.report (after.cursor - w.cursor)⟩ := by
  have walked := w.piecewise_eq entries
  simp only [piecewise, room, checked, ite_self, if_true, transferred, Option.map_some] at walked
  exact (Option.some.inj walked).symm

/-- The elements of an array, each as an entry of its own. -/
def singles (kind : ScalarKind) (width : Width) (versions : VersionRange) (values : List kind.Value) : List Entry :=
  values.map fun value => .int kind value width versions

section elements

variable {kind : ScalarKind} {width : Width} {versions : VersionRange} {values : List kind.Value}

theorem singles_cons (value : kind.Value) : singles kind width versions (value :: values) =
    .int kind value width versions :: singles kind width versions values :=
  rfl

theorem participants_singles {version : UInt16} (applies : versions.contains version = true) :
    Entry.participants version (singles kind width versions values) = singles kind width versions values := by
  induction values with
  | nil => rfl
  | cons value values ih =>
    have takesPart : Entry.appliesTo version (.int kind value width versions) = true := applies
    rw [singles_cons, Entry.participants_cons rfl, if_pos takesPart, ih]

theorem measure_singles {version : UInt16} (applies : versions.contains version = true) :
    Entry.measure version (singles kind width versions values) = values.length * width.bytes := by
  induction values with
  | nil => exact (Nat.zero_mul _).symm
  | cons value values ih =>
    have takesPart : Entry.appliesTo version (.int kind value width versions) = true := applies
    rw [singles_cons, Entry.measure_cons rfl, if_pos takesPart, ih, List.length_cons, Nat.add_one_mul, Nat.add_comm]
    rfl

theorem checkPositions_singles (base : UInt64) : checkPositions base (singles kind width versions values) = .ok () := by
  induction values with
  | nil => rfl
  | cons value values ih => exact ih

/-- An integer is transferred as an element of an array is. -/
theorem transfer_single (value : kind.Value) :
    w.transfer (.int kind value width versions) =
      (w.access (Cells.storeElement kind width value)).map fun (after, found) =>
        (after, .ok (.int kind (found.elim value fun piece => kind.ofBits (Bytes.ofLittle piece)) width versions)) := by
  simp only [transfer, checkPositions, ite_self, store]
  by_cases room : w.hasRoom (Cells.storeElement kind width value).length = true
  · rw [access_of_room room, Cells.length_storeElement]
    cases w.ahead? with
    | none => rfl
    | some bytes => simp only [Option.map_some, Option.elim_some, load, List.take_take, Nat.min_self]
  · rw [access, if_neg room]
    rfl

theorem transferAll_singles (applies : versions.contains w.version = true) :
    w.transferAll (singles kind width versions values) =
      (transferElements kind width w values).map fun (after, fields) =>
        (after, singles kind width versions fields, .ok ()) := by
  induction values generalizing w with
  | nil => rfl
  | cons value values ih =>
    have takesPart : Entry.appliesTo w.version (.int kind value width versions) = true := applies
    have rest := ih (w := w.put (Cells.storeElement kind width value)) applies
    rw [singles_cons, transferElements, transferAll, transfer_single]
    simp only [Entry.isStop, takesPart, Bool.false_eq_true, if_false, if_true]
    by_cases room : w.hasRoom (Cells.storeElement kind width value).length = true
    · simp only [access_of_room room, Option.map_some, rest, Option.map_map]
      rfl
    · simp only [access, if_neg room, Option.map_none]

/-- Integers that are walked one by one come to what the elements of an array come to. -/
theorem walk_singles (applies : versions.contains w.version = true)
    (room : w.hasRoom (values.length * width.bytes) = true) {after : Walker} {fields : List kind.Value}
    (transferred : transferElements kind width w values = some (after, fields)) :
    w.walk (singles kind width versions values) =
      ⟨after, singles kind width versions fields, .ok (), w.report (after.cursor - w.cursor)⟩ := by
  refine walk_of_transferred ?_ ?_ ?_
  · rw [measure_singles applies]
    exact room
  · rw [participants_singles applies]
    exact checkPositions_singles w.base
  · rw [transferAll_singles applies, transferred]
    rfl

theorem walk_array {cells fields : Cells} (applies : versions.contains w.version = true)
    (room : w.hasRoom (cells.values.length * width.bytes) = true) {after : Walker}
    (transferred : w.transferCells cells width = some (after, fields)) :
    w.walk [.array cells width versions] =
      ⟨after, [.array fields width versions], .ok (), w.report (after.cursor - w.cursor)⟩ := by
  have takesPart : Entry.appliesTo w.version (.array cells width versions) = true := applies
  have here : w.transfer (.array cells width versions) = some (after, .ok (.array fields width versions)) := by
    rw [transfer, transferred]
    rfl
  refine walk_of_transferred ?_ ?_ (transferAll_of_transferred takesPart here rfl)
  · rw [Entry.measure_cons rfl, if_pos takesPart]
    exact room
  · rw [Entry.participants_cons rfl, if_pos takesPart]
    rfl

end elements

theorem length_ahead {count : Nat} {bytes : Bytes} (room : w.hasRoom count = true) (ahead : w.ahead? = some bytes) :
    count ≤ bytes.length := by
  obtain ⟨buffer, version, base, cursor⟩ := w
  cases buffer with
  | load whole =>
    cases ahead
    have fits : cursor + count ≤ whole.length := hasRoom_iff.mp room _ rfl
    show count ≤ (whole.drop cursor).length
    rw [List.length_drop]
    omega
  | _ => cases ahead

/-- Bytes that are transferred one by one as bytes are written, or read, as they are. -/
theorem transferElements_bytes {values : List UInt8} (room : w.hasRoom values.length = true) :
    transferElements .u8 .byte w values = some (w.put values, w.ahead?.elim values (·.take values.length)) := by
  have copied (bytes : List UInt8) : Cells.storeElements ⟨.u8, bytes⟩ .byte = bytes :=
    (Cells.store_eq_storeElements ⟨.u8, bytes⟩ .byte).symm
  have size : values.length * Width.byte.bytes = values.length := Nat.mul_one values.length
  have elements : transferElements .u8 .byte w values = some (w.put (Cells.storeElements ⟨.u8, values⟩ .byte), _) :=
    transferElements_eq .u8 .byte (size.symm ▸ room)
  rw [elements, copied]
  cases ahead : w.ahead? with
  | none => rfl
  | some bytes =>
    have enough : values.length * Width.byte.bytes ≤ bytes.length := size.symm ▸ length_ahead room ahead
    have loaded := Cells.storeElements_loadElements .u8 .byte (by decide) values bytes enough
    have read : Cells.loadElements .u8 .byte values bytes = bytes.take values.length :=
      (copied _).symm.trans (loaded.trans (congrArg (List.take · bytes) size))
    exact congrArg (fun fields => some (w.put values, fields)) read

/-- The copy of bytes as a block agrees with the transfer of one byte after the other. With room for all of them, whether
    they are counted, saved or loaded, both leave the same buffer, cursor and field; and that is what a walk leaves that
    has the bytes as one array, and what a walk leaves that has each of them as an integer of its own. -/
theorem byteBlock_eq_elements (w : Walker) (values : List UInt8) (room : w.hasRoom values.length = true) :
    let after := w.put values
    let fields := w.ahead?.elim values (·.take values.length)
    w.transferCells ⟨.u8, values⟩ .byte = some (after, ⟨.u8, fields⟩) ∧
      transferElements .u8 .byte w values = some (after, fields) ∧
      ∀ versions : VersionRange, versions.contains w.version = true →
        w.walk [.array ⟨.u8, values⟩ .byte versions] =
          ⟨after, [.array ⟨.u8, fields⟩ .byte versions], .ok (), w.report values.length⟩ ∧
        w.walk (values.map fun value => .int .u8 value .byte versions) =
          ⟨after, fields.map fun value => .int .u8 value .byte versions, .ok (), w.report values.length⟩ := by
  intro after fields
  have size : values.length * Width.byte.bytes = values.length := Nat.mul_one values.length
  have moved : after.cursor - w.cursor = values.length := Nat.add_sub_cancel_left w.cursor values.length
  have block : w.transferCells ⟨.u8, values⟩ .byte = some (after, ⟨.u8, fields⟩) := by
    show Option.map _ (w.access values) = _
    rw [access_of_room room]
    cases ahead : w.ahead? <;> simp only [fields, ahead] <;> rfl
  have elements : transferElements .u8 .byte w values = some (after, fields) := transferElements_bytes room
  refine ⟨block, elements, fun versions applies => ?_⟩
  rw [← moved]
  exact ⟨walk_array applies (size.symm ▸ room) block, walk_singles applies (size.symm ▸ room) elements⟩

/-- Three bytes saved into the middle of a buffer, and three loaded from its very end. -/
theorem byteBlock_eq_elements_middle :
    let values : List UInt8 := [1, 200, 3]
    let saver : Walker := ⟨.save [9, 9, 9, 9, 9], 1, 0, 1⟩
    let loader : Walker := ⟨.load [9, 8, 7, 255], 1, 0, 1⟩
    (saver.hasRoom values.length = true ∧ VersionRange.contains (.since 1) saver.version = true ∧
      saver.transferCells ⟨.u8, values⟩ .byte = some (⟨.save [9, 1, 200, 3, 9], 1, 0, 4⟩, ⟨.u8, values⟩) ∧
      transferElements .u8 .byte saver values = some (⟨.save [9, 1, 200, 3, 9], 1, 0, 4⟩, values) ∧
      (saver.walk [.array ⟨.u8, values⟩ .byte (.since 1)]).walker =
        (saver.walk (values.map fun value => .int .u8 value .byte (.since 1))).walker) ∧
    (loader.hasRoom values.length = true ∧ VersionRange.contains (.since 1) loader.version = true ∧
      loader.transferCells ⟨.u8, values⟩ .byte =
        some (⟨.load [9, 8, 7, 255], 1, 0, 4⟩, ⟨.u8, ([8, 7, 255] : List UInt8)⟩) ∧
      transferElements .u8 .byte loader values =
        some (⟨.load [9, 8, 7, 255], 1, 0, 4⟩, ([8, 7, 255] : List UInt8)) ∧
      (loader.walk [.array ⟨.u8, values⟩ .byte (.since 1)]).walker =
        (loader.walk (values.map fun value => .int .u8 value .byte (.since 1))).walker) := by
  intro values saver loader
  have saverRoom : saver.hasRoom values.length = true := by decide
  have loaderRoom : loader.hasRoom values.length = true := by decide
  have now : VersionRange.contains (.since 1) 1 = true := by decide
  obtain ⟨block, elements, walks⟩ := byteBlock_eq_elements saver values saverRoom
  obtain ⟨block', elements', walks'⟩ := byteBlock_eq_elements loader values loaderRoom
  refine ⟨⟨saverRoom, now, block, elements, ?_⟩, loaderRoom, now, block', elements', ?_⟩
  · rw [(walks _ now).1, (walks _ now).2]
  · rw [(walks' _ now).1, (walks' _ now).2]

end Walker

end Framescript
