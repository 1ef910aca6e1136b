import Framescript.Proofs.StoredCells
import Framescript.Snapshot.Walker
import Mathlib.Algebra.Group.Nat.Defs
import Mathlib.Data.List.Forall2

/-!
Walks over entries of any kind. A save writes the stored bytes of the entries that take part, one after the other, and
a load over entries of the same shape reads them back entry by entry (`loadEntries_restores`). So a load of what was
saved gives each field what its stored width holds of the saved value, moves positions to the new base, and leaves
alone what takes no part (`save_load_restores`).
-/
namespace Framescript

theorem Bytes.capacity_eq (width : Nat) : capacity width = 2 ^ (8 * width) := by
  induction width with
  | zero => rfl
  | succ width ih => rw [capacity, ih, Nat.mul_succ, Nat.pow_add, Nat.mul_comm]

/-- What comes back of an integer: its bits as far as the stored width holds them, and all of it if it is no wider. -/
structure ScalarKind.Returns (kind : ScalarKind) (width : Width) (value returned : kind.Value) : Prop where
  low : returned = kind.ofBits (kind.bits value % 2 ^ (8 * width.bytes))
  whole : kind.bytes ≤ width.bytes → returned = value

theorem ScalarKind.returns_ofBits (kind : ScalarKind) (width : Width) (value : kind.Value) :
    kind.Returns width value (kind.ofBits (kind.bits value % Bytes.capacity width.bytes)) where
  low := by rw [Bytes.capacity_eq]
  whole wide := kind.ofBits_bits_mod wide value

namespace Entry

/-- Entries that differ in nothing but the values of their fields. -/
inductive SameShape : Entry → Entry → Prop
  | int (kind : ScalarKind) (value other : kind.Value) (width : Width) (versions : VersionRange) :
    SameShape (.int kind value width versions) (.int kind other width versions)
  | array (kind : ScalarKind) {values others : List kind.Value} (width : Width) (versions : VersionRange)
    (same : values.length = others.length) :
    SameShape (.array ⟨kind, values⟩ width versions) (.array ⟨kind, others⟩ width versions)
  | position (p other : UInt64) (versions : VersionRange) : SameShape (.position p versions) (.position other versions)
  | stop : SameShape .stop .stop

/-- What an entry that is saved against `base` is when it is loaded against `base'`. -/
inductive Restored (base base' : UInt64) : Entry → Entry → Prop
  | int {kind : ScalarKind} {value returned : kind.Value} {width : Width} (versions : VersionRange)
    (returns : kind.Returns width value returned) :
    Restored base base' (.int kind value width versions) (.int kind returned width versions)
  | array {kind : ScalarKind} {values returned : List kind.Value} {width : Width} (versions : VersionRange)
    (returns : List.Forall₂ (kind.Returns width) values returned) :
    Restored base base' (.array ⟨kind, values⟩ width versions) (.array ⟨kind, returned⟩ width versions)
  | position {p moved : UInt64} (versions : VersionRange) (behind : base ≤ p)
    (distance : moved.toNat = base'.toNat + (p.toNat - base.toNat)) :
    Restored base base' (.position p versions) (.position moved versions)

/-- What the entries `old` are when the saved ones have been loaded over them. -/
inductive AllRestored (version : UInt16) (base base' : UInt64) : List Entry → List Entry → List Entry → Prop
  | nil : AllRestored version base base' [] [] []
  /-- Behind the end of the list nothing changes. -/
  | stop (saved old : List Entry) : AllRestored version base base' (.stop :: saved) (.stop :: old) (.stop :: old)
  /-- An entry of other versions keeps its value. -/
  | other {entry entry' : Entry} {saved old new : List Entry} (absent : entry.appliesTo version = false)
    (goesOn : entry.isStop = false) (rest : AllRestored version base base' saved old new) :
    AllRestored version base base' (entry :: saved) (entry' :: old) (entry' :: new)
  | loaded {entry entry' returned : Entry} {saved old new : List Entry} (applies : entry.appliesTo version = true)
    (restored : Restored base base' entry returned) (rest : AllRestored version base base' saved old new) :
    AllRestored version base base' (entry :: saved) (entry' :: old) (returned :: new)

/-! ### Shapes -/

theorem SameShape.appliesTo {entry other : Entry} (shape : SameShape entry other) (version : UInt16) :
    other.appliesTo version = entry.appliesTo version := by
  cases shape <;> rfl

theorem SameShape.isStop {entry other : Entry} (shape : SameShape entry other) : other.isStop = entry.isStop := by
  cases shape <;> rfl

theorem SameShape.storedSize {entry other : Entry} (shape : SameShape entry other) :
    other.storedSize = entry.storedSize := by
  cases shape with
  | array kind width versions same => simp [Entry.storedSize, same]
  | _ => rfl

theorem participants_cons {entry : Entry} (goesOn : entry.isStop = false) (version : UInt16) (entries : List Entry) :
    participants version (entry :: entries) =
      if entry.appliesTo version then entry :: participants version entries else participants version entries := by
  simp [participants, body, goesOn, List.filter_cons]

theorem measure_cons {entry : Entry} (goesOn : entry.isStop = false) (version : UInt16) (entries : List Entry) :
    measure version (entry :: entries) =
      (if entry.appliesTo version then entry.storedSize else 0) + measure version entries := by
  rw [measure, participants_cons goesOn, measure]
  split
  · rfl
  · exact (Nat.zero_add _).symm

theorem eq_stop {entry : Entry} (ends : entry.isStop = true) : entry = .stop := by
  cases entry with
  | stop => rfl
  | _ => cases ends

/-- Entries of the same shape take the same bytes. -/
theorem measure_of_sameShape {entries others : List Entry} (shape : List.Forall₂ SameShape entries others)
    (version : UInt16) : measure version others = measure version entries := by
  induction shape with
  | nil => rfl
  | @cons entry other entries others here _ ih =>
    by_cases ends : entry.isStop = true
    · obtain rfl := eq_stop ends
      obtain rfl := eq_stop (here.isStop.trans ends)
      rfl
    · have goesOn := Bool.eq_false_iff.mpr ends
      rw [measure_cons goesOn, measure_cons (here.isStop.trans goesOn), here.appliesTo, here.storedSize, ih]

end Entry

namespace Walker

open Entry (SameShape Restored AllRestored)

/-! ### Saving -/

/-- A save of entries that fit is not refused for its buffer. -/
theorem walk_save {bytes : Bytes} {version : UInt16} {base : UInt64} {cursor : Nat} {entries : List Entry}
    (room : cursor + Entry.measure version entries ≤ bytes.length) :
    walk ⟨.save bytes, version, base, cursor⟩ entries = save ⟨.save bytes, version, base, cursor⟩ entries :=
  if_neg (Nat.not_lt.mpr room)

/-- A load of entries that fit reads them from the cursor on. -/
theorem walk_load {bytes : Bytes} {version : UInt16} {base : UInt64} {cursor : Nat} {entries : List Entry}
    (room : cursor + Entry.measure version entries ≤ bytes.length) :
    walk ⟨.load bytes, version, base, cursor⟩ entries = walk.go ⟨.load bytes, version, base, cursor⟩ entries :=
  if_neg (Nat.not_lt.mpr room)

/-- The bytes that a save writes. -/
def image (version : UInt16) (base : UInt64) (entries : List Entry) : Bytes :=
  (Entry.participants version entries).flatMap (store base)

theorem image_cons {entry : Entry} (goesOn : entry.isStop = false) (version : UInt16) (base : UInt64)
    (entries : List Entry) :
    image version base (entry :: entries) =
      (if entry.appliesTo version then store base entry else []) ++ image version base entries := by
  rw [image, Entry.participants_cons goesOn, image]
  split <;> simp

theorem length_store (base : UInt64) (entry : Entry) : (store base entry).length = entry.storedSize := by
  cases entry with
  | int kind value width versions => exact Cells.length_storeElement kind width value
  | array cells width versions =>
    rw [store, Cells.store_eq_storeElements]
    exact Cells.length_storeElements cells width
  | position p versions => exact Bytes.length_little 4 _
  | stop => rfl

theorem length_image (version : UInt16) (base : UInt64) (entries : List Entry) :
    (image version base entries).length = Entry.measure version entries := by
  induction entries with
  | nil => rfl
  | cons entry entries ih =>
    by_cases ends : entry.isStop = true
    · obtain rfl := Entry.eq_stop ends
      rfl
    · have goesOn := Bool.eq_false_iff.mpr ends
      rw [image_cons goesOn, Entry.measure_cons goesOn, List.length_append, ih]
      split
      · rw [length_store]
      · rfl

/-- A save that goes well has room for what it writes, and no position that it cannot store. -/
theorem save_of_ok {bytes : Bytes} {version : UInt16} {base : UInt64} {cursor : Nat} {entries : List Entry}
    (well : (walk ⟨.save bytes, version, base, cursor⟩ entries).result = .ok ()) :
    cursor + Entry.measure version entries ≤ bytes.length ∧
      checkPositions base (Entry.participants version entries) = .ok () ∧
      (walk ⟨.save bytes, version, base, cursor⟩ entries).walker =
        ⟨.save (Bytes.overlay cursor (image version base entries) bytes), version, base,
          cursor + Entry.measure version entries⟩ := by
  by_cases room : cursor + Entry.measure version entries ≤ bytes.length
  · rw [walk_save room] at well ⊢
    simp only [save] at well ⊢
    rcases checked : checkPositions base (Entry.participants version entries) with e | _
    · rw [checked] at well
      cases well
    · exact ⟨room, rfl, rfl⟩
  · have refused : walk ⟨.save bytes, version, base, cursor⟩ entries =
        refuse ⟨.save bytes, version, base, cursor⟩ entries
          (.bufferTooSmall (cursor + Entry.measure version entries) bytes.length) :=
      if_pos (Nat.lt_of_not_le room)
    rw [refused] at well
    cases well

theorem length_overlay {start : Nat} {image bytes : Bytes} (room : start + image.length ≤ bytes.length) :
    (Bytes.overlay start image bytes).length = bytes.length := by
  simp only [Bytes.overlay, List.length_append, List.length_take, List.length_drop]
  omega

theorem drop_overlay {start : Nat} {image bytes : Bytes} (room : start + image.length ≤ bytes.length) :
    (Bytes.overlay start image bytes).drop start = image ++ bytes.drop (start + image.length) := by
  have front : (bytes.take start).length = start := by
    rw [List.length_take]
    omega
  rw [Bytes.overlay, List.append_assoc]
  exact List.drop_left' front

/-! ### Loading -/

theorem positionOffset_of_checked {base p : UInt64} {versions : VersionRange} {entries : List Entry}
    (checked : checkPositions base (.position p versions :: entries) = .ok ()) :
    base ≤ p ∧ p.toNat - base.toNat < 0x100000000 := by
  simp only [checkPositions, positionOffset] at checked
  by_cases before : p < base
  · rw [if_pos before] at checked
    cases checked
  · rw [if_neg before] at checked
    by_cases near : p.toNat - base.toNat < 0x100000000
    · exact ⟨UInt64.not_lt.mp before, near⟩
    · rw [if_neg near] at checked
      cases checked

theorem checkPositions_tail {base : UInt64} {entry : Entry} {entries : List Entry}
    (checked : checkPositions base (entry :: entries) = .ok ()) : checkPositions base entries = .ok () := by
  cases entry with
  | position p versions =>
    simp only [checkPositions] at checked
    split at checked
    · cases checked
    · exact checked
  | _ => exact checked

/-- The stored bytes of an entry restore it in an entry of the same shape. -/
theorem load_store {base base' : UInt64} {entry other returned : Entry} (shape : SameShape entry other)
    {entries : List Entry} (checked : checkPositions base (entry :: entries) = .ok ()) {rest : Bytes}
    (going : entry.isStop = false) (loaded : load base' (store base entry ++ rest) other = .ok returned) :
    Restored base base' entry returned := by
  cases shape with
  | int kind value old width versions =>
    have size : (Cells.storeElement kind width value).length = width.bytes := Cells.length_storeElement kind width value
    simp only [load, store, List.take_left' size] at loaded
    cases loaded
    rw [Cells.storeElement, Bytes.ofLittle_little]
    exact .int versions (kind.returns_ofBits width value)
  | @array kind values olds width versions same =>
    have enough : olds.length * width.bytes ≤ (Cells.storeElements ⟨kind, values⟩ width ++ rest).length := by
      rw [List.length_append, Cells.length_storeElements, ← same]
      exact Nat.le_add_right _ _
    simp only [load, store, Cells.store_eq_storeElements] at loaded
    rw [Cells.load_eq_loadElements kind olds width _ enough,
      Cells.loadElements_storeElements kind width olds values rest same.symm] at loaded
    cases loaded
    refine .array versions ?_
    rw [List.forall₂_map_right_iff]
    exact List.forall₂_same.mpr fun value _ => kind.returns_ofBits width value
  | position p old versions =>
    obtain ⟨behind, near⟩ := positionOffset_of_checked checked
    have size : (Bytes.little 4 (p.toNat - base.toNat)).length = 4 := Bytes.length_little 4 _
    have kept : Bytes.ofLittle (Bytes.little 4 (p.toNat - base.toNat)) = p.toNat - base.toNat := by
      rw [Bytes.ofLittle_little]
      exact Nat.mod_eq_of_lt near
    simp only [load, store, List.take_left' size, kept] at loaded
    by_cases fits : base'.toNat + (p.toNat - base.toNat) < 0x10000000000000000
    · rw [if_pos fits] at loaded
      cases loaded
      exact .position versions behind (UInt64.toNat_ofNat_of_lt' fits)
    · rw [if_neg fits] at loaded
      cases loaded
  | stop => cases going

theorem loadEntries_of_absent {version : UInt16} {entry : Entry} (goesOn : entry.isStop = false)
    (absent : entry.appliesTo version = false) (base : UInt64) (entries : List Entry) (bytes : Bytes) :
    loadEntries version base (entry :: entries) bytes =
      ⟨entry :: (loadEntries version base entries bytes).entries, (loadEntries version base entries bytes).read,
        (loadEntries version base entries bytes).result⟩ := by
  cases entry with
  | stop => cases goesOn
  | _ => simp only [loadEntries, absent, Bool.false_eq_true, if_false]

theorem loadEntries_of_loaded {version : UInt16} {entry returned : Entry} (applies : entry.appliesTo version = true)
    {base : UInt64} {bytes : Bytes} (loaded : load base bytes entry = .ok returned) (entries : List Entry) :
    loadEntries version base (entry :: entries) bytes =
      ⟨returned :: (loadEntries version base entries (bytes.drop entry.storedSize)).entries,
        entry.storedSize + (loadEntries version base entries (bytes.drop entry.storedSize)).read,
        (loadEntries version base entries (bytes.drop entry.storedSize)).result⟩ := by
  cases entry with
  | stop => cases applies
  | _ => simp only [loadEntries, applies, if_true, loaded]

theorem loadEntries_of_refused {version : UInt16} {entry : Entry} (applies : entry.appliesTo version = true)
    {base : UInt64} {bytes : Bytes} {e : StateError} (refused : load base bytes entry = .error e) (entries : List Entry) :
    loadEntries version base (entry :: entries) bytes = ⟨entry :: entries, entry.storedSize, .error e⟩ := by
  cases entry with
  | stop => cases applies
  | _ => simp only [loadEntries, applies, if_true, refused]

/-- A load that goes well over entries of the shape of those whose bytes it finds restores all that take part, and
    reads no more than these bytes. -/
theorem loadEntries_restores {version : UInt16} {base base' : UInt64} {saved old : List Entry}
    (shape : List.Forall₂ SameShape saved old)
    (checked : checkPositions base (Entry.participants version saved) = .ok ()) {rest : Bytes}
    (well : (loadEntries version base' old (image version base saved ++ rest)).result = .ok ()) :
    (loadEntries version base' old (image version base saved ++ rest)).read = Entry.measure version saved ∧
      AllRestored version base base' saved old
        (loadEntries version base' old (image version base saved ++ rest)).entries := by
  induction shape with
  | nil => exact ⟨rfl, .nil⟩
  | @cons entry other saved old here _ ih =>
    by_cases ends : entry.isStop = true
    · obtain rfl := Entry.eq_stop ends
      obtain rfl := Entry.eq_stop (here.isStop.trans ends)
      exact ⟨rfl, .stop saved old⟩
    · have goesOn := Bool.eq_false_iff.mpr ends
      by_cases applies : entry.appliesTo version = true
      · rw [Entry.participants_cons goesOn, if_pos applies] at checked
        rw [image_cons goesOn, if_pos applies, List.append_assoc] at well ⊢
        have applies' := (here.appliesTo version).trans applies
        rcases loaded : load base' (store base entry ++ (image version base saved ++ rest)) other with e | returned
        · rw [loadEntries_of_refused applies' loaded] at well
          cases well
        have behind : (store base entry ++ (image version base saved ++ rest)).drop other.storedSize =
            image version base saved ++ rest := by
          rw [here.storedSize]
          exact List.drop_left' (length_store base entry)
        rw [loadEntries_of_loaded applies' loaded, behind] at well ⊢
        obtain ⟨read, restored⟩ := ih (checkPositions_tail checked) well
        refine ⟨?_, .loaded applies (load_store here checked goesOn loaded) restored⟩
        rw [Entry.measure_cons goesOn, if_pos applies, here.storedSize, read]
      · have absent := Bool.eq_false_iff.mpr applies
        rw [Entry.participants_cons goesOn, if_neg applies] at checked
        rw [image_cons goesOn, if_neg applies, List.nil_append,
          loadEntries_of_absent (here.isStop.trans goesOn) ((here.appliesTo version).trans absent)] at well ⊢
        obtain ⟨read, restored⟩ := ih checked well
        refine ⟨?_, .other absent goesOn restored⟩
        rw [Entry.measure_cons goesOn, if_neg applies, Nat.zero_add, read]

/-- A load, over entries of the same shape and from the same cursor, of what a save has written ends where the save
    ended, and gives every field that takes part what was saved of it. Integers are cut to their stored width,
    positions are as far from the new base as they were from the old one, and no other field changes. -/
theorem save_load_restores {version : UInt16} {base base' : UInt64} {cursor : Nat} {buffer : Bytes}
    {saved old : List Entry} (shape : List.Forall₂ SameShape saved old) {save load : Walked}
    (saves : walk ⟨.save buffer, version, base, cursor⟩ saved = save) (savedWell : save.result = .ok ())
    (loads : walk ⟨.load save.walker.bytes, version, base', cursor⟩ old = load) (loadedWell : load.result = .ok ()) :
    load.walker.cursor = save.walker.cursor ∧ AllRestored version base base' saved old load.entries := by
  subst saves loads
  obtain ⟨room, checked, walker⟩ := save_of_ok savedWell
  rw [← length_image version base saved] at room
  have fits : cursor + Entry.measure version old ≤
      (Bytes.overlay cursor (image version base saved) buffer).length := by
    rw [length_overlay room, Entry.measure_of_sameShape shape, ← length_image version base saved]
    exact room
  simp only [walker, bytes, walk_load fits, walk.go, drop_overlay room] at loadedWell ⊢
  obtain ⟨read, restored⟩ := loadEntries_restores shape checked loadedWell
  exact ⟨by rw [read], restored⟩

/-- A negative word stored in a byte, bytes stored in four, a position that moves with the base, a field of later versions,
    and a position behind the end of the list. -/
theorem save_load_restores_moved :
    let saved : List Entry := [.int .i16 (-2 : Int16) .byte (.since 1), .array ⟨.u8, ([7, 200] : List UInt8)⟩ .long (.since 1),
      .position 1000 ⟨1, 3⟩, .int .u32 (5 : UInt32) .word ⟨2, 3⟩, .stop, .position 950 (.since 1)]
    let old : List Entry := [.int .i16 (9 : Int16) .byte (.since 1), .array ⟨.u8, ([0, 0] : List UInt8)⟩ .long (.since 1),
      .position 1 ⟨1, 3⟩, .int .u32 (6 : UInt32) .word ⟨2, 3⟩, .stop, .position 2 (.since 1)]
    let new : List Entry := [.int .i16 (254 : Int16) .byte (.since 1), .array ⟨.u8, ([7, 200] : List UInt8)⟩ .long (.since 1),
      .position 140 ⟨1, 3⟩, .int .u32 (6 : UInt32) .word ⟨2, 3⟩, .stop, .position 2 (.since 1)]
    let save := walk ⟨.save (List.replicate 20 0xAA), 1, 900, 3⟩ saved
    let load := walk ⟨.load save.walker.bytes, 1, 40, 3⟩ old
    List.Forall₂ SameShape saved old ∧ save.result = .ok () ∧ load.result = .ok () ∧
      load.walker.cursor = save.walker.cursor ∧ load.entries = new ∧ AllRestored 1 900 40 saved old new := by
  intro saved old new save load
  have shape : List.Forall₂ SameShape saved old :=
    .cons (.int _ _ _ _ _) (.cons (.array _ _ _ rfl) (.cons (.position _ _ _) (.cons (.int _ _ _ _ _)
      (.cons .stop (.cons (.position _ _ _) .nil)))))
  have savedWell : save.result = .ok () := by decide +kernel
  have loadedWell : load.result = .ok () := by decide +kernel
  have entries : load.entries = new := by decide +kernel
  obtain ⟨cursor, restored⟩ := save_load_restores shape rfl savedWell rfl loadedWell
  exact ⟨shape, savedWell, loadedWell, cursor, entries, entries ▸ restored⟩

end Walker

end Framescript
