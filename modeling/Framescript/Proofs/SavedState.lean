import Framescript.Machine.State
import Framescript.Proofs.Walks

/-!
The saved state of a machine as a byte string. Saving writes the image of the saved fields (`save_eq`),
loading an image puts the saved fields back and settles the machine (`load_image`), and every byte
string of the right length is the image of some machine (`exists_image`). So saving and loading undo
each other in both directions (`save_load_exact`).
-/
namespace Framescript

namespace Walker

/-- Loading a stored field into one of the same shape goes on behind its bytes. -/
theorem loadEntries_array {version : UInt16} {base : UInt64} {versions : VersionRange} {old new : Cells}
    (width : Width) (applies : versions.contains version = true) (shape : Cells.SameShape old new)
    (wide : new.kind.bytes ≤ width.bytes) (entries : List Entry) (rest : Bytes) :
    loadEntries version base (.array old width versions :: entries) (new.storeElements width ++ rest) =
      ⟨.array new width versions :: (loadEntries version base entries rest).entries,
        new.values.length * width.bytes + (loadEntries version base entries rest).read,
        (loadEntries version base entries rest).result⟩ := by
  have takesPart : Entry.appliesTo version (.array old width versions) = true := applies
  have size : Entry.storedSize (.array old width versions) = new.values.length * width.bytes := by
    rw [Entry.storedSize, shape.2]
  rw [loadEntries, if_pos takesPart, load, Cells.load_storeElements shape wide, size,
    List.drop_left' (Cells.length_storeElements new width)]
  exact fun stop => Entry.noConfusion stop

end Walker

theorem refill_toList {α : Type} {n : Nat} (old new : Vector α n) : refill old new.toList = new := by
  unfold refill
  rw [dif_pos new.length_toList]
  rfl

namespace Machine

/-- The variables as a saved field. -/
def varCells (m : Machine) : Cells := ⟨.i16, m.vars.cells.toList⟩

/-- The slots of the call stack as a saved field. -/
def slotCells (m : Machine) : Cells := ⟨.u16, m.callStack.slots.toList⟩

/-- The offsets of the threads and those requested, as one saved field. -/
def pcCells (m : Machine) : Cells := ⟨.u16, m.threads.pc.toList ++ m.threads.requestedPc.toList⟩

/-- The paused flags of the threads and those requested, as one saved field. -/
def pauseCells (m : Machine) : Cells := ⟨.u8, m.threads.paused.toList ++ m.threads.requestedPaused.toList⟩

theorem length_varCells (m : Machine) : m.varCells.values.length = 256 := m.vars.cells.length_toList

theorem length_slotCells (m : Machine) : m.slotCells.values.length = 256 := m.callStack.slots.length_toList

theorem length_pcCells (m : Machine) : m.pcCells.values.length = 128 := by
  show (m.threads.pc.toList ++ m.threads.requestedPc.toList).length = threadCount + threadCount
  simp

theorem length_pauseCells (m : Machine) : m.pauseCells.values.length = 128 := by
  show (m.threads.paused.toList ++ m.threads.requestedPaused.toList).length = threadCount + threadCount
  simp

theorem entries_eq (m : Machine) :
    m.entries = [.array m.varCells .word (.since 1), .array m.slotCells .word (.since 1),
      .array m.pcCells .word (.since 1), .array m.pauseCells .byte (.since 1), .stop] :=
  rfl

/-- The bytes of the fields that are saved. -/
def image (m : Machine) : Bytes :=
  m.varCells.storeElements .word ++ (m.slotCells.storeElements .word ++
    (m.pcCells.storeElements .word ++ m.pauseCells.storeElements .byte))

theorem stateSize_eq (m : Machine) : m.stateSize currentVersion = 1408 := by
  simp [stateSize, entries_eq, Entry.measure, Entry.participants, Entry.body, Entry.isStop, Entry.appliesTo,
    VersionRange.contains, VersionRange.since, currentVersion, Entry.storedSize, Width.bytes, length_varCells,
    length_slotCells, length_pcCells, length_pauseCells]

theorem length_image (m : Machine) : m.image.length = 1408 := by
  simp [image, Cells.length_storeElements, Width.bytes, length_varCells, length_slotCells, length_pcCells,
    length_pauseCells]

theorem participants_image (m : Machine) :
    (Entry.participants currentVersion m.entries).flatMap (Walker.store 0) = m.image := by
  simp [entries_eq, Entry.participants, Entry.body, Entry.isStop, Entry.appliesTo, VersionRange.contains,
    VersionRange.since, currentVersion, Walker.store, Cells.store_eq_storeElements, image]

theorem checkPositions_entries (m : Machine) (base : UInt64) :
    Walker.checkPositions base (Entry.participants currentVersion m.entries) = .ok () := by
  simp [entries_eq, Entry.participants, Entry.body, Entry.isStop, Entry.appliesTo, VersionRange.contains,
    VersionRange.since, currentVersion, Walker.checkPositions]

/-- A walk that saves into a buffer with room leaves the image of the machine at its front. -/
theorem walk_of_room (m : Machine) {buffer : Bytes} (room : m.stateSize currentVersion ≤ buffer.length) :
    ∃ log, m.walk { buffer := .save buffer, version := currentVersion } =
      ⟨⟨.save (m.image ++ buffer.drop (m.stateSize currentVersion)), currentVersion, 0, m.stateSize currentVersion⟩,
        m, .ok (), log⟩ := by
  have enough : 0 + Entry.measure currentVersion m.entries ≤ buffer.length := by
    rw [Nat.zero_add]
    exact room
  have written : Bytes.overlay 0 m.image buffer = m.image ++ buffer.drop (m.stateSize currentVersion) := by
    rw [Bytes.overlay, List.take_zero, List.nil_append, Nat.zero_add, length_image, stateSize_eq]
  have walked : Walker.walk ⟨.save buffer, currentVersion, 0, 0⟩ m.entries =
      ⟨⟨.save (m.image ++ buffer.drop (m.stateSize currentVersion)), currentVersion, 0, m.stateSize currentVersion⟩,
        m.entries, .ok (), Walker.report ⟨.save buffer, currentVersion, 0, 0⟩ (m.stateSize currentVersion)⟩ := by
    rw [Walker.walk_save enough]
    simp only [Walker.save, checkPositions_entries, participants_image, written, Nat.zero_add, stateSize]
  refine ⟨Walker.report ⟨.save buffer, currentVersion, 0, 0⟩ (m.stateSize currentVersion), ?_⟩
  simp only [walk, walked, Walker.isLoading, Bool.false_eq_true, if_false]

/-- A walk that saves into a buffer of the right length leaves the image of the machine in it. -/
theorem walk_image (m : Machine) {buffer : Bytes} (fits : buffer.length = m.stateSize currentVersion) :
    ∃ log, m.walk { buffer := .save buffer, version := currentVersion } =
      ⟨⟨.save m.image, currentVersion, 0, m.stateSize currentVersion⟩, m, .ok (), log⟩ := by
  obtain ⟨log, walked⟩ := m.walk_of_room (Nat.le_of_eq fits.symm)
  rw [List.drop_eq_nil_of_le (Nat.le_of_eq fits), List.append_nil] at walked
  exact ⟨log, walked⟩

/-- A save into a buffer with room leaves the image of the machine at its front. -/
theorem save_of_room (m : Machine) {buffer : Bytes} (room : m.stateSize currentVersion ≤ buffer.length) :
    ∃ log, m.save (some buffer) =
      ⟨.ok (m.stateSize currentVersion), m.image ++ buffer.drop (m.stateSize currentVersion), log⟩ := by
  obtain ⟨log, walked⟩ := m.walk_of_room room
  exact ⟨log, by simp only [save, Option.elim, walked, Walker.bytes]⟩

/-- A save into a buffer of the right length leaves the image of the machine in it. -/
theorem save_eq (m : Machine) {buffer : Bytes} (fits : buffer.length = m.stateSize currentVersion) :
    ∃ log, m.save (some buffer) = ⟨.ok (m.stateSize currentVersion), m.image, log⟩ := by
  obtain ⟨log, walked⟩ := m.walk_image fits
  exact ⟨log, by simp only [save, Option.elim, walked, Walker.bytes]⟩

/-- Loading the image of a machine over the fields of another gives the fields of the first. -/
theorem loadEntries_image (a b : Machine) :
    Walker.loadEntries currentVersion 0 b.entries a.image = ⟨a.entries, a.stateSize currentVersion, .ok ()⟩ := by
  have now : VersionRange.contains (.since 1) currentVersion = true := by decide
  have vars : Cells.SameShape b.varCells a.varCells := ⟨rfl, b.length_varCells.trans a.length_varCells.symm⟩
  have slots : Cells.SameShape b.slotCells a.slotCells := ⟨rfl, b.length_slotCells.trans a.length_slotCells.symm⟩
  have pcs : Cells.SameShape b.pcCells a.pcCells := ⟨rfl, b.length_pcCells.trans a.length_pcCells.symm⟩
  have pauses : Cells.SameShape b.pauseCells a.pauseCells := ⟨rfl, b.length_pauseCells.trans a.length_pauseCells.symm⟩
  rw [entries_eq, image, ← List.append_nil (a.pauseCells.storeElements .byte),
    Walker.loadEntries_array .word now vars (Nat.le_refl 2), Walker.loadEntries_array .word now slots (Nat.le_refl 2),
    Walker.loadEntries_array .word now pcs (Nat.le_refl 2), Walker.loadEntries_array .byte now pauses (Nat.le_refl 1),
    Walker.loadEntries, stateSize_eq, length_varCells, length_slotCells, length_pcCells, length_pauseCells]
  rfl

/-- Putting the saved fields of a machine into another. -/
theorem restore_entries (a b : Machine) :
    b.restore a.entries =
      { b with
        vars := a.vars, threads := a.threads, callStack := { b.callStack with slots := a.callStack.slots } } := by
  have pcs : (a.threads.pc.toList ++ a.threads.requestedPc.toList).take threadCount = a.threads.pc.toList :=
    List.take_left' a.threads.pc.length_toList
  have requestedPcs :
      (a.threads.pc.toList ++ a.threads.requestedPc.toList).drop threadCount = a.threads.requestedPc.toList :=
    List.drop_left' a.threads.pc.length_toList
  have pauses :
      (a.threads.paused.toList ++ a.threads.requestedPaused.toList).take threadCount = a.threads.paused.toList :=
    List.take_left' a.threads.paused.length_toList
  have requestedPauses :
      (a.threads.paused.toList ++ a.threads.requestedPaused.toList).drop threadCount =
        a.threads.requestedPaused.toList :=
    List.drop_left' a.threads.paused.length_toList
  simp only [entries, restore, pcs, requestedPcs, pauses, requestedPauses, refill_toList]

/-- A machine with the saved fields of another one. Nothing is under way in it, and its other fields are
    its own. -/
def withSaved (b a : Machine) : Machine :=
  { b with
    vars := a.vars, threads := a.threads, callStack := a.callStack.rewind, requestedPart := none,
    keys := {}, aborted := false }

/-- A load of a machine's image puts its saved fields back. -/
theorem load_image (a b : Machine) :
    ∃ log, b.load a.image currentVersion = (.ok (b.stateSize currentVersion), b.withSaved a, log) := by
  have sizes : b.stateSize currentVersion = a.stateSize currentVersion := by rw [stateSize_eq, stateSize_eq]
  have length : a.image.length = b.stateSize currentVersion := by rw [length_image, stateSize_eq]
  have room : 0 + Entry.measure currentVersion b.entries ≤ a.image.length := by
    rw [Nat.zero_add, length]
    exact Nat.le_refl _
  have accepted : b.checkState a.image currentVersion = .ok () := by
    rw [checkState, if_pos length]
    rfl
  have walked : Walker.walk ⟨.load a.image, currentVersion, 0, 0⟩ b.entries =
      ⟨⟨.load a.image, currentVersion, 0, b.stateSize currentVersion⟩, a.entries, .ok (),
        Walker.report ⟨.load a.image, currentVersion, 0, 0⟩ (b.stateSize currentVersion)⟩ := by
    rw [Walker.walk_load room]
    simp only [Walker.walk.go, List.drop_zero, loadEntries_image, Nat.zero_add, sizes]
  refine ⟨Walker.report ⟨.load a.image, currentVersion, 0, 0⟩ (b.stateSize currentVersion), ?_⟩
  simp only [load, accepted, walk, walked, Walker.isLoading, if_true, restore_entries, settle, CallStack.rewind,
    withSaved]

private theorem exists_row {α : Type} {n : Nat} {values : List α} (count : values.length = n) :
    ∃ row : Vector α n, row.toList = values :=
  ⟨⟨values.toArray, count⟩, rfl⟩

private theorem exists_rows {α : Type} (n : Nat) {values : List α} (count : values.length = n + n) :
    ∃ low high : Vector α n, low.toList ++ high.toList = values := by
  obtain ⟨low, lowValues⟩ := exists_row (show (values.take n).length = n by simp [count])
  obtain ⟨high, highValues⟩ := exists_row (show (values.drop n).length = n by simp [count])
  exact ⟨low, high, by rw [lowValues, highValues, List.take_append_drop]⟩

private theorem exists_split (size rest : Nat) {bytes : Bytes} (full : bytes.length = size + rest) :
    ∃ front back, bytes = front ++ back ∧ front.length = size ∧ back.length = rest :=
  ⟨bytes.take size, bytes.drop size, (List.take_append_drop size bytes).symm, by simp [full], by simp [full]⟩

/-- Every byte string of the right length is the image of a machine. -/
theorem exists_image {bytes : Bytes} (full : bytes.length = 1408) : ∃ m : Machine, m.image = bytes := by
  obtain ⟨varBytes, bytes, rfl, varSize, full⟩ := exists_split 512 896 full
  obtain ⟨slotBytes, bytes, rfl, slotSize, full⟩ := exists_split 512 384 full
  obtain ⟨pcBytes, pauseBytes, rfl, pcSize, pauseSize⟩ := exists_split 256 128 full
  obtain ⟨vars, varCount, rfl⟩ := Cells.exists_elements .i16 .word 256 (Nat.le_refl 2) varSize
  obtain ⟨slots, slotCount, rfl⟩ := Cells.exists_elements .u16 .word 256 (Nat.le_refl 2) slotSize
  obtain ⟨pcs, pcCount, rfl⟩ := Cells.exists_elements .u16 .word 128 (Nat.le_refl 2) pcSize
  obtain ⟨pauses, pauseCount, rfl⟩ := Cells.exists_elements .u8 .byte 128 (Nat.le_refl 1) pauseSize
  obtain ⟨vars, rfl⟩ := exists_row varCount
  obtain ⟨slots, rfl⟩ := exists_row slotCount
  obtain ⟨pc, requestedPc, rfl⟩ := exists_rows threadCount pcCount
  obtain ⟨paused, requestedPaused, rfl⟩ := exists_rows threadCount pauseCount
  exact ⟨{ vars := ⟨vars⟩, callStack := { slots }, threads := ⟨pc, requestedPc, paused, requestedPaused⟩ }, rfl⟩

/-- The image depends on the saved fields alone. -/
theorem image_congr {a b : Machine} (vars : a.vars = b.vars) (slots : a.callStack.slots = b.callStack.slots)
    (threads : a.threads = b.threads) : a.image = b.image := by
  simp only [image, varCells, slotCells, pcCells, pauseCells, vars, slots, threads]

/-- Saving and loading undo each other. A state that is saved into a buffer of the right length and then
    loaded into any machine gives that machine the saved fields, with no call open, no switch requested, no
    key waiting and no abort, and leaves everything else of it alone; and bytes of the right length, whatever
    they are, that are loaded into a machine and then saved again come out as they were. -/
theorem save_load_exact (a b : Machine) :
    (∀ buffer : Bytes, buffer.length = a.stateSize currentVersion →
      ∃ block saved loaded,
        a.save (some buffer) = ⟨.ok (a.stateSize currentVersion), block, saved⟩ ∧
        b.load block currentVersion =
          (.ok (b.stateSize currentVersion),
            { b with
              vars := a.vars, threads := a.threads,
              callStack := { slots := a.callStack.slots, depth := 0, depth_le := Nat.zero_le _ },
              requestedPart := none, keys := { code := false, pause := false }, aborted := false },
            loaded)) ∧
    (∀ bytes buffer : Bytes, bytes.length = b.stateSize currentVersion → buffer.length = b.stateSize currentVersion →
      ∃ m loaded saved,
        b.load bytes currentVersion = (.ok (b.stateSize currentVersion), m, loaded) ∧
        m.save (some buffer) = ⟨.ok (b.stateSize currentVersion), bytes, saved⟩) := by
  constructor
  · intro buffer fits
    obtain ⟨saved, save⟩ := a.save_eq fits
    obtain ⟨loaded, load⟩ := load_image a b
    exact ⟨a.image, saved, loaded, save, load⟩
  · intro bytes buffer full fits
    obtain ⟨source, rfl⟩ := exists_image (full.trans b.stateSize_eq)
    obtain ⟨loaded, load⟩ := load_image source b
    have fitsLoaded : buffer.length = (b.withSaved source).stateSize currentVersion := by
      rw [fits, stateSize_eq, stateSize_eq]
    obtain ⟨saved, save⟩ := save_eq (b.withSaved source) fitsLoaded
    have same : (b.withSaved source).image = source.image := image_congr rfl rfl rfl
    rw [same, stateSize_eq, ← b.stateSize_eq] at save
    exact ⟨b.withSaved source, loaded, saved, load, save⟩

/-- A machine with a negative variable saved over one that has stopped, and bytes that are all ones, of
    which no flag is 0 or 1, loaded into the latter. -/
theorem save_load_exact_ones :
    let a : Machine := { vars := Variables.initial.set 3 (-2), threads := .started }
    let b : Machine := { requestedPart := some 0x3E89, keys := { code := true }, aborted := true }
    let ones : Bytes := List.replicate 1408 0xFF
    ones.length = a.stateSize currentVersion ∧ ones.length = b.stateSize currentVersion ∧
    (∃ block saved loaded,
      a.save (some ones) = ⟨.ok (a.stateSize currentVersion), block, saved⟩ ∧
      b.load block currentVersion =
        (.ok (b.stateSize currentVersion),
          { b with
            vars := a.vars, threads := a.threads,
            callStack := { slots := a.callStack.slots, depth := 0, depth_le := Nat.zero_le _ },
            requestedPart := none, keys := { code := false, pause := false }, aborted := false },
          loaded)) ∧
    ∃ m loaded saved,
      b.load ones currentVersion = (.ok (b.stateSize currentVersion), m, loaded) ∧
      m.save (some ones) = ⟨.ok (b.stateSize currentVersion), ones, saved⟩ := by
  intro a b ones
  have first : ones.length = a.stateSize currentVersion := by rw [stateSize_eq]; exact List.length_replicate
  have second : ones.length = b.stateSize currentVersion := by rw [stateSize_eq]; exact List.length_replicate
  exact ⟨first, second, (save_load_exact a b).1 ones first, (save_load_exact a b).2 ones ones second second⟩

end Machine

end Framescript
