import Framescript.Machine.State
import Framescript.Proofs.LoadOutcomes
import Framescript.Proofs.SavedState

/-!
What a machine makes of bytes that nobody has saved. A load against base 0 of as many bytes as the fields take reads
all of them and cannot fail half way (`Walker.loadEntries_reads`), so a machine takes over any block of its size
(`Machine.load_reads`), and the same bytes are saved again (`Machine.image_of_allRead`).
-/
namespace Framescript

namespace Entry

theorem exists_array_of_sameShape {kind : ScalarKind} {olds : List kind.Value} {width : Width} {versions : VersionRange}
    {old fields : List Entry} (shape : List.Forall₂ SameShape (.array ⟨kind, olds⟩ width versions :: old) fields) :
    ∃ values rest, fields = .array ⟨kind, values⟩ width versions :: rest ∧ values.length = olds.length ∧
      List.Forall₂ SameShape old rest := by
  cases shape with
  | cons here behind =>
    cases here with
    | array _ _ _ same => exact ⟨_, _, rfl, same.symm, behind⟩

end Entry

namespace Walker

open Entry (AllRead)

/-- A load against base 0 reads all entries, if there are as many bytes as they take. -/
theorem loadEntries_reads (version : UInt16) (entries : List Entry) {bytes : Bytes}
    (enough : Entry.measure version entries ≤ bytes.length) :
    ∃ fields, loadEntries version 0 entries bytes = ⟨fields, Entry.measure version entries, .ok ()⟩ ∧
      AllRead version 0 (bytes.take (Entry.measure version entries)) entries fields := by
  have outcome : Outcome version 0 entries bytes _ := loadEntries_outcome enough
  generalize loadEntries version 0 entries bytes = loaded at outcome ⊢
  cases outcome with
  | whole formed read => exact ⟨_, rfl, read⟩
  | broken i offset fields here first front =>
    -- from base 0 on there is room for every distance that four bytes hold
    have beyond := here.beyond_base
    have zero : (0 : UInt64).toNat = 0 := rfl
    omega

/-- A load of a buffer that the entries fill reads all of it. -/
theorem walk_load_reads {version : UInt16} {entries : List Entry} {bytes : Bytes}
    (full : bytes.length = Entry.measure version entries) :
    ∃ fields log, walk ⟨.load bytes, version, 0, 0⟩ entries =
        ⟨⟨.load bytes, version, 0, bytes.length⟩, fields, .ok (), log⟩ ∧
      AllRead version 0 bytes entries fields := by
  obtain ⟨fields, loaded, read⟩ := loadEntries_reads version entries (Nat.le_of_eq full.symm)
  rw [← full, List.take_length] at read
  rw [← full] at loaded
  have room : 0 + Entry.measure version entries ≤ bytes.length := by omega
  refine ⟨fields, report ⟨.load bytes, version, 0, 0⟩ bytes.length, ?_, read⟩
  rw [walk_load room]
  simp only [walk.go, List.drop_zero, loaded, Nat.zero_add]

end Walker

theorem toList_refill {α : Type} {n : Nat} (old : Vector α n) {values : List α} (count : values.length = n) :
    (refill old values).toList = values := by
  unfold refill
  rw [dif_pos count]
  rfl

/-- Two rows that are saved as one field. -/
theorem toList_refill_rows {α : Type} {n : Nat} (low high : Vector α n) {values : List α}
    (count : values.length = n + n) :
    (refill low (values.take n)).toList ++ (refill high (values.drop n)).toList = values := by
  rw [toList_refill low (by simp [count]), toList_refill high (by simp [count])]
  exact List.take_append_drop n values

namespace Machine

open Entry (AllRead SameShape)

/-- Fields of the shape of a machine's own are the fields of the machine that they are put into. -/
theorem entries_restore {m : Machine} {fields : List Entry} (shape : List.Forall₂ SameShape m.entries fields) :
    (m.restore fields).entries = fields := by
  obtain ⟨vars, fields, rfl, varCount, shape⟩ := Entry.exists_array_of_sameShape shape
  obtain ⟨slots, fields, rfl, slotCount, shape⟩ := Entry.exists_array_of_sameShape shape
  obtain ⟨pcs, fields, rfl, pcCount, shape⟩ := Entry.exists_array_of_sameShape shape
  obtain ⟨pauses, fields, rfl, pauseCount, shape⟩ := Entry.exists_array_of_sameShape shape
  obtain rfl : [.stop] = fields := by
    cases shape with
    | cons here behind =>
      cases here
      cases behind
      rfl
  replace varCount := varCount.trans m.length_varCells
  replace slotCount := slotCount.trans m.length_slotCells
  replace pcCount := pcCount.trans m.length_pcCells
  replace pauseCount := pauseCount.trans m.length_pauseCells
  have vars' : (refill m.vars.cells vars).toList = vars := toList_refill _ varCount
  have slots' : (refill m.callStack.slots slots).toList = slots := toList_refill _ slotCount
  have pcs' : (refill m.threads.pc (pcs.take threadCount)).toList ++
      (refill m.threads.requestedPc (pcs.drop threadCount)).toList = pcs := toList_refill_rows _ _ pcCount
  have pauses' : (refill m.threads.paused (pauses.take threadCount)).toList ++
      (refill m.threads.requestedPaused (pauses.drop threadCount)).toList = pauses := toList_refill_rows _ _ pauseCount
  simp only [restore, entries, vars', slots', pcs', pauses']

theorem settle_restore (m : Machine) (fields : List Entry) :
    (m.restore fields).settle = m.withSaved (m.restore fields).settle := by
  unfold restore
  split <;> rfl

theorem checkState_eq_ok_iff {m : Machine} {bytes : Bytes} {version : UInt16} :
    m.checkState bytes version = .ok () ↔ checkVersion version = .ok () ∧ bytes.length = m.stateSize version := by
  unfold checkState
  rcases checked : checkVersion version with error | _
  · simp
  · by_cases full : bytes.length = m.stateSize version <;> simp [full]

/-- A machine takes over any block of the right size: its saved fields are read from the block, and besides whatever
    was under way is over. -/
theorem load_reads {m : Machine} {bytes : Bytes} {version : UInt16} (accepted : m.checkState bytes version = .ok ()) :
    ∃ loaded log, m.load bytes version = (.ok bytes.length, loaded, log) ∧
      AllRead version 0 bytes m.entries loaded.entries ∧ loaded = m.withSaved loaded := by
  obtain ⟨-, full⟩ := checkState_eq_ok_iff.mp accepted
  obtain ⟨fields, log, walked, read⟩ := Walker.walk_load_reads full
  refine ⟨(m.restore fields).settle, log, ?_, ?_, m.settle_restore fields⟩
  · simp only [load, accepted, walk, walked, Walker.isLoading, if_true]
  · have taken : (m.restore fields).settle.entries = fields := entries_restore read.sameShape
    rwa [taken]

end Machine

end Framescript
