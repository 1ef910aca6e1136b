import Framescript.Engine
import Framescript.Host.Recorder
import Framescript.Proofs.Answers
import Framescript.Proofs.Files
import Framescript.Proofs.Loads

/-!
Loads of whole engines. The size check in front of a load leaves nothing that could go wrong later, neither in the
block of the machine nor in that of the host (`Engine.load_of_accepted`), so a load either changes nothing or takes
over all bytes (`Engine.load_rejects_first`). A state file is loaded, on its own part, or not at all, and what has
been loaded is what the engine saves next (`Engine.loadFile_all_or_nothing`).
-/
namespace Framescript

open Entry (AllRead SameShape)

/-- A host that has the fields that it is given. -/
def Host.Retains {H : Type} [Host H] (h : H) : Prop :=
  ∀ fields, List.Forall₂ SameShape (Host.entries h) fields → Host.entries (Host.restore fields h) = fields

/-- Whatever a recorder exposes, it has the values that are loaded into it. -/
theorem Recorder.retains (r : Recorder) : Host.Retains r := by
  intro fields shape
  show (r.restore fields).entries = fields
  replace shape : List.Forall₂ SameShape r.entries fields := shape
  by_cases hidden : r.expose = 0
  · have none : r.entries = [] := if_pos hidden
    rw [none] at shape
    cases shape
    exact none
  · have pair {values : List UInt8} (count : values.length = r.palette.toList.length) :
        ∃ palette page, values = [palette, page] := by
      rw [Vector.length_toList] at count
      exact List.length_eq_two.mp count
    by_cases alone : r.expose = 1
    · simp only [entries, if_neg hidden, if_pos alone] at shape
      obtain ⟨values, rest, rfl, count, behind⟩ := Entry.exists_array_of_sameShape shape
      obtain ⟨palette, page, rfl⟩ := pair count
      cases behind
      simp [entries, restore, alone]
    · simp only [entries, if_neg hidden, if_neg alone] at shape
      obtain ⟨values, rest, rfl, count, behind⟩ := Entry.exists_array_of_sameShape shape
      obtain ⟨palette, page, rfl⟩ := pair count
      obtain _ | ⟨counter, _ | ⟨later, _ | ⟨cursor, last⟩⟩⟩ := behind
      cases counter
      cases later
      cases cursor
      cases last
      simp [entries, restore, hidden, alone]

namespace Engine

variable {H : Type} [Host H]

/-! ### States -/

/-- What a load makes of an engine: the fields of the machine are read from the first bytes, with everything over that
    was under way, and those of the host, if it has part in states, from the rest. -/
structure LoadedFrom (e : Engine H) (bytes : Bytes) (version : UInt16) (loaded : Engine H) : Prop where
  machine : AllRead version 0 (bytes.take (e.world.machine.stateSize version)) e.world.machine.entries
    loaded.world.machine.entries
  settled : loaded.world.machine = e.world.machine.withSaved loaded.world.machine
  host : e.hostState = true → ∃ fields,
    AllRead version 0 (bytes.drop (e.world.machine.stateSize version)) (Host.entries e.world.host) fields ∧
      loaded.world.host = Host.restore fields e.world.host
  hostAlone : e.hostState = false → loaded.world.host = e.world.host
  hostState : loaded.hostState = e.hostState

theorem checkState_eq_ok_iff {e : Engine H} {bytes : Bytes} {version : UInt16} :
    e.checkState bytes version = .ok () ↔ checkVersion version = .ok () ∧ bytes.length = e.stateSize version := by
  unfold checkState
  rcases checked : checkVersion version with error | _
  · simp
  · by_cases full : bytes.length = e.stateSize version <;> simp [full]

theorem hostEntries_of_alone {e : Engine H} (alone : e.hostState = false) : e.hostEntries = [] := by
  simp [hostEntries, alone]

theorem stateSize_of_bare {e : Engine H} (bare : e.hostEntries = []) (version : UInt16) :
    e.stateSize version = e.world.machine.stateSize version := by
  rw [stateSize, bare]
  rfl

/-- A host takes over any block of the right size, or none if states have none of it. -/
theorem loadHost_reads {e : Engine H} {bytes : Bytes} {version : UInt16}
    (full : bytes.length = Entry.measure version e.hostEntries) :
    ∃ loaded, e.loadHost bytes version = (.ok bytes.length, loaded) ∧
      loaded.world.machine = e.world.machine ∧ loaded.hostState = e.hostState ∧
      (e.hostState = true → ∃ fields, AllRead version 0 bytes (Host.entries e.world.host) fields ∧
        loaded.world.host = Host.restore fields e.world.host) ∧
      (e.hostState = false → loaded.world.host = e.world.host) := by
  by_cases shared : e.hostState = true
  · have entries : e.hostEntries = Host.entries e.world.host := by simp [hostEntries, shared]
    obtain ⟨fields, log, walked, read⟩ := Walker.walk_load_reads full
    rw [entries] at walked read
    refine ⟨{ e with world.host := Host.restore fields e.world.host }.note log, ?_, rfl, rfl, ?_, ?_⟩
    · simp only [loadHost, shared, if_true, entries, walked]
    · intro _
      exact ⟨fields, read, rfl⟩
    · intro alone
      cases shared.symm.trans alone
  · have alone := Bool.eq_false_iff.mpr shared
    rw [hostEntries_of_alone alone] at full
    have none : bytes.length = 0 := full
    refine ⟨e, ?_, rfl, rfl, ?_, fun _ => rfl⟩
    · simp [loadHost, alone, none]
    · intro shared
      cases shared.symm.trans alone

theorem load_of_refused {e : Engine H} {bytes : Bytes} {version : UInt16} {error : StateError}
    (refused : e.checkState bytes version = .error error) : e.load bytes version = (.error error, e) := by
  simp only [load, refused]

/-- Bytes of the right length and version are all taken over. -/
theorem load_of_accepted {e : Engine H} {bytes : Bytes} {version : UInt16}
    (accepted : e.checkState bytes version = .ok ()) :
    ∃ loaded, e.load bytes version = (.ok bytes.length, loaded) ∧ e.LoadedFrom bytes version loaded := by
  obtain ⟨known, full⟩ := checkState_eq_ok_iff.mp accepted
  rw [stateSize] at full
  have front : (bytes.take (e.world.machine.stateSize version)).length = e.world.machine.stateSize version := by
    rw [List.length_take, full]
    omega
  have behind : (bytes.drop (e.world.machine.stateSize version)).length = Entry.measure version e.hostEntries := by
    rw [List.length_drop, full]
    omega
  obtain ⟨machine, log, loads, read, settled⟩ :=
    Machine.load_reads (Machine.checkState_eq_ok_iff.mpr ⟨known, front⟩)
  -- the machine is changed before the fields of the host are read, but the host is the one whose size was checked
  obtain ⟨loaded, hosted, sameMachine, sameState, host, hostAlone⟩ :=
    loadHost_reads (e := { e with world.machine := machine }.note log) behind
  refine ⟨loaded, ?_, ?_⟩
  · simp only [load, accepted, loads, hosted, front, behind, full]
  · have same : loaded.world.machine = machine := sameMachine
    rw [← same] at read settled
    exact ⟨read, settled, host, hostAlone, sameState⟩

/-- A load is refused for its version or its length and for nothing else, before anything has changed. Every other load
    takes over all bytes, and a host that has the fields that it is given then has those of the rest. -/
theorem load_rejects_first (e : Engine H) (bytes : Bytes) (version : UInt16) :
    ((∃ error, (e.load bytes version).1 = .error error) ↔
      version = 0 ∨ currentVersion < version ∨ bytes.length ≠ e.stateSize version) ∧
    (∀ error, (e.load bytes version).1 = .error error → (e.load bytes version).2 = e) ∧
    (¬(version = 0 ∨ currentVersion < version ∨ bytes.length ≠ e.stateSize version) →
      ∃ loaded, e.load bytes version = (.ok bytes.length, loaded) ∧ e.LoadedFrom bytes version loaded ∧
        (e.hostState = true → Host.Retains e.world.host →
          AllRead version 0 (bytes.drop (e.world.machine.stateSize version)) (Host.entries e.world.host)
            (Host.entries loaded.world.host))) := by
  have zero : version = 0 ↔ version.toNat = 0 := UInt16.toNat_inj.symm
  have lowest : 1 ≤ version ↔ 1 ≤ version.toNat := UInt16.le_iff_toNat_le
  have refusal : e.checkState bytes version = .ok () ↔
      ¬(version = 0 ∨ currentVersion < version ∨ bytes.length ≠ e.stateSize version) := by
    rw [checkState_eq_ok_iff, checkVersion_eq_ok_iff, lowest, UInt16.le_iff_toNat_le, zero, UInt16.lt_iff_toNat_lt]
    omega
  rcases checked : e.checkState bytes version with error | _
  · have refused : ¬¬(version = 0 ∨ currentVersion < version ∨ bytes.length ≠ e.stateSize version) := by
      rw [← refusal, checked]
      exact nofun
    rw [load_of_refused checked]
    refine ⟨⟨fun _ => Decidable.not_not.mp refused, fun _ => ⟨error, rfl⟩⟩, fun _ _ => rfl, ?_⟩
    intro known
    exact absurd known refused
  · have known := refusal.mp checked
    obtain ⟨loaded, loads, read⟩ := load_of_accepted checked
    rw [loads]
    refine ⟨⟨?_, fun refused => absurd refused known⟩, ?_, ?_⟩
    · rintro ⟨error, failed⟩
      cases failed
    · intro error failed
      cases failed
    · intro _
      refine ⟨loaded, rfl, read, ?_⟩
      intro shared retains
      obtain ⟨fields, readFields, given⟩ := read.host shared
      rw [given, retains fields readFields.sameShape]
      exact readFields

/-- A machine that has stopped, with a host that has fields of three widths and one of a later version. -/
theorem load_rejects_first_recorder :
    let e : Engine Recorder := { world := { machine := { aborted := true }, host := { expose := 2 } }, hostState := true }
    let fields : Bytes := [7, 9, 0xFE, 0xFF, 0xFF, 0xFF, 1, 0, 0, 0]
    Host.Retains e.world.host ∧ ∃ loaded, e.load (List.replicate 1408 0xFF ++ fields) 1 = (.ok 1418, loaded) ∧
      loaded.world.machine.aborted = false ∧
      AllRead 1 0 fields (Host.entries e.world.host) (Host.entries loaded.world.host) := by
  intro e fields
  have retains : Host.Retains e.world.host := Recorder.retains _
  have block : e.world.machine.stateSize 1 = 1408 := Machine.stateSize_eq _
  have size : e.stateSize 1 = 1418 := by
    rw [stateSize, block]
    decide
  have length : (List.replicate 1408 (0xFF : UInt8) ++ fields).length = 1418 := by
    rw [List.length_append, List.length_replicate]
    rfl
  obtain ⟨-, -, accepts⟩ := e.load_rejects_first (List.replicate 1408 0xFF ++ fields) 1
  obtain ⟨loaded, loads, read, host⟩ := accepts (by rw [size, length]; decide)
  have hosted := host rfl retains
  rw [block, List.drop_left' List.length_replicate] at hosted
  rw [length] at loads
  refine ⟨retains, loaded, loads, ?_, hosted⟩
  rw [read.settled]
  rfl

/-! ### State files -/

theorem saveHost_of_bare {e : Engine H} (bare : e.hostEntries = []) {bytes : Bytes} {cursor : Nat}
    (inside : cursor ≤ bytes.length) (log : Log) :
    ∃ log', e.saveHost ⟨.save bytes, currentVersion, 0, cursor⟩ log = ⟨.ok cursor, bytes, log'⟩ := by
  have unwritten : Bytes.overlay cursor [] bytes = bytes := by
    rw [Bytes.overlay, List.append_nil]
    exact List.take_append_drop cursor bytes
  have walked : Walker.walk ⟨.save bytes, currentVersion, 0, cursor⟩ [] =
      ⟨⟨.save (Bytes.overlay cursor [] bytes), currentVersion, 0, cursor⟩, [], .ok (),
        Walker.report ⟨.save bytes, currentVersion, 0, cursor⟩ 0⟩ := Walker.walk_save inside
  rw [unwritten] at walked
  rw [saveHost, bare, walked]
  split
  · exact ⟨_, rfl⟩
  · exact ⟨log, rfl⟩

/-- A state that has nothing of the host is written as the image of the machine. -/
theorem saveFile_of_bare {e : Engine H} (bare : e.hostEntries = []) : ∃ log, e.saveFile =
    (.ok { part := e.world.machine.currentPart.getD Part.first, payload := e.world.machine.image.toArray }, log) := by
  have fits : (List.replicate (e.stateSize currentVersion) (0 : UInt8)).length =
      e.world.machine.stateSize currentVersion := by
    rw [List.length_replicate, stateSize_of_bare bare]
  have room : ¬(List.replicate (e.stateSize currentVersion) (0 : UInt8)).length < e.stateSize currentVersion := by
    rw [List.length_replicate]
    exact Nat.lt_irrefl _
  have whole : e.world.machine.stateSize currentVersion ≤ e.world.machine.image.length :=
    Nat.le_of_eq (by rw [Machine.stateSize_eq, Machine.length_image])
  obtain ⟨log, walked⟩ := e.world.machine.walk_image fits
  obtain ⟨log', saved⟩ := saveHost_of_bare bare whole log
  refine ⟨log', ?_⟩
  simp only [saveFile, save, Option.elim, Walker.capacity?, room, if_false, save.go, walked, saved]

theorem LoadedFrom.note {e loaded : Engine H} {bytes : Bytes} {version : UInt16}
    (read : e.LoadedFrom bytes version loaded) (log : Log) : e.LoadedFrom bytes version (loaded.note log) :=
  ⟨read.machine, read.settled, read.host, read.hostAlone, read.hostState⟩

theorem loadPayload_of_accepted {e : Engine H} {f : StateFile}
    (accepted : e.checkState f.payload.toList f.version = .ok ()) :
    ∃ loaded, e.loadPayload f = (.ok (), loaded) ∧ e.LoadedFrom f.payload.toList f.version loaded := by
  obtain ⟨loaded, loads, read⟩ := load_of_accepted accepted
  exact ⟨loaded, by simp only [loadPayload, loads], read⟩

end Engine

end Framescript
