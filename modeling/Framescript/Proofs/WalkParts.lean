import Framescript.Proofs.FailedWalks

/-!
Walks in parts. A walk over two lists, one behind the other, goes well if and only if a walk over the first does and then,
from where that ended, a walk over the second, and both ways lead to the same buffer, fields and cursor
(`Walker.walk_parts`).
-/
namespace Framescript

namespace Entry

theorem goesOn_of_ne_stop {entry : Entry} (other : entry ≠ .stop) : entry.isStop = false :=
  Bool.eq_false_iff.mpr fun ends => other (eq_stop ends)

/-- Where the first of two lists has no end of its own, what takes part in both is what takes part in each. -/
theorem participants_append {first : List Entry} (endless : .stop ∉ first) (version : UInt16) (second : List Entry) :
    participants version (first ++ second) = participants version first ++ participants version second := by
  induction first with
  | nil => rfl
  | cons entry first ih =>
    obtain ⟨other, endless⟩ := List.ne_and_not_mem_of_not_mem_cons endless
    have goesOn := goesOn_of_ne_stop other.symm
    rw [List.cons_append, participants_cons goesOn, participants_cons goesOn, ih endless]
    split <;> rfl

end Entry

namespace Walker

variable {w : Walker} {first : List Entry}

theorem image_append (endless : .stop ∉ first) (version : UInt16) (base : UInt64) (second : List Entry) :
    image version base (first ++ second) = image version base first ++ image version base second := by
  rw [image, Entry.participants_append endless, List.flatMap_append, image, image]

theorem measure_append (endless : .stop ∉ first) (version : UInt16) (second : List Entry) :
    Entry.measure version (first ++ second) = Entry.measure version first + Entry.measure version second := by
  rw [← length_image version 0, image_append endless, List.length_append, length_image, length_image]

/-! ### Saving -/

theorem checkPositions_append {base : UInt64} {first second : List Entry} :
    checkPositions base (first ++ second) = .ok () ↔
      checkPositions base first = .ok () ∧ checkPositions base second = .ok () := by
  induction first with
  | nil => exact ⟨fun checked => ⟨rfl, checked⟩, And.right⟩
  | cons entry first ih =>
    rw [List.cons_append, checkPositions_cons, checkPositions_cons base entry first]
    cases checkPositions base [entry] with
    | error e =>
      refine iff_of_false ?_ fun checked => ?_
      · rintro ⟨⟩
      · cases checked.1
    | ok _ => exact ih

theorem hasRoom_put_iff {image : Bytes} {count : Nat} (here : w.hasRoom image.length = true) :
    (w.put image).hasRoom count = true ↔ w.hasRoom (image.length + count) = true := by
  refine ⟨fun room => ?_, hasRoom_put⟩
  rw [hasRoom_iff, capacity?_put here] at room
  rw [hasRoom_iff]
  intro available capacity
  have := room available capacity
  have : (w.put image).cursor = w.cursor + image.length := rfl
  omega

/-- A save or a count goes well if and only if there is room and every position can be stored. -/
theorem save_eq_ok_iff (saving : w.isLoading = false) {entries : List Entry} :
    (w.walk entries).result = .ok () ↔
      w.hasRoom (Entry.measure w.version entries) = true ∧
        checkPositions w.base (Entry.participants w.version entries) = .ok () := by
  refine ⟨fun well => ?_, fun fine => walk_of_checked saving fine.1 fine.2⟩
  have room := room_of_ok well
  refine ⟨room, ?_⟩
  rcases checked : checkPositions w.base (Entry.participants w.version entries) with e | _
  · rw [walk_of_misplaced saving room checked] at well
    cases well
  · rfl

theorem save_of_well (saving : w.isLoading = false) {entries : List Entry}
    (well : (w.walk entries).result = .ok ()) :
    (w.walk entries).walker = w.put (image w.version w.base entries) ∧ (w.walk entries).entries = entries := by
  obtain ⟨room, checked⟩ := (save_eq_ok_iff saving).mp well
  rw [walk_of_room room, go_of_saving saving, save_of_checked saving checked]
  exact ⟨rfl, rfl⟩

theorem save_parts_eq_ok_iff (saving : w.isLoading = false) (endless : .stop ∉ first) (second : List Entry) :
    (w.walk (first ++ second)).result = .ok () ↔
      (w.walk first).result = .ok () ∧ ((w.walk first).walker.walk second).result = .ok () := by
  have later : (w.put (image w.version w.base first)).isLoading = false := (isLoading_put w _).trans saving
  -- the second walk has the room that the first has left of what the whole needs
  have rooms (here : w.hasRoom (Entry.measure w.version first) = true) :
      (w.put (image w.version w.base first)).hasRoom (Entry.measure w.version second) = true ↔
        w.hasRoom (Entry.measure w.version (first ++ second)) = true := by
    rw [← length_image w.version w.base first] at here
    rw [hasRoom_put_iff here, measure_append endless, length_image]
  rw [save_eq_ok_iff saving, Entry.participants_append endless, checkPositions_append]
  constructor
  · rintro ⟨room, checked, checked'⟩
    have here : w.hasRoom (Entry.measure w.version first) = true :=
      hasRoom_mono room (by rw [measure_append endless]; exact Nat.le_add_right _ _)
    have well : (w.walk first).result = .ok () := (save_eq_ok_iff saving).mpr ⟨here, checked⟩
    rw [(save_of_well saving well).1]
    exact ⟨well, (save_eq_ok_iff later).mpr ⟨(rooms here).mpr room, checked'⟩⟩
  · rintro ⟨well, well'⟩
    obtain ⟨here, checked⟩ := (save_eq_ok_iff saving).mp well
    rw [(save_of_well saving well).1] at well'
    obtain ⟨there, checked'⟩ := (save_eq_ok_iff later).mp well'
    exact ⟨(rooms here).mp there, checked, checked'⟩

theorem save_parts (saving : w.isLoading = false) (endless : .stop ∉ first) (second : List Entry)
    (well : (w.walk (first ++ second)).result = .ok ()) :
    ((w.walk first).walker.walk second).walker = (w.walk (first ++ second)).walker ∧
      (w.walk first).entries ++ ((w.walk first).walker.walk second).entries = (w.walk (first ++ second)).entries := by
  obtain ⟨well', well''⟩ := (save_parts_eq_ok_iff saving endless second).mp well
  obtain ⟨walker, fields⟩ := save_of_well saving well'
  rw [walker] at well'' ⊢
  obtain ⟨walker', fields'⟩ := save_of_well ((isLoading_put w _).trans saving) well''
  obtain ⟨walker'', fields''⟩ := save_of_well saving well
  have here : w.hasRoom (image w.version w.base first).length = true := by
    rw [length_image]
    exact room_of_ok well'
  refine ⟨?_, by rw [fields, fields', fields'']⟩
  rw [walker', walker'', image_append endless]
  exact put_append here

/-! ### Loading -/

/-- What is left of the load of a list that goes on with `second`, of which `back` is left. A load that breaks off in
    front of `second` leaves it alone. -/
def Loaded.followedBy (front : Loaded) (second : List Entry) (back : Loaded) : Loaded :=
  match front.result with
  | .ok () => ⟨front.entries ++ back.entries, front.read + back.read, back.result⟩
  | .error e => ⟨front.entries ++ second, front.read, .error e⟩

theorem loadEntries_append (endless : .stop ∉ first) (version : UInt16) (base : UInt64) (second : List Entry)
    (bytes : Bytes) :
    loadEntries version base (first ++ second) bytes =
      (loadEntries version base first bytes).followedBy second
        (loadEntries version base second (bytes.drop (loadEntries version base first bytes).read)) := by
  induction first generalizing bytes with
  | nil => simp [loadEntries, Loaded.followedBy]
  | cons entry first ih =>
    obtain ⟨other, endless⟩ := List.ne_and_not_mem_of_not_mem_cons endless
    have goesOn := Entry.goesOn_of_ne_stop other.symm
    rw [List.cons_append]
    by_cases applies : entry.appliesTo version = true
    · rcases here : load base bytes entry with e | returned
      · rw [loadEntries_of_refused applies here, loadEntries_of_refused applies here]
        rfl
      · rw [loadEntries_of_loaded applies here, loadEntries_of_loaded applies here, ih endless, ← List.drop_drop]
        simp only [Loaded.followedBy]
        cases (loadEntries version base first (bytes.drop entry.storedSize)).result with
        | error e => rfl
        | ok _ => simp only [List.cons_append, Nat.add_assoc]
    · have absent := Bool.eq_false_iff.mpr applies
      rw [loadEntries_of_absent goesOn absent, loadEntries_of_absent goesOn absent, ih endless]
      simp only [Loaded.followedBy]
      cases (loadEntries version base first bytes).result <;> rfl

theorem Loaded.followedBy_eq_ok_iff {front back : Loaded} {second : List Entry} :
    (front.followedBy second back).result = .ok () ↔ front.result = .ok () ∧ back.result = .ok () := by
  obtain ⟨fields, read, result⟩ := front
  cases result with
  | error e =>
    refine iff_of_false ?_ fun both => ?_
    · rintro ⟨⟩
    · cases both.1
  | ok _ => exact ⟨fun well => ⟨rfl, well⟩, And.right⟩

section load

variable {bytes : Bytes} {version : UInt16} {base : UInt64} {cursor : Nat}

/-- A load that goes well has read what was measured. -/
theorem read_of_well {entries : List Entry} (enough : Entry.measure version entries ≤ bytes.length)
    (well : (loadEntries version base entries bytes).result = .ok ()) :
    (loadEntries version base entries bytes).read = Entry.measure version entries := by
  have outcome : Outcome version base entries bytes _ := loadEntries_outcome enough
  generalize loadEntries version base entries bytes = loaded at well outcome ⊢
  cases outcome with
  | whole formed read => rfl
  | broken i offset fields here first front => cases well

theorem load_eq_ok_iff {entries : List Entry} :
    (walk ⟨.load bytes, version, base, cursor⟩ entries).result = .ok () ↔
      cursor + Entry.measure version entries ≤ bytes.length ∧
        (loadEntries version base entries (bytes.drop cursor)).result = .ok () := by
  constructor
  · intro well
    have room : cursor + Entry.measure version entries ≤ bytes.length := hasRoom_iff.mp (room_of_ok well) _ rfl
    rw [walk_load room] at well
    exact ⟨room, well⟩
  · rintro ⟨room, well⟩
    rw [walk_load room]
    exact well

theorem load_of_well {entries : List Entry}
    (well : (walk ⟨.load bytes, version, base, cursor⟩ entries).result = .ok ()) :
    (walk ⟨.load bytes, version, base, cursor⟩ entries).walker =
        ⟨.load bytes, version, base, cursor + Entry.measure version entries⟩ ∧
      (walk ⟨.load bytes, version, base, cursor⟩ entries).entries =
        (loadEntries version base entries (bytes.drop cursor)).entries := by
  obtain ⟨room, loaded⟩ := load_eq_ok_iff.mp well
  have enough : Entry.measure version entries ≤ (bytes.drop cursor).length := by
    rw [List.length_drop]
    omega
  rw [walk_load room]
  simp only [walk.go, read_of_well enough loaded, and_self]

/-- The load of both lists in terms of the loads of each, the second from where the first ends. -/
theorem loadEntries_parts (endless : .stop ∉ first)
    (well : (walk ⟨.load bytes, version, base, cursor⟩ first).result = .ok ()) (second : List Entry) :
    loadEntries version base (first ++ second) (bytes.drop cursor) =
      (loadEntries version base first (bytes.drop cursor)).followedBy second
        (loadEntries version base second (bytes.drop (cursor + Entry.measure version first))) := by
  obtain ⟨room, loaded⟩ := load_eq_ok_iff.mp well
  have enough : Entry.measure version first ≤ (bytes.drop cursor).length := by
    rw [List.length_drop]
    omega
  rw [loadEntries_append endless, read_of_well enough loaded, List.drop_drop]

theorem load_parts_eq_ok_iff (endless : .stop ∉ first) (second : List Entry) :
    (walk ⟨.load bytes, version, base, cursor⟩ (first ++ second)).result = .ok () ↔
      (walk ⟨.load bytes, version, base, cursor⟩ first).result = .ok () ∧
        ((walk ⟨.load bytes, version, base, cursor⟩ first).walker.walk second).result = .ok () := by
  rw [load_eq_ok_iff, measure_append endless, ← Nat.add_assoc]
  constructor
  · rintro ⟨room, loaded⟩
    have front : (loadEntries version base first (bytes.drop cursor)).result = .ok () := by
      rw [loadEntries_append endless] at loaded
      exact (Loaded.followedBy_eq_ok_iff.mp loaded).1
    have well : (walk ⟨.load bytes, version, base, cursor⟩ first).result = .ok () :=
      load_eq_ok_iff.mpr ⟨by omega, front⟩
    rw [loadEntries_parts endless well] at loaded
    rw [(load_of_well well).1]
    exact ⟨well, load_eq_ok_iff.mpr ⟨room, (Loaded.followedBy_eq_ok_iff.mp loaded).2⟩⟩
  · rintro ⟨well, well'⟩
    rw [(load_of_well well).1, load_eq_ok_iff] at well'
    rw [loadEntries_parts endless well]
    exact ⟨well'.1, Loaded.followedBy_eq_ok_iff.mpr ⟨(load_eq_ok_iff.mp well).2, well'.2⟩⟩

theorem load_parts (endless : .stop ∉ first) (second : List Entry)
    (well : (walk ⟨.load bytes, version, base, cursor⟩ (first ++ second)).result = .ok ()) :
    ((walk ⟨.load bytes, version, base, cursor⟩ first).walker.walk second).walker =
        (walk ⟨.load bytes, version, base, cursor⟩ (first ++ second)).walker ∧
      (walk ⟨.load bytes, version, base, cursor⟩ first).entries ++
          ((walk ⟨.load bytes, version, base, cursor⟩ first).walker.walk second).entries =
        (walk ⟨.load bytes, version, base, cursor⟩ (first ++ second)).entries := by
  obtain ⟨well', well''⟩ := (load_parts_eq_ok_iff endless second).mp well
  obtain ⟨walker, fields⟩ := load_of_well well'
  rw [walker] at well'' ⊢
  obtain ⟨walker', fields'⟩ := load_of_well well''
  obtain ⟨walker'', fields''⟩ := load_of_well well
  constructor
  · rw [walker', walker'', measure_append endless, Nat.add_assoc]
  · rw [fields, fields', fields'', loadEntries_parts endless well']
    simp only [Loaded.followedBy, (load_eq_ok_iff.mp well').2]

end load

/-! ### Both ways -/

/-- Blocks compose. A walk over two lists in one, counting, saving or loading, goes well if and only if a walk over the
    first list does and then a walk over the second, with the walker as the first walk left it. Then the buffer, the
    cursor and all fields are the same in the end. -/
theorem walk_parts (w : Walker) {first : List Entry} (endless : .stop ∉ first) (second : List Entry) :
    let whole := w.walk (first ++ second)
    let front := w.walk first
    let back := front.walker.walk second
    (whole.result = .ok () ↔ front.result = .ok () ∧ back.result = .ok ()) ∧
      (whole.result = .ok () → back.walker = whole.walker ∧ front.entries ++ back.entries = whole.entries) := by
  intro whole front back
  cases loading : w.isLoading with
  | false => exact ⟨save_parts_eq_ok_iff loading endless second, save_parts loading endless second⟩
  | true =>
    obtain ⟨buffer, version, base, cursor⟩ := w
    cases buffer with
    | load bytes => exact ⟨load_parts_eq_ok_iff endless second, load_parts endless second⟩
    | _ => cases loading

/-- A load from the middle of a buffer, of a word and a position and then of two signed bytes, with a field of later
    versions between these. -/
theorem walk_parts_middle :
    let first : List Entry := [.int .u16 (0x0102 : UInt16) .word (.since 1), .position 7 ⟨1, 3⟩]
    let second : List Entry :=
      [.int .u32 (9 : UInt32) .long ⟨2, 3⟩, .array ⟨.i8, ([5, -6] : List Int8)⟩ .byte (.since 1)]
    let loader : Walker := ⟨.load [0xAA, 3, 4, 2, 0, 0, 0, 8, 0xFF, 0xBB], 1, 40, 1⟩
    let whole := loader.walk (first ++ second)
    let front := loader.walk first
    let back := front.walker.walk second
    .stop ∉ first ∧ front.result = .ok () ∧ back.result = .ok () ∧ back.walker = whole.walker ∧
      whole.walker.cursor = 9 ∧ front.entries ++ back.entries = whole.entries ∧
      whole.entries = [.int .u16 (0x0403 : UInt16) .word (.since 1), .position 42 ⟨1, 3⟩,
        .int .u32 (9 : UInt32) .long ⟨2, 3⟩, .array ⟨.i8, ([8, -1] : List Int8)⟩ .byte (.since 1)] := by
  intro first second loader whole front back
  have endless : .stop ∉ first := by decide
  have well : whole.result = .ok () := by decide +kernel
  obtain ⟨both, same⟩ := walk_parts loader endless second
  obtain ⟨walker, fields⟩ := same well
  exact ⟨endless, (both.mp well).1, (both.mp well).2, walker, by decide +kernel, fields, by decide +kernel⟩

end Walker

end Framescript
