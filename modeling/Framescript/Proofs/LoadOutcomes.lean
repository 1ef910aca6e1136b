import Framescript.Proofs.Walks

/-!
What a load makes of bytes that nobody has saved. Each field that takes part is read from bytes of its own, one field
after the other, and nothing else decides its new value (`Entry.ReadFrom`, `Entry.AllRead`). All of them are read, or the
load breaks off at the first position whose distance leads beyond all positions (`Walker.loadEntries_outcome`).
-/
namespace Framescript

namespace Entry

/-- What an entry is when it has been read from `bytes`. -/
inductive ReadFrom (base : UInt64) : Bytes → Entry → Entry → Prop
  | int {kind : ScalarKind} (old : kind.Value) {width : Width} (versions : VersionRange) {bytes : Bytes}
    (full : bytes.length = width.bytes) :
    ReadFrom base bytes (.int kind old width versions) (.int kind (kind.ofBits (Bytes.ofLittle bytes)) width versions)
  /-- The bytes of an array are those of its elements. -/
  | array {kind : ScalarKind} {old : List kind.Value} {width : Width} (versions : VersionRange) {pieces : List Bytes}
    (count : pieces.length = old.length) (full : ∀ piece ∈ pieces, piece.length = width.bytes) :
    ReadFrom base pieces.flatten (.array ⟨kind, old⟩ width versions)
      (.array ⟨kind, pieces.map fun piece => kind.ofBits (Bytes.ofLittle piece)⟩ width versions)
  | position (old : UInt64) {new : UInt64} (versions : VersionRange) {bytes : Bytes} (full : bytes.length = 4)
    (distance : new.toNat = base.toNat + Bytes.ofLittle bytes) :
    ReadFrom base bytes (.position old versions) (.position new versions)

/-- What entries are when those that take part have been read from `bytes`, one after the other. -/
inductive AllRead (version : UInt16) (base : UInt64) : Bytes → List Entry → List Entry → Prop
  | nil : AllRead version base [] [] []
  /-- Behind the end of the list nothing is read. -/
  | stop (entries : List Entry) : AllRead version base [] (.stop :: entries) (.stop :: entries)
  /-- An entry of other versions keeps its value. -/
  | other {entry : Entry} {bytes : Bytes} {old new : List Entry} (absent : entry.appliesTo version = false)
    (goesOn : entry.isStop = false) (rest : AllRead version base bytes old new) :
    AllRead version base bytes (entry :: old) (entry :: new)
  | read {entry returned : Entry} {front bytes : Bytes} {old new : List Entry}
    (applies : entry.appliesTo version = true) (here : ReadFrom base front entry returned)
    (rest : AllRead version base bytes old new) :
    AllRead version base (front ++ bytes) (entry :: old) (returned :: new)

theorem SameShape.refl (entry : Entry) : SameShape entry entry := by
  cases entry with
  | int kind value width versions => exact .int kind value value width versions
  | array cells width versions => exact .array cells.kind width versions rfl
  | position p versions => exact .position p p versions
  | stop => exact .stop

theorem ReadFrom.sameShape {base : UInt64} {bytes : Bytes} {old new : Entry} (read : ReadFrom base bytes old new) :
    SameShape old new := by
  cases read with
  | int old versions full => exact .int _ _ _ _ _
  | array versions count full => exact .array _ _ _ (by rw [List.length_map, count])
  | position old versions full distance => exact .position _ _ _

theorem AllRead.sameShape {version : UInt16} {base : UInt64} {bytes : Bytes} {old new : List Entry}
    (read : AllRead version base bytes old new) : List.Forall₂ SameShape old new := by
  induction read with
  | nil => exact .nil
  | stop entries => exact .cons .stop (List.forall₂_same.mpr fun entry _ => .refl entry)
  | other absent goesOn rest ih => exact .cons (.refl _) ih
  | read applies here rest ih => exact .cons here.sameShape ih

/-! ### Fields that take part -/

theorem goesOn_of_applies {version : UInt16} {entry : Entry} (applies : entry.appliesTo version = true) :
    entry.isStop = false := by
  cases entry with
  | stop => cases applies
  | _ => rfl

/-- The entry `entry` stands at place `i` of a list, in front of its end, and takes part at a format version. -/
structure TakesPart (version : UInt16) (entries : List Entry) (i : Nat) (entry : Entry) : Prop where
  here : entries[i]? = some entry
  inBody : .stop ∉ entries.take i
  applies : entry.appliesTo version = true

theorem not_takesPart_of_stop {version : UInt16} {entries : List Entry} {i : Nat} {entry : Entry} :
    ¬ TakesPart version (.stop :: entries) i entry := by
  rintro ⟨here, inBody, applies⟩
  cases i with
  | zero =>
    cases here
    cases applies
  | succ i => exact inBody List.mem_cons_self

theorem takesPart_zero_iff {version : UInt16} {first entry : Entry} {entries : List Entry} :
    TakesPart version (first :: entries) 0 entry ↔ first = entry ∧ entry.appliesTo version = true := by
  constructor
  · rintro ⟨here, -, applies⟩
    exact ⟨Option.some.inj here, applies⟩
  · rintro ⟨rfl, applies⟩
    exact ⟨rfl, by simp, applies⟩

theorem takesPart_succ_iff {version : UInt16} {first entry : Entry} {entries : List Entry} {i : Nat}
    (goesOn : first.isStop = false) :
    TakesPart version (first :: entries) (i + 1) entry ↔ TakesPart version entries i entry := by
  have other : Entry.stop ≠ first := by
    rintro rfl
    cases goesOn
  constructor
  · rintro ⟨here, inBody, applies⟩
    exact ⟨by simpa using here, fun inside => inBody (List.mem_cons_of_mem _ inside), applies⟩
  · rintro ⟨here, inBody, applies⟩
    refine ⟨by simpa using here, ?_, applies⟩
    rw [List.take_succ_cons, List.mem_cons, not_or]
    exact ⟨other, inBody⟩

/-- A field that takes no part keeps its value in a load. -/
theorem AllRead.getElem?_of_absent {version : UInt16} {base : UInt64} {bytes : Bytes} {old new : List Entry}
    (read : AllRead version base bytes old new) {i : Nat} (absent : ∀ entry, ¬ TakesPart version old i entry) :
    new[i]? = old[i]? := by
  induction read generalizing i with
  | nil => rfl
  | stop entries => rfl
  | other apart goesOn rest ih =>
    cases i with
    | zero => rfl
    | succ i =>
      rw [List.getElem?_cons_succ, List.getElem?_cons_succ]
      exact ih fun entry takes => absent entry ((takesPart_succ_iff goesOn).mpr takes)
  | read applies here rest ih =>
    cases i with
    | zero => exact absurd (takesPart_zero_iff.mpr ⟨rfl, applies⟩) (absent _)
    | succ i =>
      rw [List.getElem?_cons_succ, List.getElem?_cons_succ]
      exact ih fun entry takes => absent entry ((takesPart_succ_iff (goesOn_of_applies applies)).mpr takes)

/-! ### Positions that cannot be formed -/

/-- At place `i` of a list a position takes part, and the distance that `bytes` hold for it leads beyond all positions. -/
structure Unformed (version : UInt16) (base : UInt64) (entries : List Entry) (bytes : Bytes) (i offset : Nat) :
    Prop where
  position : ∃ p versions, TakesPart version entries i (.position p versions)
  stored : offset = Bytes.ofLittle ((bytes.drop (measure version (entries.take i))).take 4)
  beyond : 2 ^ 64 ≤ base.toNat + offset

variable {version : UInt16} {base : UInt64} {entry : Entry} {entries : List Entry} {bytes : Bytes} {i offset : Nat}

theorem not_unformed_of_stop : ¬ Unformed version base (.stop :: entries) bytes i offset := by
  rintro ⟨⟨p, versions, takes⟩, -, -⟩
  exact not_takesPart_of_stop takes

/-- A position cannot be formed at once if and only if its load fails. -/
theorem unformed_zero_iff (applies : entry.appliesTo version = true) :
    Unformed version base (entry :: entries) bytes 0 offset ↔
      Walker.load base bytes entry = .error (.positionOutOfRange offset) := by
  constructor
  · rintro ⟨⟨p, versions, takes⟩, stored, beyond⟩
    obtain ⟨rfl, -⟩ := takesPart_zero_iff.mp takes
    have none : measure version (List.take 0 (Entry.position p versions :: entries)) = 0 := rfl
    rw [none, List.drop_zero] at stored
    subst stored
    exact if_neg (Nat.not_lt.mpr beyond)
  · intro refused
    cases entry with
    | position p versions =>
      simp only [Walker.load] at refused
      split at refused
      · cases refused
      · rename_i beyond
        cases refused
        exact ⟨⟨p, versions, takesPart_zero_iff.mpr ⟨rfl, applies⟩⟩, rfl, Nat.not_lt.mp beyond⟩
    | _ => cases refused

/-- Behind an entry the positions find what its bytes leave. -/
theorem unformed_succ_iff (goesOn : entry.isStop = false) :
    Unformed version base (entry :: entries) bytes (i + 1) offset ↔
      Unformed version base entries (bytes.drop (if entry.appliesTo version then entry.storedSize else 0)) i offset := by
  constructor
  · rintro ⟨⟨p, versions, takes⟩, stored, beyond⟩
    rw [List.take_succ_cons, measure_cons goesOn, ← List.drop_drop] at stored
    exact ⟨⟨p, versions, (takesPart_succ_iff goesOn).mp takes⟩, stored, beyond⟩
  · rintro ⟨⟨p, versions, takes⟩, stored, beyond⟩
    refine ⟨⟨p, versions, (takesPart_succ_iff goesOn).mpr takes⟩, ?_, beyond⟩
    rw [List.take_succ_cons, measure_cons goesOn, ← List.drop_drop]
    exact stored

/-- Four bytes hold distances below `2 ^ 32`, so that only the last bases of all can be too far. -/
theorem Unformed.beyond_base (unformed : Unformed version base entries bytes i offset) :
    2 ^ 64 ≤ base.toNat + (2 ^ 32 - 1) := by
  obtain ⟨-, stored, beyond⟩ := unformed
  have below : offset < Bytes.capacity 4 := by
    rw [stored]
    exact Bytes.ofLittle_take_lt 4 _
  have : Bytes.capacity 4 = 0x100000000 := rfl
  omega

end Entry

/-- The bytes that elements are loaded from, element by element. -/
theorem Cells.exists_pieces (kind : ScalarKind) (width : Width) (shape : List kind.Value) {bytes : Bytes}
    (enough : shape.length * width.bytes ≤ bytes.length) :
    ∃ pieces : List Bytes, pieces.length = shape.length ∧ (∀ piece ∈ pieces, piece.length = width.bytes) ∧
      bytes.take (shape.length * width.bytes) = pieces.flatten ∧
      loadElements kind width shape bytes = pieces.map fun piece => kind.ofBits (Bytes.ofLittle piece) := by
  induction shape generalizing bytes with
  | nil => exact ⟨[], rfl, by simp, by simp, rfl⟩
  | cons old shape ih =>
    rw [List.length_cons, Nat.add_one_mul] at enough ⊢
    have behind : shape.length * width.bytes ≤ (bytes.drop width.bytes).length := by rw [List.length_drop]; omega
    obtain ⟨pieces, count, full, flat, loaded⟩ := ih behind
    have first : (bytes.take width.bytes).length = width.bytes := by rw [List.length_take]; omega
    refine ⟨bytes.take width.bytes :: pieces, by rw [List.length_cons, count], ?_, ?_, ?_⟩
    · simpa using ⟨by omega, full⟩
    · rw [List.flatten_cons, ← flat, Nat.add_comm, List.take_add]
    · rw [loadElements, loaded, List.map_cons]

namespace Walker

open Entry (ReadFrom AllRead Unformed)

theorem readFrom_of_load {base : UInt64} {bytes : Bytes} {entry returned : Entry} (goesOn : entry.isStop = false)
    (enough : entry.storedSize ≤ bytes.length) (loaded : load base bytes entry = .ok returned) :
    ReadFrom base (bytes.take entry.storedSize) entry returned := by
  cases entry with
  | int kind old width versions =>
    cases loaded
    exact .int old versions (List.length_take_of_le enough)
  | array cells width versions =>
    obtain ⟨kind, olds⟩ := cells
    obtain ⟨pieces, count, full, flat, elements⟩ := Cells.exists_pieces kind width olds enough
    rw [load, Cells.load_eq_loadElements kind olds width bytes enough, elements] at loaded
    cases loaded
    rw [Entry.storedSize, flat]
    exact .array versions count full
  | position old versions =>
    simp only [load] at loaded
    split at loaded
    · rename_i fits
      cases loaded
      exact .position old versions (List.length_take_of_le enough) (UInt64.toNat_ofNat_of_lt' fits)
    · cases loaded
  | stop => cases goesOn

/-- What a load makes of entries, if there are bytes enough for them. -/
inductive Outcome (version : UInt16) (base : UInt64) (entries : List Entry) (bytes : Bytes) : Loaded → Prop
  | whole {fields : List Entry} (formed : ∀ i offset, ¬ Unformed version base entries bytes i offset)
    (read : AllRead version base (bytes.take (Entry.measure version entries)) entries fields) :
    Outcome version base entries bytes ⟨fields, Entry.measure version entries, .ok ()⟩
  /-- The first position that cannot be formed ends the load. What stands in front of it has been read. -/
  | broken (i offset : Nat) (fields : List Entry) (here : Unformed version base entries bytes i offset)
    (first : ∀ j < i, ∀ other, ¬ Unformed version base entries bytes j other)
    (front : AllRead version base (bytes.take (Entry.measure version (entries.take i))) (entries.take i) fields) :
    Outcome version base entries bytes
      ⟨fields ++ entries.drop i, Entry.measure version (entries.take i) + 4, .error (.positionOutOfRange offset)⟩

variable {version : UInt16} {base : UInt64} {entry returned : Entry} {entries : List Entry} {bytes : Bytes}

/-- One entry more in front, which takes `moved` bytes, does not change how a load ends. -/
theorem Outcome.cons {rest : Loaded} {moved : Nat}
    (outcome : Outcome version base entries (bytes.drop moved) rest) (goesOn : entry.isStop = false)
    (moves : (if entry.appliesTo version then entry.storedSize else 0) = moved)
    (formed : ∀ other, ¬ Unformed version base (entry :: entries) bytes 0 other)
    (reads : ∀ {count : Nat} {old new : List Entry}, AllRead version base ((bytes.drop moved).take count) old new →
      AllRead version base (bytes.take (moved + count)) (entry :: old) (returned :: new)) :
    Outcome version base (entry :: entries) bytes ⟨returned :: rest.entries, moved + rest.read, rest.result⟩ := by
  subst moves
  cases outcome with
  | whole formed' read =>
    rw [← Entry.measure_cons goesOn]
    refine .whole ?_ ?_
    · intro i offset unformed
      cases i with
      | zero => exact formed offset unformed
      | succ i => exact formed' i offset ((Entry.unformed_succ_iff goesOn).mp unformed)
    · rw [Entry.measure_cons goesOn]
      exact reads read
  | broken i offset fields here first front =>
    rw [← Nat.add_assoc, ← Entry.measure_cons goesOn]
    refine .broken (i + 1) offset (returned :: fields) ((Entry.unformed_succ_iff goesOn).mpr here) ?_ ?_
    · intro j before other unformed
      cases j with
      | zero => exact formed other unformed
      | succ j => exact first j (by omega) other ((Entry.unformed_succ_iff goesOn).mp unformed)
    · rw [List.take_succ_cons, Entry.measure_cons goesOn]
      exact reads front

/-- Only a position can fail to be loaded. -/
theorem exists_offset_of_refused {e : StateError} (refused : load base bytes entry = .error e) :
    entry.storedSize = 4 ∧ ∃ offset, e = .positionOutOfRange offset := by
  cases entry with
  | position p versions =>
    simp only [load] at refused
    split at refused
    · cases refused
    · cases refused
      exact ⟨rfl, _, rfl⟩
  | _ => cases refused

theorem loadEntries_outcome (enough : Entry.measure version entries ≤ bytes.length) :
    Outcome version base entries bytes (loadEntries version base entries bytes) := by
  induction entries generalizing bytes with
  | nil => exact .whole (by rintro i offset ⟨⟨p, versions, here, -, -⟩, -, -⟩; cases here) .nil
  | cons entry entries ih =>
    by_cases ends : entry.isStop = true
    · obtain rfl := Entry.eq_stop ends
      exact .whole (fun i offset => Entry.not_unformed_of_stop) (.stop entries)
    · have goesOn := Bool.eq_false_iff.mpr ends
      rw [Entry.measure_cons goesOn] at enough
      by_cases applies : entry.appliesTo version = true
      · rw [if_pos applies] at enough
        rcases loaded : load base bytes entry with e | returned
        · -- the entry in front is the first position that cannot be formed
          obtain ⟨size, offset, rfl⟩ := exists_offset_of_refused loaded
          rw [loadEntries_of_refused applies loaded, size]
          exact .broken 0 offset [] ((Entry.unformed_zero_iff applies).mpr loaded)
            (fun j before => absurd before (Nat.not_lt_zero j)) .nil
        · have left : Entry.measure version entries ≤ (bytes.drop entry.storedSize).length := by
            rw [List.length_drop]
            omega
          rw [loadEntries_of_loaded applies loaded]
          refine (ih left).cons goesOn (if_pos applies) ?_ ?_
          · intro other unformed
            cases loaded.symm.trans ((Entry.unformed_zero_iff applies).mp unformed)
          · intro count old new read
            rw [List.take_add]
            exact .read applies (readFrom_of_load goesOn (by omega) loaded) read
      · have absent := Bool.eq_false_iff.mpr applies
        rw [if_neg applies, Nat.zero_add] at enough
        rw [loadEntries_of_absent goesOn absent, ← Nat.zero_add (loadEntries version base entries bytes).read]
        refine (@ih (bytes.drop 0) enough).cons goesOn (if_neg applies) ?_ ?_
        · rintro other ⟨⟨p, versions, takes⟩, -, -⟩
          obtain ⟨rfl, applies'⟩ := Entry.takesPart_zero_iff.mp takes
          exact applies applies'
        · intro count old new read
          rw [Nat.zero_add]
          exact .other absent goesOn read

end Walker

end Framescript
