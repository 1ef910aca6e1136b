import Framescript.Proofs.WalkWindows

/-!
What walks that fail leave behind. A save that fails has touched nothing, and it fails for a buffer that is too short or
for a position that four bytes cannot hold (`Walker.failed_save_untouched`). A load that fails has touched nothing if its
buffer is too short; but a distance that leads beyond all positions is met on the way, and what stands in front of it has
been loaded by then (`Walker.failed_load_breaks_off`).
-/
namespace Framescript

namespace Entry

/-! ### Positions that cannot be stored -/

/-- Why the distance of a position from the base is nothing that four bytes hold. -/
inductive Unstorable (base p : UInt64) : StateError → Prop
  | before (below : p.toNat < base.toNat) : Unstorable base p (.positionBeforeBase p base)
  | far (above : base.toNat + (2 ^ 32 - 1) < p.toNat) :
    Unstorable base p (.positionOutOfRange (p.toNat - base.toNat))

theorem exists_unstorable_iff {base p : UInt64} :
    (∃ e, Unstorable base p e) ↔ p.toNat < base.toNat ∨ base.toNat + (2 ^ 32 - 1) < p.toNat := by
  constructor
  · rintro ⟨e, below | above⟩
    · exact .inl below
    · exact .inr above
  · rintro (below | above)
    · exact ⟨_, .before below⟩
    · exact ⟨_, .far above⟩

theorem positionOffset_eq_error_iff {base p : UInt64} {e : StateError} :
    Walker.positionOffset base p = .error e ↔ Unstorable base p e := by
  unfold Walker.positionOffset
  by_cases below : p < base
  · have below' := UInt64.lt_iff_toNat_lt.mp below
    rw [if_pos below]
    constructor
    · rintro ⟨⟩
      exact .before below'
    · rintro (_ | above)
      · rfl
      · omega
  · have behind : base.toNat ≤ p.toNat := UInt64.le_iff_toNat_le.mp (UInt64.not_lt.mp below)
    rw [if_neg below]
    by_cases near : p.toNat - base.toNat < 0x100000000
    · rw [if_pos near]
      constructor
      · rintro ⟨⟩
      · rintro (below' | above) <;> omega
    · rw [if_neg near]
      constructor
      · rintro ⟨⟩
        exact .far (by omega)
      · rintro (below' | _)
        · omega
        · rfl

/-- At place `i` of a list a position takes part that cannot be stored, for the reason `e`. -/
structure Misplaced (version : UInt16) (base : UInt64) (entries : List Entry) (i : Nat) (e : StateError) : Prop where
  position : ∃ p versions, TakesPart version entries i (.position p versions) ∧ Unstorable base p e

section

variable {version : UInt16} {base : UInt64} {entry : Entry} {entries : List Entry} {i : Nat} {e : StateError}

theorem not_misplaced_of_stop : ¬ Misplaced version base (.stop :: entries) i e := by
  rintro ⟨p, versions, takes, -⟩
  exact not_takesPart_of_stop takes

theorem misplaced_zero_iff (applies : entry.appliesTo version = true) :
    Misplaced version base (entry :: entries) 0 e ↔ Walker.checkPositions base [entry] = .error e := by
  constructor
  · rintro ⟨p, versions, takes, unstorable⟩
    obtain ⟨rfl, -⟩ := takesPart_zero_iff.mp takes
    simp only [Walker.checkPositions, positionOffset_eq_error_iff.mpr unstorable]
  · intro refused
    cases entry with
    | position p versions =>
      rcases measured : Walker.positionOffset base p with e' | offset
      · simp only [Walker.checkPositions, measured] at refused
        cases refused
        exact ⟨p, versions, takesPart_zero_iff.mpr ⟨rfl, applies⟩, positionOffset_eq_error_iff.mp measured⟩
      · simp only [Walker.checkPositions, measured] at refused
        cases refused
    | _ => cases refused

theorem misplaced_succ_iff (goesOn : entry.isStop = false) :
    Misplaced version base (entry :: entries) (i + 1) e ↔ Misplaced version base entries i e := by
  constructor
  · rintro ⟨p, versions, takes, unstorable⟩
    exact ⟨p, versions, (takesPart_succ_iff goesOn).mp takes, unstorable⟩
  · rintro ⟨p, versions, takes, unstorable⟩
    exact ⟨p, versions, (takesPart_succ_iff goesOn).mpr takes, unstorable⟩

/-- The first position of a list that cannot be stored. -/
def FirstMisplaced (version : UInt16) (base : UInt64) (entries : List Entry) (i : Nat) (e : StateError) : Prop :=
  Misplaced version base entries i e ∧ ∀ j < i, ∀ other, ¬ Misplaced version base entries j other

theorem exists_firstMisplaced (here : Misplaced version base entries i e) :
    ∃ j other, FirstMisplaced version base entries j other := by
  induction i using Nat.strongRecOn generalizing e with
  | ind i ih =>
    by_cases earlier : ∃ j < i, ∃ other, Misplaced version base entries j other
    · obtain ⟨j, before, other, there⟩ := earlier
      exact ih j before there
    · exact ⟨i, e, here, fun j before other there => earlier ⟨j, before, other, there⟩⟩

/-- In front of an entry with which nothing is wrong the first such position is one place further on. -/
theorem exists_firstMisplaced_cons_iff (goesOn : entry.isStop = false)
    (fine : ∀ other, ¬ Misplaced version base (entry :: entries) 0 other) :
    (∃ i, FirstMisplaced version base (entry :: entries) i e) ↔ ∃ i, FirstMisplaced version base entries i e := by
  constructor
  · rintro ⟨i, here, first⟩
    cases i with
    | zero => exact absurd here (fine e)
    | succ i =>
      refine ⟨i, (misplaced_succ_iff goesOn).mp here, ?_⟩
      intro j before other misplaced
      exact first (j + 1) (by omega) other ((misplaced_succ_iff goesOn).mpr misplaced)
  · rintro ⟨i, here, first⟩
    refine ⟨i + 1, (misplaced_succ_iff goesOn).mpr here, ?_⟩
    intro j before other misplaced
    cases j with
    | zero => exact fine other misplaced
    | succ j => exact first j (by omega) other ((misplaced_succ_iff goesOn).mp misplaced)

end

end Entry

namespace Walker

open Entry (AllRead TakesPart Unformed Misplaced FirstMisplaced)

theorem checkPositions_cons (base : UInt64) (entry : Entry) (entries : List Entry) :
    checkPositions base (entry :: entries) = (checkPositions base [entry]).bind fun _ => checkPositions base entries := by
  cases entry with
  | position p versions =>
    rcases measured : positionOffset base p with e | offset <;> simp only [checkPositions, measured] <;> rfl
  | _ => rfl

/-- The check in front of a save finds the first position that the save would not be able to write. -/
theorem checkPositions_eq_error_iff {version : UInt16} {base : UInt64} {entries : List Entry} {e : StateError} :
    checkPositions base (Entry.participants version entries) = .error e ↔
      ∃ i, FirstMisplaced version base entries i e := by
  induction entries with
  | nil =>
    constructor
    · rintro ⟨⟩
    · rintro ⟨i, ⟨p, versions, ⟨here, -, -⟩, -⟩, -⟩
      cases here
  | cons entry entries ih =>
    by_cases ends : entry.isStop = true
    · obtain rfl := Entry.eq_stop ends
      constructor
      · rintro ⟨⟩
      · rintro ⟨i, here, -⟩
        exact absurd here Entry.not_misplaced_of_stop
    · have goesOn := Bool.eq_false_iff.mpr ends
      rw [Entry.participants_cons goesOn]
      by_cases applies : entry.appliesTo version = true
      · rw [if_pos applies, checkPositions_cons]
        rcases here : checkPositions base [entry] with e' | _
        · have misplaced : Misplaced version base (entry :: entries) 0 e' := (Entry.misplaced_zero_iff applies).mpr here
          constructor
          · rintro ⟨⟩
            exact ⟨0, misplaced, fun j before => absurd before (Nat.not_lt_zero j)⟩
          · rintro ⟨i, found, first⟩
            cases i with
            | zero => exact here.symm.trans ((Entry.misplaced_zero_iff applies).mp found)
            | succ i => exact absurd misplaced (first 0 (Nat.succ_pos i) e')
        · have fine : ∀ other, ¬ Misplaced version base (entry :: entries) 0 other := by
            intro other misplaced
            cases here.symm.trans ((Entry.misplaced_zero_iff applies).mp misplaced)
          exact ih.trans (Entry.exists_firstMisplaced_cons_iff goesOn fine).symm
      · have fine : ∀ other, ¬ Misplaced version base (entry :: entries) 0 other := by
          rintro other ⟨p, versions, takes, -⟩
          obtain ⟨rfl, applies'⟩ := Entry.takesPart_zero_iff.mp takes
          exact applies applies'
        rw [if_neg applies]
        exact ih.trans (Entry.exists_firstMisplaced_cons_iff goesOn fine).symm

/-! ### Saves that fail -/

variable {entries : List Entry}

theorem walk_of_misplaced {w : Walker} (saving : w.isLoading = false)
    (room : w.hasRoom (Entry.measure w.version entries) = true) {e : StateError}
    (refused : checkPositions w.base (Entry.participants w.version entries) = .error e) :
    w.walk entries = w.refuse entries e := by
  rw [walk_of_room room, go_of_saving saving]
  simp only [save, refused]

theorem walk_of_checked {w : Walker} (saving : w.isLoading = false)
    (room : w.hasRoom (Entry.measure w.version entries) = true)
    (checked : checkPositions w.base (Entry.participants w.version entries) = .ok ()) :
    (w.walk entries).result = .ok () := by
  rw [walk_of_room room, go_of_saving saving, save_of_checked saving checked]

theorem exists_capacity_of_full {w : Walker} {count : Nat} (full : w.hasRoom count = false) :
    ∃ available, w.capacity? = some available ∧ available < w.cursor + count := by
  unfold hasRoom at full
  split at full
  · cases full
  · rename_i available capacity
    exact ⟨available, capacity, by simpa using full⟩

theorem failed_save_eq {w : Walker} (saving : w.isLoading = false) {e : StateError}
    (failed : (w.walk entries).result = .error e) : w.walk entries = w.refuse entries e := by
  cases room : w.hasRoom (Entry.measure w.version entries) with
  | true =>
    rcases checked : checkPositions w.base (Entry.participants w.version entries) with e' | _
    · rw [walk_of_misplaced saving room checked] at failed ⊢
      cases failed
      rfl
    · cases (walk_of_checked saving room checked).symm.trans failed
  | false =>
    obtain ⟨available, capacity, short⟩ := exists_capacity_of_full room
    rw [walk_of_short capacity short] at failed ⊢
    cases failed
    rfl

/-- With room enough, the error of a save is that of the first position that cannot be stored. -/
theorem save_eq_error_iff {w : Walker} (saving : w.isLoading = false)
    (room : w.hasRoom (Entry.measure w.version entries) = true) {e : StateError} :
    (w.walk entries).result = .error e ↔ ∃ i, FirstMisplaced w.version w.base entries i e := by
  rw [← checkPositions_eq_error_iff]
  rcases checked : checkPositions w.base (Entry.participants w.version entries) with e' | _
  · rw [walk_of_misplaced saving room checked]
    exact Iff.rfl
  · rw [walk_of_checked saving room checked]

theorem buffer_of_capacity {w : Walker} (saving : w.isLoading = false) {available : Nat}
    (capacity : w.capacity? = some available) : ∃ bytes, w.buffer = .save bytes ∧ bytes.length = available := by
  obtain ⟨buffer, version, base, cursor⟩ := w
  cases buffer with
  | count => cases capacity
  | save bytes => exact ⟨bytes, rfl, Option.some.inj capacity⟩
  | load bytes => cases saving

theorem capacity_of_buffer {w : Walker} {bytes : Bytes} (buffer : w.buffer = .save bytes) :
    w.capacity? = some bytes.length := by
  rw [capacity?, buffer]

/-- A save or a count that fails changes nothing, not even on the way. It fails if and only if its buffer ends in front
    of the last entry, or a position that takes part lies before the base or further behind it than four bytes can say.
    The buffer is what it fails for first, and then the first such position. -/
theorem failed_save_untouched {w : Walker} (saving : w.isLoading = false) (entries : List Entry) :
    (∀ e, (w.walk entries).result = .error e →
      w.walk entries = ⟨w, entries, .error e, #[]⟩ ∧ w.piecewise entries = some ⟨w, entries, .error e, #[]⟩) ∧
    ((∃ e, (w.walk entries).result = .error e) ↔
      (∃ bytes, w.buffer = .save bytes ∧ bytes.length < w.cursor + Entry.measure w.version entries) ∨
        ∃ i p versions, TakesPart w.version entries i (.position p versions) ∧
          (p.toNat < w.base.toNat ∨ w.base.toNat + (2 ^ 32 - 1) < p.toNat)) ∧
    (∀ bytes, w.buffer = .save bytes → bytes.length < w.cursor + Entry.measure w.version entries →
      (w.walk entries).result =
        .error (.bufferTooSmall (w.cursor + Entry.measure w.version entries) bytes.length)) ∧
    (w.hasRoom (Entry.measure w.version entries) = true → ∀ e,
      (w.walk entries).result = .error e ↔ ∃ i, FirstMisplaced w.version w.base entries i e) := by
  have short (bytes : Bytes) (buffer : w.buffer = .save bytes)
      (ends : bytes.length < w.cursor + Entry.measure w.version entries) :
      (w.walk entries).result =
        .error (.bufferTooSmall (w.cursor + Entry.measure w.version entries) bytes.length) := by
    rw [walk_of_short (capacity_of_buffer buffer) ends, refuse]
  refine ⟨?_, ?_, short, fun room e => save_eq_error_iff saving room⟩
  · intro e failed
    have same := failed_save_eq saving failed
    exact ⟨same, (w.piecewise_eq entries).trans (congrArg some same)⟩
  · cases room : w.hasRoom (Entry.measure w.version entries) with
    | true =>
      constructor
      · rintro ⟨e, failed⟩
        obtain ⟨i, ⟨p, versions, takes, unstorable⟩, -⟩ := (save_eq_error_iff saving room).mp failed
        exact .inr ⟨i, p, versions, takes, Entry.exists_unstorable_iff.mp ⟨e, unstorable⟩⟩
      · rintro (⟨bytes, buffer, ends⟩ | ⟨i, p, versions, takes, apart⟩)
        · exact ⟨_, short bytes buffer ends⟩
        · obtain ⟨e, unstorable⟩ := Entry.exists_unstorable_iff.mpr apart
          obtain ⟨j, other, first⟩ := Entry.exists_firstMisplaced ⟨p, versions, takes, unstorable⟩
          exact ⟨other, (save_eq_error_iff saving room).mpr ⟨j, first⟩⟩
    | false =>
      obtain ⟨available, capacity, ends⟩ := exists_capacity_of_full room
      obtain ⟨bytes, buffer, rfl⟩ := buffer_of_capacity saving capacity
      exact ⟨fun _ => .inl ⟨bytes, buffer, ends⟩, fun _ => ⟨_, short bytes buffer ends⟩⟩

/-- The last of three fields is a position too far behind the base; the first two would have been written by then. -/
theorem failed_save_untouched_farPosition :
    let entries : List Entry := [.int .i16 (-5 : Int16) .word (.since 1), .position 30 (.since 1),
      .position 0x100000014 (.since 1), .stop, .position 3 (.since 1)]
    let w : Walker := ⟨.save (List.replicate 12 0xAA), 1, 20, 2⟩
    w.isLoading = false ∧ (w.walk entries).result = .error (.positionOutOfRange 0x100000000) ∧
      (w.walk entries).walker = w ∧ (w.walk entries).entries = entries := by
  intro entries w
  have failed : (w.walk entries).result = .error (.positionOutOfRange 0x100000000) := by decide +kernel
  obtain ⟨same, -⟩ := (failed_save_untouched (w := w) rfl entries).1 _ failed
  exact ⟨rfl, failed, by rw [same], by rw [same]⟩

/-! ### Loads that fail -/

/-- What is left of a load of `bytes` that broke off at the position at place `i`. -/
structure BrokenOff (w : Walker) (bytes : Bytes) (entries : List Entry) (i offset : Nat) (done : Walked) : Prop where
  here : Unformed w.version w.base entries (bytes.drop w.cursor) i offset
  first : ∀ j < i, ∀ other, ¬ Unformed w.version w.base entries (bytes.drop w.cursor) j other
  result : done.result = .error (.positionOutOfRange offset)
  front : AllRead w.version w.base ((bytes.drop w.cursor).take (Entry.measure w.version (entries.take i)))
    (entries.take i) (done.entries.take i)
  behind : done.entries.drop i = entries.drop i
  walker : done.walker = { w with cursor := w.cursor + Entry.measure w.version (entries.take i) + 4 }

theorem brokenOff_of_broken {bytes : Bytes} {version : UInt16} {base : UInt64} {cursor i offset : Nat}
    {fields : List Entry} (here : Unformed version base entries (bytes.drop cursor) i offset)
    (first : ∀ j < i, ∀ other, ¬ Unformed version base entries (bytes.drop cursor) j other)
    (front : AllRead version base ((bytes.drop cursor).take (Entry.measure version (entries.take i))) (entries.take i)
      fields) (log : Log) :
    BrokenOff ⟨.load bytes, version, base, cursor⟩ bytes entries i offset
      ⟨⟨.load bytes, version, base, cursor + (Entry.measure version (entries.take i) + 4)⟩, fields ++ entries.drop i,
        .error (.positionOutOfRange offset), log⟩ := by
  obtain ⟨p, versions, takes⟩ := here.position
  have inside : i < entries.length := (List.getElem?_eq_some_iff.mp takes.here).1
  have count : fields.length = i := by
    rw [← front.sameShape.length_eq, List.length_take]
    omega
  refine ⟨here, first, rfl, ?_, List.drop_left' count, ?_⟩
  · rw [List.take_left' count]
    exact front
  · rw [Nat.add_assoc]

/-- A load that fails changes nothing if and only if its buffer is too short. Otherwise it breaks off at the first
    position whose distance leads beyond all positions: the fields in front of it have been read, it and all that follow
    are as they were, and the cursor stands behind its bytes. From a base that leaves room for every distance that four
    bytes hold, no load breaks off. -/
theorem failed_load_breaks_off {w : Walker} {bytes : Bytes} (loading : w.buffer = .load bytes) (entries : List Entry) :
    ((∃ e, (w.walk entries).result = .error e) ↔
      bytes.length < w.cursor + Entry.measure w.version entries ∨
        ∃ i offset, Unformed w.version w.base entries (bytes.drop w.cursor) i offset) ∧
    (∀ e, (w.walk entries).result = .error e →
      ((w.walk entries).walker = w ∧ (w.walk entries).entries = entries ↔
        bytes.length < w.cursor + Entry.measure w.version entries)) ∧
    (∀ e, (w.walk entries).result = .error e → w.cursor + Entry.measure w.version entries ≤ bytes.length →
      ∃ i offset, BrokenOff w bytes entries i offset (w.walk entries)) ∧
    (w.base.toNat + (2 ^ 32 - 1) < 2 ^ 64 → ∀ e, (w.walk entries).result = .error e →
      (w.walk entries).walker = w ∧ (w.walk entries).entries = entries) := by
  obtain ⟨buffer, version, base, cursor⟩ := w
  cases loading
  by_cases short : bytes.length < cursor + Entry.measure version entries
  · have refused : walk ⟨.load bytes, version, base, cursor⟩ entries = _ := walk_of_short rfl short
    rw [refused]
    refine ⟨⟨fun _ => .inl short, fun _ => ⟨_, rfl⟩⟩, ?_, ?_, ?_⟩
    · exact fun e _ => ⟨fun _ => short, fun _ => ⟨rfl, rfl⟩⟩
    · exact fun e _ room => absurd short (Nat.not_lt.mpr room)
    · exact fun _ e _ => ⟨rfl, rfl⟩
  · have room := Nat.not_lt.mp short
    obtain ⟨loaded, log, outcome, walked⟩ := walk_load_outcome room
    rw [walked]
    cases outcome with
    | whole formed read =>
      refine ⟨⟨?_, ?_⟩, ?_, ?_, ?_⟩
      · rintro ⟨e, ⟨⟩⟩
      · rintro (short' | ⟨i, offset, unformed⟩)
        · exact absurd short' short
        · exact absurd unformed (formed i offset)
      · rintro e ⟨⟩
      · rintro e ⟨⟩
      · rintro - e ⟨⟩
    | broken i offset fields here first front =>
      refine ⟨⟨fun _ => .inr ⟨i, offset, here⟩, fun _ => ⟨_, rfl⟩⟩, ?_, ?_, ?_⟩
      · intro e _
        constructor
        · rintro ⟨same, -⟩
          have moved : cursor + (Entry.measure version (entries.take i) + 4) = cursor := congrArg Walker.cursor same
          omega
        · exact fun short' => absurd short' short
      · exact fun e _ _ => ⟨i, offset, brokenOff_of_broken here first front log⟩
      · intro leaves
        have := here.beyond_base
        simp only at leaves
        omega

/-- A distance of 1 from the last position of all. The byte in front of it has been loaded when it is met. -/
theorem failed_load_breaks_off_lastBase :
    let entries : List Entry := [.int .u8 (7 : UInt8) .byte (.since 1), .position 3 (.since 1)]
    let w : Walker := ⟨.load [9, 1, 0, 0, 0], 1, 0xFFFFFFFFFFFFFFFF, 0⟩
    w.buffer = .load [9, 1, 0, 0, 0] ∧ (w.walk entries).result = .error (.positionOutOfRange 1) ∧
      (w.walk entries).entries = [.int .u8 (9 : UInt8) .byte (.since 1), .position 3 (.since 1)] ∧
      (w.walk entries).walker.cursor = 5 ∧ ¬ ((w.walk entries).walker = w ∧ (w.walk entries).entries = entries) ∧
      ∃ i offset, BrokenOff w [9, 1, 0, 0, 0] entries i offset (w.walk entries) := by
  intro entries w
  have failed : (w.walk entries).result = .error (.positionOutOfRange 1) := by decide +kernel
  have fields : (w.walk entries).entries = [.int .u8 (9 : UInt8) .byte (.since 1), .position 3 (.since 1)] := by
    decide +kernel
  have moved : (w.walk entries).walker.cursor = 5 := by decide +kernel
  obtain ⟨-, unchanged, breaks, -⟩ := failed_load_breaks_off (w := w) rfl entries
  have room : w.cursor + Entry.measure w.version entries ≤ 5 := by decide +kernel
  refine ⟨rfl, failed, fields, moved, ?_, breaks _ failed room⟩
  rw [unchanged _ failed]
  exact Nat.not_lt.mpr room

end Walker

end Framescript
