import Framescript.Proofs.Transfers

/-!
What walks that go well leave behind. A walk that goes well has touched the bytes that it measured, or the fields that
take part, and nothing else, and no walk leaves its buffer (`Walker.walk_touches_window`).
-/
namespace Framescript

namespace Bytes

/-- Bytes in front of what is written, and behind it, stay. -/
theorem getElem?_overlay_of_outside {start i : Nat} {image bytes : Bytes} (room : start + image.length ≤ bytes.length)
    (outside : i < start ∨ start + image.length ≤ i) : (overlay start image bytes)[i]? = bytes[i]? := by
  have size : (bytes.take start).length = start := by
    rw [List.length_take]
    omega
  rw [overlay, List.append_assoc]
  rcases outside with before | behind
  · rw [List.getElem?_append_left (by omega), List.getElem?_take_of_lt before]
  · rw [List.getElem?_append_right (by omega), List.getElem?_append_right (by omega), List.getElem?_drop, size]
    congr 1
    omega

end Bytes

namespace Walker

open Entry (AllRead TakesPart)

variable {version : UInt16} {base : UInt64} {entries : List Entry} {bytes : Bytes}

/-- A load that has room is a load of the bytes behind the cursor. -/
theorem walk_load_outcome {cursor : Nat} (room : cursor + Entry.measure version entries ≤ bytes.length) :
    ∃ loaded log, Outcome version base entries (bytes.drop cursor) loaded ∧
      walk ⟨.load bytes, version, base, cursor⟩ entries =
        ⟨⟨.load bytes, version, base, cursor + loaded.read⟩, loaded.entries, loaded.result, log⟩ := by
  have enough : Entry.measure version entries ≤ (bytes.drop cursor).length := by
    rw [List.length_drop]
    omega
  exact ⟨_, _, loadEntries_outcome enough, walk_load room⟩

/-! ### Walks that go well -/

/-- What a walk that goes well leaves behind. -/
structure TouchesWindow (w : Walker) (entries : List Entry) (done : Walked) : Prop where
  moved : done.walker.cursor = w.cursor + Entry.measure w.version entries
  settings : done.walker.version = w.version ∧ done.walker.base = w.base
  counted : w.buffer = .count → done.walker.buffer = .count ∧ done.entries = entries
  saved : ∀ bytes, w.buffer = .save bytes → done.entries = entries ∧
    ∃ after, done.walker.buffer = .save after ∧ after.length = bytes.length ∧
      (after.drop w.cursor).take (Entry.measure w.version entries) = image w.version w.base entries ∧
      ∀ i, i < w.cursor ∨ done.walker.cursor ≤ i → after[i]? = bytes[i]?
  loaded : ∀ bytes, w.buffer = .load bytes → done.walker.buffer = .load bytes ∧
    AllRead w.version w.base ((bytes.drop w.cursor).take (Entry.measure w.version entries)) entries done.entries ∧
    ∀ i, (∀ entry, ¬ TakesPart w.version entries i entry) → done.entries[i]? = entries[i]?

theorem room_of_ok {w : Walker} (well : (w.walk entries).result = .ok ()) :
    w.hasRoom (Entry.measure w.version entries) = true := by
  rw [hasRoom_iff]
  intro available capacity
  refine Nat.not_lt.mp fun short => ?_
  rw [walk_of_short capacity short] at well
  cases well

theorem touchesWindow_of_saving {w : Walker} (saving : w.isLoading = false)
    (room : w.hasRoom (Entry.measure w.version entries) = true) (log : Log) :
    TouchesWindow w entries ⟨w.put (image w.version w.base entries), entries, .ok (), log⟩ := by
  obtain ⟨buffer, version, base, cursor⟩ := w
  have moved : cursor + (image version base entries).length = cursor + Entry.measure version entries := by
    rw [length_image]
  refine ⟨moved, ⟨rfl, rfl⟩, ?_, ?_, ?_⟩
  · rintro ⟨⟩
    exact ⟨rfl, rfl⟩
  · rintro bytes ⟨⟩
    have fits : cursor + (image version base entries).length ≤ bytes.length := by
      rw [length_image]
      exact hasRoom_iff.mp room _ rfl
    refine ⟨rfl, Bytes.overlay cursor (image version base entries) bytes, rfl, length_overlay fits, ?_, ?_⟩
    · rw [drop_overlay fits]
      exact List.take_left' (length_image version base entries)
    · intro i outside
      exact Bytes.getElem?_overlay_of_outside fits outside
  · rintro bytes ⟨⟩
    cases saving

/-- A walk does not leave the buffer at any access. If it goes well, it moves on by what it has measured, in whatever
    direction it goes. Counting changes nothing else. A save changes bytes from the old cursor up to the new one, and no
    field; a load changes fields that take part. -/
theorem walk_touches_window (w : Walker) (entries : List Entry) :
    w.piecewise entries = some (w.walk entries) ∧
      ((w.walk entries).result = .ok () → TouchesWindow w entries (w.walk entries)) := by
  refine ⟨w.piecewise_eq entries, fun well => ?_⟩
  have room := room_of_ok well
  cases loading : w.isLoading with
  | false =>
    rw [walk_of_room room, go_of_saving loading] at well ⊢
    rcases checked : checkPositions w.base (Entry.participants w.version entries) with e | _
    · simp [save, checked, refuse] at well
    · rw [save_of_checked loading checked]
      exact touchesWindow_of_saving loading room _
  | true =>
    obtain ⟨buffer, version, base, cursor⟩ := w
    cases buffer with
    | load bytes =>
      obtain ⟨loaded, log, outcome, walked⟩ := walk_load_outcome (hasRoom_iff.mp room _ rfl)
      rw [walked] at well ⊢
      cases outcome with
      | whole formed read =>
        refine ⟨rfl, ⟨rfl, rfl⟩, ?_, ?_, ?_⟩
        · rintro ⟨⟩
        · rintro bytes ⟨⟩
        · rintro bytes ⟨⟩
          exact ⟨rfl, read, fun i absent => read.getElem?_of_absent absent⟩
      | broken i offset fields here first front =>
        -- a load that breaks off does not go well
        cases well
    | _ => cases loading

/-- A save and a load from the middle of a buffer, of a list with a field of later versions and with one behind its end. -/
theorem walk_touches_window_middle :
    let entries : List Entry := [.array ⟨.i16, ([7, -8] : List Int16)⟩ .byte (.since 1),
      .int .u32 (5 : UInt32) .word ⟨2, 3⟩, .position 41 (.since 1), .stop, .int .u8 (6 : UInt8) .byte (.since 1)]
    let saver : Walker := ⟨.save (List.replicate 8 0xAA), 1, 40, 1⟩
    let loader : Walker := ⟨.load [0xAA, 1, 0xFF, 3, 0, 0, 0, 0xBB], 1, 40, 1⟩
    ((saver.walk entries).result = .ok () ∧ TouchesWindow saver entries (saver.walk entries) ∧
      (saver.walk entries).walker = ⟨.save [0xAA, 7, 0xF8, 1, 0, 0, 0, 0xAA], 1, 40, 7⟩) ∧
    (loader.walk entries).result = .ok () ∧ TouchesWindow loader entries (loader.walk entries) ∧
      (loader.walk entries).entries = [.array ⟨.i16, ([1, 255] : List Int16)⟩ .byte (.since 1),
        .int .u32 (5 : UInt32) .word ⟨2, 3⟩, .position 43 (.since 1), .stop, .int .u8 (6 : UInt8) .byte (.since 1)] := by
  intro entries saver loader
  have saved : (saver.walk entries).result = .ok () := by decide +kernel
  have loaded : (loader.walk entries).result = .ok () := by decide +kernel
  exact ⟨⟨saved, (walk_touches_window saver entries).2 saved, by decide +kernel⟩, loaded,
    (walk_touches_window loader entries).2 loaded, by decide +kernel⟩

end Walker

end Framescript
