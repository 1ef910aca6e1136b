import Framescript.Proofs.LoadOutcomes

/-!
Walks access by access. `Walker.piecewise` carries a walk out the way a buffer in memory asks for: integer after integer
is written or read at the cursor, an access that leaves the buffer has no outcome at all, and a position is checked once
more when its turn comes. It always has an outcome, and that of `walk` (`Walker.piecewise_eq`), since the size that is
measured in advance is the size of all accesses together, and the positions that are checked in advance are the ones
that are written. So a walk touches the bytes that it has measured and no others (`Walker.walk_touches_window`).
-/
namespace Framescript

namespace Bytes

theorem overlay_nil (start : Nat) (bytes : Bytes) : overlay start [] bytes = bytes := by
  simp [overlay]

/-- What is written in two strokes, one behind the other, can be written in one. -/
theorem overlay_append {start : Nat} {first second bytes : Bytes}
    (room : start + first.length ≤ bytes.length) :
    overlay (start + first.length) second (overlay start first bytes) = overlay start (first ++ second) bytes := by
  have size : (bytes.take start ++ first).length = start + first.length := by
    rw [List.length_append, List.length_take]
    omega
  have front : (overlay start first bytes).take (start + first.length) = bytes.take start ++ first :=
    List.take_left' size
  have behind : (overlay start first bytes).drop (start + first.length + second.length) =
      bytes.drop (start + (first ++ second).length) := by
    rw [← List.drop_drop, overlay, List.drop_left' size, List.drop_drop, List.length_append, Nat.add_assoc]
  rw [overlay, front, behind, overlay, List.append_assoc (bytes.take start)]

end Bytes

namespace Walker

/-! ### Accesses -/

/-- Whether the buffer goes on for `count` bytes from the cursor. -/
def hasRoom (w : Walker) (count : Nat) : Bool :=
  match w.capacity? with
  | none => true
  | some available => w.cursor + count ≤ available

/-- The walker behind `image`, which it has written if it saves. -/
def put (w : Walker) (image : Bytes) : Walker where
  buffer := match w.buffer with
    | .save bytes => .save (Bytes.overlay w.cursor image bytes)
    | buffer => buffer
  version := w.version
  base := w.base
  cursor := w.cursor + image.length

/-- The bytes that a load has before it. -/
def ahead? (w : Walker) : Option Bytes :=
  match w.buffer with
  | .load bytes => some (bytes.drop w.cursor)
  | _ => none

/-- One access to the buffer: `image` is written, or as many bytes are found, and the cursor moves behind them. There is
    no outcome if the buffer does not go so far. -/
def access (w : Walker) (image : Bytes) : Option (Walker × Option Bytes) :=
  if w.hasRoom image.length then some (w.put image, w.ahead?.map (·.take image.length)) else none

/-- The elements of an array, each with an access of its own. -/
def transferElements (kind : ScalarKind) (width : Width) : Walker → List kind.Value → Option (Walker × List kind.Value)
  | w, [] => some (w, [])
  | w, value :: values =>
    match w.access (Cells.storeElement kind width value) with
    | none => none
    | some (w, found) =>
      let value := found.elim value fun piece => kind.ofBits (Bytes.ofLittle piece)
      (transferElements kind width w values).map fun (w, values) => (w, value :: values)

/-- An array. Bytes that are stored as bytes are one access. -/
def transferCells (w : Walker) (cells : Cells) (width : Width) : Option (Walker × Cells) :=
  match cells, width with
  | ⟨.u8, values⟩, .byte => (w.access values).map fun (w, found) => (w, ⟨.u8, found.getD values⟩)
  | ⟨kind, values⟩, width => (transferElements kind width w values).map fun (w, values) => (w, ⟨kind, values⟩)

/-- An entry that takes part. A position that is saved is checked here too. -/
def transfer (w : Walker) (entry : Entry) : Option (Walker × Except StateError Entry) :=
  match entry with
  | .array cells width versions =>
    (w.transferCells cells width).map fun (w, cells) => (w, .ok (.array cells width versions))
  | entry =>
    match if w.isLoading then .ok () else checkPositions w.base [entry] with
    | .error e => some (w, .error e)
    | .ok () =>
      (w.access (store w.base entry)).map fun (after, found) =>
        (after, found.elim (.ok entry) fun piece => load w.base piece entry)

/-- The entries of a list, one after the other, up to its end or to an error. -/
def transferAll : Walker → List Entry → Option (Walker × List Entry × Except StateError Unit)
  | w, [] => some (w, [], .ok ())
  | w, entry :: entries =>
    if entry.isStop then some (w, entry :: entries, .ok ())
    else if entry.appliesTo w.version then
      match w.transfer entry with
      | none => none
      | some (w, .error e) => some (w, entry :: entries, .error e)
      | some (w, .ok entry) => (transferAll w entries).map fun (w, entries, result) => (w, entry :: entries, result)
    else (transferAll w entries).map fun (w, entries, result) => (w, entry :: entries, result)

/-- A walk that is carried out access by access, if no access leaves the buffer. -/
def piecewise (w : Walker) (entries : List Entry) : Option Walked :=
  if w.hasRoom (Entry.measure w.version entries) then
    match if w.isLoading then .ok () else checkPositions w.base (Entry.participants w.version entries) with
    | .error e => some (w.refuse entries e)
    | .ok () =>
      (transferAll w entries).map fun (after, entries, result) =>
        ⟨after, entries, result,
          match result with
          | .ok () => w.report (after.cursor - w.cursor)
          | .error _ => #[]⟩
  else some (w.refuse entries (.bufferTooSmall (w.cursor + Entry.measure w.version entries) (w.capacity?.getD 0)))

theorem hasRoom_iff {w : Walker} {count : Nat} :
    w.hasRoom count = true ↔ ∀ available, w.capacity? = some available → w.cursor + count ≤ available := by
  unfold hasRoom
  cases w.capacity? with
  | none => simp
  | some available => simp

theorem hasRoom_mono {w : Walker} {more fewer : Nat} (room : w.hasRoom more = true) (le : fewer ≤ more) :
    w.hasRoom fewer = true := by
  rw [hasRoom_iff] at room ⊢
  intro available capacity
  have := room available capacity
  omega

theorem put_nil (w : Walker) : w.put [] = w := by
  obtain ⟨buffer, version, base, cursor⟩ := w
  cases buffer with
  | save bytes => simp only [put, Bytes.overlay_nil, List.length_nil, Nat.add_zero]
  | _ => rfl

theorem put_append {w : Walker} {first second : Bytes} (room : w.hasRoom first.length = true) :
    (w.put first).put second = w.put (first ++ second) := by
  obtain ⟨buffer, version, base, cursor⟩ := w
  have place : cursor + first.length + second.length = cursor + (first ++ second).length := by
    rw [List.length_append, Nat.add_assoc]
  cases buffer with
  | save bytes =>
    have fits : cursor + first.length ≤ bytes.length := hasRoom_iff.mp room _ rfl
    simp only [put, Bytes.overlay_append fits, place]
  | _ => simp only [put, place]

theorem capacity?_put {w : Walker} {image : Bytes} (room : w.hasRoom image.length = true) :
    (w.put image).capacity? = w.capacity? := by
  obtain ⟨buffer, version, base, cursor⟩ := w
  cases buffer with
  | save bytes => exact congrArg some (length_overlay (hasRoom_iff.mp room _ rfl))
  | _ => rfl

theorem hasRoom_put {w : Walker} {image : Bytes} {count : Nat} (room : w.hasRoom (image.length + count) = true) :
    (w.put image).hasRoom count = true := by
  have here : w.hasRoom image.length = true := hasRoom_mono room (Nat.le_add_right _ _)
  rw [hasRoom_iff, capacity?_put here]
  intro available capacity
  have := hasRoom_iff.mp room available capacity
  show w.cursor + image.length + count ≤ available
  omega

theorem isLoading_put (w : Walker) (image : Bytes) : (w.put image).isLoading = w.isLoading := by
  obtain ⟨buffer, version, base, cursor⟩ := w
  cases buffer <;> rfl

theorem ahead?_put (w : Walker) (image : Bytes) : (w.put image).ahead? = w.ahead?.map (·.drop image.length) := by
  obtain ⟨buffer, version, base, cursor⟩ := w
  cases buffer with
  | load bytes => exact congrArg some List.drop_drop.symm
  | _ => rfl

theorem access_of_room {w : Walker} {image : Bytes} (room : w.hasRoom image.length = true) :
    w.access image = some (w.put image, w.ahead?.map (·.take image.length)) :=
  if_pos room

/-! ### Entries -/

/-- The accesses to the elements of an array are one write of the array, or one read. -/
theorem transferElements_eq (kind : ScalarKind) (width : Width) {w : Walker} {values : List kind.Value}
    (room : w.hasRoom (values.length * width.bytes) = true) :
    transferElements kind width w values =
      some (w.put (Cells.storeElements ⟨kind, values⟩ width),
        w.ahead?.elim values (Cells.loadElements kind width values)) := by
  induction values generalizing w with
  | nil =>
    have none : Cells.storeElements ⟨kind, []⟩ width = [] := rfl
    rw [none, put_nil, transferElements]
    cases w.ahead? <;> rfl
  | cons value values ih =>
    have size := Cells.length_storeElement kind width value
    have joined : Cells.storeElement kind width value ++ Cells.storeElements ⟨kind, values⟩ width =
        Cells.storeElements ⟨kind, value :: values⟩ width := List.flatMap_cons.symm
    have both : w.hasRoom ((Cells.storeElement kind width value).length + values.length * width.bytes) = true := by
      rw [size, Nat.add_comm, ← Nat.add_one_mul]
      exact room
    have here := hasRoom_mono both (Nat.le_add_right _ _)
    rw [transferElements, access_of_room here]
    simp only [ih (hasRoom_put both), Option.map_some, ahead?_put, put_append here, size, joined]
    cases w.ahead? <;> rfl

theorem transferCells_eq {w : Walker} {cells : Cells} {width : Width}
    (room : w.hasRoom (cells.values.length * width.bytes) = true) :
    w.transferCells cells width = some (w.put (cells.store width), w.ahead?.elim cells (cells.load width)) := by
  have elements := transferElements_eq cells.kind width room
  obtain ⟨kind, values⟩ := cells
  cases kind with
  | u8 =>
    cases width with
    | byte =>
      have here : w.hasRoom values.length = true := Nat.mul_one values.length ▸ room
      show Option.map _ (w.access values) = _
      rw [access_of_room here]
      cases w.ahead? <;> rfl
    | _ =>
      show Option.map _ (transferElements _ _ w values) = _
      rw [elements]
      cases w.ahead? <;> rfl
  | _ =>
    show Option.map _ (transferElements _ _ w values) = _
    rw [elements]
    cases w.ahead? <;> rfl

/-- The accesses of an entry are one write of its stored bytes, or one load. -/
theorem transfer_eq {w : Walker} {entry : Entry} (room : w.hasRoom entry.storedSize = true)
    (checked : w.isLoading = true ∨ checkPositions w.base [entry] = .ok ()) :
    w.transfer entry =
      some (w.put (store w.base entry), w.ahead?.elim (.ok entry) fun bytes => load w.base bytes entry) := by
  have here : w.hasRoom (store w.base entry).length = true := by rw [length_store]; exact room
  have passes : (if w.isLoading then .ok () else checkPositions w.base [entry]) = .ok () := by
    rcases checked with loading | fine
    · rw [if_pos loading]
    · rw [fine, ite_self]
  cases entry with
  | array cells width versions =>
    have elements : w.transferCells cells width = _ := transferCells_eq room
    simp only [transfer, elements, Option.map_some, store]
    cases w.ahead? <;> rfl
  | _ =>
    -- a single value is loaded from no more than the bytes that are its own
    simp only [transfer, passes, access_of_room here, Option.map_some, length_store]
    cases w.ahead? with
    | none => rfl
    | some bytes => simp only [Option.map_some, Option.elim, load, Entry.storedSize, List.take_take, Nat.min_self]

/-! ### Lists -/

theorem transferAll_of_absent {w : Walker} {entry : Entry} (goesOn : entry.isStop = false)
    (absent : entry.appliesTo w.version = false) {entries new : List Entry} {after : Walker}
    {result : Except StateError Unit} (rest : w.transferAll entries = some (after, new, result)) :
    w.transferAll (entry :: entries) = some (after, entry :: new, result) := by
  simp only [transferAll, goesOn, absent, Bool.false_eq_true, if_false, rest, Option.map_some]

theorem transferAll_of_transferred {w next : Walker} {entry entry' : Entry} (applies : entry.appliesTo w.version = true)
    (here : w.transfer entry = some (next, .ok entry')) {entries new : List Entry} {after : Walker}
    {result : Except StateError Unit} (rest : next.transferAll entries = some (after, new, result)) :
    w.transferAll (entry :: entries) = some (after, entry' :: new, result) := by
  have goesOn := Entry.goesOn_of_applies applies
  simp only [transferAll, goesOn, applies, Bool.false_eq_true, if_false, if_true, here, rest, Option.map_some]

theorem transferAll_of_refused {w next : Walker} {entry : Entry} (applies : entry.appliesTo w.version = true)
    {e : StateError} (here : w.transfer entry = some (next, .error e)) (entries : List Entry) :
    w.transferAll (entry :: entries) = some (next, entry :: entries, .error e) := by
  have goesOn := Entry.goesOn_of_applies applies
  simp only [transferAll, goesOn, applies, Bool.false_eq_true, if_false, if_true, here]

theorem ahead?_of_saving {w : Walker} (saving : w.isLoading = false) : w.ahead? = none := by
  obtain ⟨buffer, version, base, cursor⟩ := w
  cases buffer with
  | load bytes => cases saving
  | _ => rfl

theorem checkPositions_head {base : UInt64} {entry : Entry} {entries : List Entry}
    (checked : checkPositions base (entry :: entries) = .ok ()) : checkPositions base [entry] = .ok () := by
  cases entry with
  | position p versions =>
    simp only [checkPositions] at checked ⊢
    split at checked
    · cases checked
    · rfl
  | _ => rfl

/-- Saving access by access writes all that is to be saved, with no position refused on the way. -/
theorem transferAll_save {w : Walker} {entries : List Entry} (saving : w.isLoading = false)
    (room : w.hasRoom (Entry.measure w.version entries) = true)
    (checked : checkPositions w.base (Entry.participants w.version entries) = .ok ()) :
    w.transferAll entries = some (w.put (image w.version w.base entries), entries, .ok ()) := by
  induction entries generalizing w with
  | nil =>
    have none : image w.version w.base [] = [] := rfl
    rw [none, put_nil, transferAll]
  | cons entry entries ih =>
    by_cases ends : entry.isStop = true
    · obtain rfl := Entry.eq_stop ends
      have none : image w.version w.base (.stop :: entries) = [] := rfl
      rw [none, put_nil]
      rfl
    · have goesOn := Bool.eq_false_iff.mpr ends
      rw [Entry.measure_cons goesOn] at room
      rw [Entry.participants_cons goesOn] at checked
      rw [image_cons goesOn]
      by_cases applies : entry.appliesTo w.version = true
      · -- the check of the whole list has passed this entry, so the check on the way passes it again
        rw [if_pos applies] at room checked ⊢
        have fits := hasRoom_mono room (Nat.le_add_right _ _)
        have here := transfer_eq fits (.inr (checkPositions_head checked))
        rw [ahead?_of_saving saving] at here
        rw [← length_store w.base entry] at room fits
        have rest := ih (w := w.put (store w.base entry)) ((isLoading_put w _).trans saving) (hasRoom_put room)
          (checkPositions_tail checked)
        rw [put_append fits] at rest
        exact transferAll_of_transferred applies here rest
      · rw [if_neg applies, Nat.zero_add] at room
        rw [if_neg applies] at checked
        rw [if_neg applies, List.nil_append]
        exact transferAll_of_absent goesOn (Bool.eq_false_iff.mpr applies) (ih saving room checked)

/-- Loading access by access gives the entries that a load from the cursor on gives, or its error. -/
theorem transferAll_load {bytes : Bytes} {version : UInt16} {base : UInt64} {cursor : Nat} {entries : List Entry}
    (room : cursor + Entry.measure version entries ≤ bytes.length) :
    transferAll ⟨.load bytes, version, base, cursor⟩ entries =
      some (⟨.load bytes, version, base, cursor + (loadEntries version base entries (bytes.drop cursor)).read⟩,
        (loadEntries version base entries (bytes.drop cursor)).entries,
        (loadEntries version base entries (bytes.drop cursor)).result) := by
  induction entries generalizing cursor with
  | nil => rfl
  | cons entry entries ih =>
    by_cases ends : entry.isStop = true
    · obtain rfl := Entry.eq_stop ends
      rfl
    · have goesOn := Bool.eq_false_iff.mpr ends
      rw [Entry.measure_cons goesOn] at room
      by_cases applies : entry.appliesTo version = true
      · rw [if_pos applies] at room
        have fits : hasRoom ⟨.load bytes, version, base, cursor⟩ entry.storedSize = true := by
          rw [hasRoom_iff]
          rintro available ⟨⟩
          show cursor + entry.storedSize ≤ bytes.length
          omega
        have here : transfer ⟨.load bytes, version, base, cursor⟩ entry =
            some (⟨.load bytes, version, base, cursor + entry.storedSize⟩, load base (bytes.drop cursor) entry) := by
          rw [transfer_eq fits (.inl rfl), put, length_store]
          rfl
        have rest := @ih (cursor + entry.storedSize) (by omega)
        rw [← List.drop_drop] at rest
        rcases loaded : load base (bytes.drop cursor) entry with e | returned
        · -- nothing behind the error is transferred, and the bytes of the entry itself count as read
          rw [loaded] at here
          rw [loadEntries_of_refused applies loaded]
          exact transferAll_of_refused applies here entries
        · rw [loaded] at here
          rw [loadEntries_of_loaded applies loaded, ← Nat.add_assoc]
          exact transferAll_of_transferred applies here rest
      · have absent := Bool.eq_false_iff.mpr applies
        rw [if_neg applies, Nat.zero_add] at room
        rw [loadEntries_of_absent goesOn absent]
        exact transferAll_of_absent goesOn absent (ih room)

/-! ### Walks -/

theorem walk_of_short {w : Walker} {entries : List Entry} {available : Nat} (capacity : w.capacity? = some available)
    (short : available < w.cursor + Entry.measure w.version entries) :
    w.walk entries = w.refuse entries (.bufferTooSmall (w.cursor + Entry.measure w.version entries) available) := by
  simp only [walk, capacity, if_pos short]

theorem walk_of_room {w : Walker} {entries : List Entry} (room : w.hasRoom (Entry.measure w.version entries) = true) :
    w.walk entries = walk.go w entries := by
  rw [hasRoom_iff] at room
  unfold walk
  cases capacity : w.capacity? with
  | none => rfl
  | some available => exact if_neg (Nat.not_lt.mpr (room available capacity))

theorem go_of_saving {w : Walker} (saving : w.isLoading = false) (entries : List Entry) :
    walk.go w entries = w.save entries := by
  obtain ⟨buffer, version, base, cursor⟩ := w
  cases buffer with
  | load bytes => cases saving
  | _ => rfl

theorem save_of_checked {w : Walker} (saving : w.isLoading = false) {entries : List Entry}
    (checked : checkPositions w.base (Entry.participants w.version entries) = .ok ()) :
    w.save entries = ⟨w.put (image w.version w.base entries), entries, .ok (),
      w.report (Entry.measure w.version entries)⟩ := by
  obtain ⟨buffer, version, base, cursor⟩ := w
  simp only [save, checked, put, length_image]
  cases buffer with
  | load bytes => cases saving
  | _ => rfl

/-- A walk that is carried out access by access does not leave the buffer, and does what the walk does. -/
theorem piecewise_eq (w : Walker) (entries : List Entry) : w.piecewise entries = some (w.walk entries) := by
  unfold piecewise
  by_cases room : w.hasRoom (Entry.measure w.version entries) = true
  · rw [if_pos room, walk_of_room room]
    cases loading : w.isLoading with
    | true =>
      obtain ⟨buffer, version, base, cursor⟩ := w
      cases buffer with
      | load bytes =>
        have fits : cursor + Entry.measure version entries ≤ bytes.length := hasRoom_iff.mp room _ rfl
        have loads : transferAll ⟨.load bytes, version, base, cursor⟩ entries = _ := transferAll_load fits
        generalize loaded : loadEntries version base entries (bytes.drop cursor) = outcome at loads
        obtain ⟨fields, read, result⟩ := outcome
        cases result <;> simp only [if_true, loads, Option.map_some, walk.go, loaded, Nat.add_sub_cancel_left]
      | _ => cases loading
    | false =>
      rw [go_of_saving loading]
      rcases checked : checkPositions w.base (Entry.participants w.version entries) with e | _
      · simp only [Bool.false_eq_true, if_false, checked, save]
      · have moved : (w.put (image w.version w.base entries)).cursor - w.cursor = Entry.measure w.version entries := by
          rw [put, length_image, Nat.add_sub_cancel_left]
        simp only [Bool.false_eq_true, if_false, transferAll_save loading room checked, Option.map_some,
          save_of_checked loading checked, moved]
  · rw [if_neg room]
    cases capacity : w.capacity? with
    | none => simp [hasRoom, capacity] at room
    | some available =>
      have short : available < w.cursor + Entry.measure w.version entries := by
        simpa [hasRoom, capacity] using room
      rw [walk_of_short capacity short]
      rfl

end Walker

end Framescript
