import Framescript.Log
import Framescript.Snapshot.Entry
import Framescript.Snapshot.Error

/-!
Walks over entry lists. One walk counts, saves or loads the entries of a list that take part at a
format version, in order, from the cursor on. The cursor stays where the walk ends, so that the next
list follows.
-/
namespace Framescript

/-- What a walk does with the entries. -/
inductive Buffer where
  /-- Only the cursor moves. -/
  | count
  /-- Entries are written over the bytes. -/
  | save (bytes : Bytes)
  /-- Entries are read from the bytes. -/
  | load (bytes : Bytes)
  deriving DecidableEq, Repr

/-- A buffer with the format version, the base of positions, and the cursor. -/
structure Walker where
  buffer : Buffer
  version : UInt16
  base : UInt64 := 0
  cursor : Nat := 0
  deriving DecidableEq, Repr

namespace Walker

/-- The length that entries have to fit into, unless they are only counted. -/
def capacity? (w : Walker) : Option Nat :=
  match w.buffer with
  | .count => none
  | .save bytes => some bytes.length
  | .load bytes => some bytes.length

/-- Whether entries are read and not written. -/
def isLoading (w : Walker) : Bool :=
  match w.buffer with
  | .load _ => true
  | _ => false

/-- Whether nothing but the cursor moves. -/
def isCounting (w : Walker) : Bool :=
  match w.buffer with
  | .count => true
  | _ => false

/-- The direction of a walk; counting goes the way of saving. -/
def modeName (w : Walker) : String :=
  if w.isLoading then "Load" else "Save"

/-- The bytes that a walker was made with, with what it wrote. -/
def bytes (w : Walker) : Bytes :=
  match w.buffer with
  | .count => []
  | .save bytes => bytes
  | .load bytes => bytes

/-- The distance of a position from the base, if four bytes hold it. -/
def positionOffset (base position : UInt64) : Except StateError Nat :=
  if position < base then .error (.positionBeforeBase position base)
  else if position.toNat - base.toNat < 0x100000000 then .ok (position.toNat - base.toNat)
  else .error (.positionOutOfRange (position.toNat - base.toNat))

/-- Refuses a list with a position that cannot be stored. -/
def checkPositions (base : UInt64) : List Entry → Except StateError Unit
  | [] => .ok ()
  | .position p _ :: entries =>
    match positionOffset base p with
    | .error e => .error e
    | .ok _ => checkPositions base entries
  | _ :: entries => checkPositions base entries

/-- The stored bytes of an entry. -/
def store (base : UInt64) : Entry → Bytes
  | .int kind value width _ => Cells.storeElement kind width value
  | .array cells width _ => cells.store width
  | .position p _ => Bytes.little 4 (p.toNat - base.toNat)
  | .stop => []

/-- The entry with the value stored at the front of `bytes`. -/
def load (base : UInt64) (bytes : Bytes) : Entry → Except StateError Entry
  | .int kind _ width versions => .ok (.int kind (kind.ofBits (Bytes.ofLittle (bytes.take width.bytes))) width versions)
  | .array cells width versions => .ok (.array (cells.load width bytes) width versions)
  | .position _ versions =>
    let offset := Bytes.ofLittle (bytes.take 4)
    if base.toNat + offset < 0x10000000000000000 then .ok (.position (UInt64.ofNat (base.toNat + offset)) versions)
    else .error (.positionOutOfRange offset)
  | .stop => .ok .stop

/-- What is left of a load: the entries as they are now, the bytes that were read, and whether a
position could not be formed. Entries in front of that position are loaded, and its own bytes count as
read. -/
structure Loaded where
  entries : List Entry
  read : Nat
  result : Except StateError Unit

/-- Loads the entries of a list that take part, from the front of `bytes` on. -/
def loadEntries (version : UInt16) (base : UInt64) : List Entry → Bytes → Loaded
  | [], _ => ⟨[], 0, .ok ()⟩
  | .stop :: entries, _ => ⟨.stop :: entries, 0, .ok ()⟩
  | entry :: entries, bytes =>
    if entry.appliesTo version then
      match load base bytes entry with
      | .error e => ⟨entry :: entries, entry.storedSize, .error e⟩
      | .ok loaded =>
        let rest := loadEntries version base entries (bytes.drop entry.storedSize)
        ⟨loaded :: rest.entries, entry.storedSize + rest.read, rest.result⟩
    else
      let rest := loadEntries version base entries bytes
      ⟨entry :: rest.entries, rest.read, rest.result⟩

/-- What is left of a walk. -/
structure Walked where
  walker : Walker
  entries : List Entry
  result : Except StateError Unit
  log : Log

/-- The line that a finished walk leaves in the log. -/
def report (w : Walker) (moved : Nat) : Log :=
  #[⟨.debug, s!"{w.modeName} v{w.version}: {moved} bytes at offset {w.cursor}"⟩]

/-- A walk that changed nothing and failed. -/
def refuse (w : Walker) (entries : List Entry) (e : StateError) : Walked :=
  ⟨w, entries, .error e, #[]⟩

/-- A save, or a count, of entries that fit. -/
def save (w : Walker) (entries : List Entry) : Walked :=
  let participants := Entry.participants w.version entries
  match checkPositions w.base participants with
  | .error e => w.refuse entries e
  | .ok () =>
    let size := Entry.measure w.version entries
    let buffer := match w.buffer with
      | .save bytes => .save (Bytes.overlay w.cursor (participants.flatMap (store w.base)) bytes)
      | buffer => buffer
    ⟨{ w with buffer, cursor := w.cursor + size }, entries, .ok (), w.report size⟩

/-- Counts, saves or loads a list of entries. A buffer that is too short is refused before anything
changes, and so is a position that cannot be stored. -/
def walk (w : Walker) (entries : List Entry) : Walked :=
  let needed := w.cursor + Entry.measure w.version entries
  match w.capacity? with
  | some available =>
    if available < needed then w.refuse entries (.bufferTooSmall needed available) else go
  | none => go
where
  go : Walked :=
    match w.buffer with
    | .load bytes =>
      let loaded := loadEntries w.version w.base entries (bytes.drop w.cursor)
      ⟨{ w with cursor := w.cursor + loaded.read }, loaded.entries, loaded.result,
        match loaded.result with
        | .ok () => w.report loaded.read
        | .error _ => #[]⟩
    | _ => w.save entries

end Walker

end Framescript
