import Framescript.Host
import Framescript.Program

/-!
A host that keeps what is asked of it, for looking at it afterwards. It has some fields of its own
that it can add to saved states.
-/
namespace Framescript

/-- What was asked of a recorder. -/
inductive Record where
  | call (call : Call)
  | openPart (part : UInt16)
  deriving DecidableEq, Repr

/-- Parts to serve, what was asked, and fields that saved states can hold. -/
structure Recorder where
  parts : List Part := []
  records : Array Record := #[]
  now : UInt32 := 0
  mark : Option Int16 := none
  /-- The last palette and the last shown page. -/
  palette : Vector UInt8 2 := #v[0, 0]
  counter : Int16 := 0
  cursor : UInt64 := 0
  later : UInt16 := 0
  /-- How much goes into saved states: nothing at 0, the palette at 1, all fields from 2 on. -/
  expose : Nat := 0
  deriving DecidableEq, Repr

namespace Recorder

/-- The recorder with one more record. -/
def record (r : Recorder) (record : Record) : Recorder :=
  { r with records := r.records.push record }

/-- The recorder after a request. -/
def perform (call : Call) (r : Recorder) : Recorder :=
  let r := r.record (.call call)
  match call with
  | .setPalette palette => { r with palette := r.palette.set 0 palette }
  | .updateDisplay page => { r with palette := r.palette.set 1 page }
  | .wait millis => { r with now := r.now + millis }
  | _ => r

/-- The code of a part. The attempt is recorded also if there is none. -/
def openPart (part : UInt16) (r : Recorder) : Except Fault Code × Recorder :=
  let code := match r.parts.find? (·.id = part) with
    | some found => .ok found.code
    | none => .error (.unknownPart part)
  (code, r.record (.openPart part))

/-- The recorder with a part that replaces one of the same id. -/
def addPart (r : Recorder) (part : Part) : Recorder :=
  { r with parts := part :: r.parts.filter (·.id ≠ part.id) }

/-- The recorder without a part. -/
def dropPart (r : Recorder) (id : UInt16) : Recorder :=
  { r with parts := r.parts.filter (·.id ≠ id) }

/-- The fields that go into saved states. -/
def entries (r : Recorder) : List Entry :=
  let palette := Entry.array ⟨.u8, r.palette.toList⟩ .byte (.since 1)
  if r.expose = 0 then []
  else if r.expose = 1 then [palette]
  else [palette, .int .i16 r.counter .long (.since 1), .int .u16 r.later .word ⟨2, 3⟩, .position r.cursor (.since 1)]

/-- The recorder with the values of loaded entries. -/
def restore (entries : List Entry) (r : Recorder) : Recorder :=
  match entries with
  | .array ⟨.u8, [palette, page]⟩ _ _ :: rest =>
    let r := { r with palette := #v[palette, page] }
    match rest with
    | [.int .i16 counter _ _, .int .u16 later _ _, .position cursor _] => { r with counter, later, cursor }
    | _ => r
  | _ => r

instance : Host Recorder where
  perform := perform
  openPart := openPart
  takeMusicMark r := (r.mark, { r with mark := none })
  now := Recorder.now
  entries := entries
  restore := restore

end Recorder

end Framescript
