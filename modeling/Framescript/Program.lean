import Framescript.Codec
import Framescript.Text.Digits

/-!
Programs: the bytecode of each part, and the file that holds it. A program file starts with a magic
word and a version.
-/
namespace Framescript

/-- The bytecode of a part. -/
structure Part where
  id : UInt16
  code : Code
  deriving DecidableEq, Repr

instance : Codec Part := Codec.ofMembers (fun part => (part.id, part.code)) (fun (id, code) => ⟨id, code⟩)

/-- The parts in the order of their definition. -/
structure Program where
  parts : List Part := []
  deriving DecidableEq, Repr

instance : Codec Program := Codec.ofMembers Program.parts Program.mk

/-- The part id of the protection screen, with which a program starts. -/
def Part.first : UInt16 := 0x3E80

/-- The part id of the password screen, the last one. -/
def Part.last : UInt16 := 0x3E89

/-- Whether a resource number names a part. -/
def Part.isId (id : UInt16) : Bool :=
  Part.first ≤ id && id ≤ Part.last

/-- Why a file holds no program. -/
inductive ProgramError where
  | truncated
  | badMagic
  | undecodable (error : DecodeError)
  | unsupportedVersion (major minor : UInt8)
  | trailingBytes
  deriving DecidableEq, Repr

/-- The message for a file that holds no program. -/
def ProgramError.message (e : ProgramError) : String :=
  let reason := match e with
    | .truncated => "truncated"
    | .badMagic => "bad magic"
    | .undecodable error => error.name
    | .unsupportedVersion major minor => s!"unsupported version {major}.{minor}"
    | .trailingBytes => "trailing bytes"
  s!"decoding error: {reason}"

namespace Program

/-- The bytecode of the first part with an id. -/
def code? (p : Program) (id : UInt16) : Option Code :=
  (p.parts.find? (·.id = id)).map (·.code)

/-- The first bytes of a program file. -/
def magic : Vector UInt8 4 := #v[0x52, 0x41, 0x57, 0x50]

/-- Major and minor version of the file format. -/
def formatVersion : UInt8 × UInt8 := (1, 0)

/-- The program file. -/
def toBytes (p : Program) : Bytes :=
  let out := Codec.put magic (#[] : Code)
  let out := Codec.put formatVersion out
  (Codec.put p out).toList

/-- Whether a version is one that can be read: the same major version, and not a later one. -/
def isSupported (major minor : UInt8) : Bool :=
  major == formatVersion.1 && minor ≤ formatVersion.2

/-- The program of a program file. -/
def ofBytes (input : Bytes) : Except ProgramError Program :=
  match (Codec.decode input : Except DecodeError (Vector UInt8 4 × Bytes)) with
  | .error _ => .error .truncated
  | .ok (found, input) =>
    if found ≠ magic then .error .badMagic
    else
      match (Codec.decode input : Except DecodeError ((UInt8 × UInt8) × Bytes)) with
      | .error e => .error (.undecodable e)
      | .ok ((major, minor), input) =>
        if !isSupported major minor then .error (.unsupportedVersion major minor)
        else
          match (Codec.decode input : Except DecodeError (Program × Bytes)) with
          | .error e => .error (.undecodable e)
          | .ok (program, rest) => if rest.isEmpty then .ok program else .error .trailingBytes

end Program

end Framescript
