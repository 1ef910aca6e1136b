import Framescript.Digest
import Framescript.Snapshot.Entry
import Framescript.Snapshot.Error

/-!
State files: a saved state with its format version and the part that it belongs to.
-/
namespace Framescript

/-- A saved state with what is needed to load it again. -/
structure StateFile where
  version : UInt16 := currentVersion
  part : UInt16
  payload : Code
  deriving DecidableEq, Repr

instance : Codec StateFile :=
  Codec.ofMembers (fun f => (f.version, f.part, f.payload)) (fun (version, part, payload) => ⟨version, part, payload⟩)

/-- Refuses a format version that is not known here. -/
def checkVersion (version : UInt16) : Except StateError Unit :=
  if version = 0 ∨ currentVersion < version then .error (.unsupportedVersion version currentVersion) else .ok ()

namespace StateFile

/-- The first bytes of a state file. -/
def magic : Vector UInt8 4 := #v[0x52, 0x41, 0x57, 0x53]

/-- The digest of the saved state. -/
def digest (f : StateFile) : Digest :=
  .sha3 f.payload.toList

/-- The bytes of a state file. -/
def toBytes (f : StateFile) : Bytes :=
  let out := Codec.put magic (#[] : Code)
  (Codec.put f out).toList

/-- The state file of given bytes. -/
def ofBytes (input : Bytes) : Except StateError StateFile :=
  match (Codec.decode input : Except DecodeError (Vector UInt8 4 × Bytes)) with
  | .error _ => .error (.corrupt .truncated)
  | .ok (found, input) =>
    if found ≠ magic then .error (.corrupt .badMagic)
    else
      match (Codec.decode input : Except DecodeError (StateFile × Bytes)) with
      | .error e => .error (.corrupt (.undecodable e))
      | .ok (file, rest) =>
        if !rest.isEmpty then .error (.corrupt .trailingBytes)
        else
          match checkVersion file.version with
          | .error e => .error e
          | .ok () => .ok file

end StateFile

end Framescript
