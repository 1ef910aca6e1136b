import Framescript.Codec

/-!
What can go wrong when a state is saved or loaded.
-/
namespace Framescript

/-- Why bytes are no state file. -/
inductive StateCorruption where
  | truncated
  | badMagic
  | undecodable (error : DecodeError)
  | trailingBytes
  deriving DecidableEq, Repr

/-- Why a state was not saved or loaded. -/
inductive StateError where
  /-- The buffer is shorter than the entries that are walked. -/
  | bufferTooSmall (needed available : Nat)
  /-- A buffer does not have the length of a state. -/
  | sizeMismatch (expected actual : Nat)
  | unsupportedVersion (version current : UInt16)
  | positionBeforeBase (position base : UInt64)
  /-- A distance from the base that four bytes, or the positions, cannot hold. -/
  | positionOutOfRange (offset : Nat)
  | corrupt (cause : StateCorruption)
  deriving DecidableEq, Repr

/-- The reason given for a corrupt file. -/
def StateCorruption.reason : StateCorruption → String
  | .truncated => "truncated"
  | .badMagic => "bad magic"
  | .undecodable error => error.name
  | .trailingBytes => "trailing bytes"

/-- The message for a state error. -/
def StateError.message : StateError → String
  | .bufferTooSmall needed available => s!"state buffer too small: need {needed} bytes, have {available}"
  | .sizeMismatch expected actual => s!"state size mismatch: expected {expected} bytes, got {actual}"
  | .unsupportedVersion version current => s!"unsupported state version {version} (this build writes {current})"
  | .positionBeforeBase position base => s!"position {position} lies before the region base {base}"
  | .positionOutOfRange offset => s!"position offset {offset} does not fit in 32 bits"
  | .corrupt cause => s!"corrupt state file: {cause.reason}"

end Framescript
