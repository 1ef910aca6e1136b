import Framescript.Fault

/-!
The call stack of the running slice. Every slice starts with depth 0. The slots keep what earlier
slices wrote, and are part of a saved state.
-/
namespace Framescript

/-- The number of calls that can be open at once. -/
abbrev callStackSize : Nat := 256

/-- Return offsets, of which the first `depth` belong to open calls. -/
structure CallStack where
  slots : Vector UInt16 callStackSize := .replicate callStackSize 0
  depth : Nat := 0
  depth_le : depth ≤ callStackSize := by decide
  deriving DecidableEq, Repr

namespace CallStack

/-- The stack before any call. -/
def empty : CallStack := {}

/-- The stack without an open call. -/
def rewind (s : CallStack) : CallStack :=
  { s with depth := 0, depth_le := Nat.zero_le _ }

/-- The stack with a call open that returns to `offset`; `origin` is where the call stands. -/
def push (s : CallStack) (offset : UInt16) (origin : Nat) : Except Fault CallStack :=
  if room : s.depth < callStackSize then
    .ok { slots := s.slots.set s.depth offset room, depth := s.depth + 1, depth_le := room }
  else .error (.callStackOverflow origin s.depth)

/-- The offset to which the last open call returns, and the stack without it. -/
def pop (s : CallStack) (origin : Nat) : Except Fault (UInt16 × CallStack) :=
  if opened : 0 < s.depth then
    have inside : s.depth - 1 < callStackSize := by have := s.depth_le; omega
    .ok (s.slots[s.depth - 1],
      { s with depth := s.depth - 1, depth_le := by have := s.depth_le; omega })
  else .error (.callStackUnderflow origin)

end CallStack

end Framescript
