import Framescript.Fault
import Framescript.Instruction.Opcode

/-!
How many instructions of each category were executed, and in how many slices. The counts of
instructions stop at the largest number; a number of slices beyond it is a fault.
-/
namespace Framescript

/-- Counts by category, and slices. -/
structure Profile where
  counts : Vector UInt64 7 := .replicate 7 0
  slices : UInt64 := 0
  deriving DecidableEq, Repr

namespace Profile

/-- The sum, or the largest count if that is less. -/
def saturatingAdd (a b : UInt64) : UInt64 :=
  if a + b < a then 0xFFFFFFFFFFFFFFFF else a + b

/-- The sum, if it fits. -/
def checkedAdd (a b : UInt64) : Except Fault UInt64 :=
  if a + b < a then .error .overflow else .ok (a + b)

/-- The count of a category. -/
def count (p : Profile) (category : Category) : UInt64 :=
  p.counts[category.index]

/-- The profile with one more instruction of a category. -/
def record (p : Profile) (category : Category) : Profile :=
  { p with counts := p.counts.set category.index.val (saturatingAdd p.counts[category.index] 1) }

/-- The profile with one more slice. -/
def recordSlice (p : Profile) : Except Fault Profile :=
  match checkedAdd p.slices 1 with
  | .error fault => .error fault
  | .ok slices => .ok { p with slices }

/-- The number of instructions of all categories. -/
def total (p : Profile) : UInt64 :=
  p.counts.foldl saturatingAdd 0

/-- The categories with their counts. -/
def entries (p : Profile) : List (Category × UInt64) :=
  Category.all.map fun category => (category, p.count category)

/-- The counts of both profiles together. -/
def merge (p other : Profile) : Except Fault Profile :=
  match checkedAdd p.slices other.slices with
  | .error fault => .error fault
  | .ok slices => .ok { counts := p.counts.zipWith saturatingAdd other.counts, slices }

end Profile

end Framescript
