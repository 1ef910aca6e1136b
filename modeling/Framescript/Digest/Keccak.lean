/-!
The permutation Keccak-f on 25 lanes of 64 bits. The state is five planes of five lanes each; lane
`x` of plane `y` is the lane at column `x` and row `y`.
-/
namespace Framescript.Keccak

/-- Five lanes in a row. -/
structure Plane where
  l0 : UInt64
  l1 : UInt64
  l2 : UInt64
  l3 : UInt64
  l4 : UInt64
  deriving DecidableEq

/-- The permuted state. -/
structure State where
  p0 : Plane
  p1 : Plane
  p2 : Plane
  p3 : Plane
  p4 : Plane
  deriving DecidableEq

/-- The plane of zero lanes. -/
def Plane.zero : Plane := ⟨0, 0, 0, 0, 0⟩

/-- The state of zero lanes. -/
def State.zero : State := ⟨.zero, .zero, .zero, .zero, .zero⟩

/-- A lane turned left by an amount between 1 and 63. -/
def turn (lane amount : UInt64) : UInt64 :=
  lane <<< amount ||| lane >>> (64 - amount)

/-- Lane by lane exclusive or. -/
def Plane.xor (a b : Plane) : Plane :=
  ⟨a.l0 ^^^ b.l0, a.l1 ^^^ b.l1, a.l2 ^^^ b.l2, a.l3 ^^^ b.l3, a.l4 ^^^ b.l4⟩

/-- Adds to every lane the parities of the column before it and of the column after it, the latter turned by one. -/
def State.theta (s : State) : State :=
  let c := ((((s.p0.xor s.p1).xor s.p2).xor s.p3).xor s.p4)
  let d : Plane := ⟨c.l4 ^^^ turn c.l1 1, c.l0 ^^^ turn c.l2 1, c.l1 ^^^ turn c.l3 1, c.l2 ^^^ turn c.l4 1,
    c.l3 ^^^ turn c.l0 1⟩
  ⟨s.p0.xor d, s.p1.xor d, s.p2.xor d, s.p3.xor d, s.p4.xor d⟩

/-- Turns each lane by its own amount and moves it to its new place. -/
def State.rhoPi (s : State) : State where
  p0 := ⟨s.p0.l0, turn s.p1.l1 44, turn s.p2.l2 43, turn s.p3.l3 21, turn s.p4.l4 14⟩
  p1 := ⟨turn s.p0.l3 28, turn s.p1.l4 20, turn s.p2.l0 3, turn s.p3.l1 45, turn s.p4.l2 61⟩
  p2 := ⟨turn s.p0.l1 1, turn s.p1.l2 6, turn s.p2.l3 25, turn s.p3.l4 8, turn s.p4.l0 18⟩
  p3 := ⟨turn s.p0.l4 27, turn s.p1.l0 36, turn s.p2.l1 10, turn s.p3.l2 15, turn s.p4.l3 56⟩
  p4 := ⟨turn s.p0.l2 62, turn s.p1.l3 55, turn s.p2.l4 39, turn s.p3.l0 41, turn s.p4.l1 2⟩

/-- Changes each lane where the next lane of the plane is clear and the one after it is set. -/
def Plane.chi (p : Plane) : Plane :=
  ⟨p.l0 ^^^ (~~~p.l1 &&& p.l2), p.l1 ^^^ (~~~p.l2 &&& p.l3), p.l2 ^^^ (~~~p.l3 &&& p.l4),
    p.l3 ^^^ (~~~p.l4 &&& p.l0), p.l4 ^^^ (~~~p.l0 &&& p.l1)⟩

/-- One round with its constant. -/
def State.round (s : State) (constant : UInt64) : State :=
  let s := s.theta.rhoPi
  let first := s.p0.chi
  ⟨{ first with l0 := first.l0 ^^^ constant }, s.p1.chi, s.p2.chi, s.p3.chi, s.p4.chi⟩

/-- The constants of the 24 rounds. -/
def roundConstants : List UInt64 :=
  [0x0000000000000001, 0x0000000000008082, 0x800000000000808a, 0x8000000080008000, 0x000000000000808b,
   0x0000000080000001, 0x8000000080008081, 0x8000000000008009, 0x000000000000008a, 0x0000000000000088,
   0x0000000080008009, 0x000000008000000a, 0x000000008000808b, 0x800000000000008b, 0x8000000000008089,
   0x8000000000008003, 0x8000000000008002, 0x8000000000000080, 0x000000000000800a, 0x800000008000000a,
   0x8000000080008081, 0x8000000000008080, 0x0000000080000001, 0x8000000080008008]

/-- All rounds in order. -/
def State.permute (s : State) : State :=
  roundConstants.foldl State.round s

end Framescript.Keccak
