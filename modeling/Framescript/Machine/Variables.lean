import Framescript.Bytes

/-!
The 256 variables that all threads share, and the ones among them with a meaning of their own.
-/
namespace Framescript

/-- Signed 16-bit variables, one for each byte. -/
structure Variables where
  cells : Vector Int16 256
  deriving DecidableEq, Repr

namespace Variables

/-- The seed of scripts that draw random numbers, which is zero at first. -/
def randomSeed : UInt8 := 0x3C
/-- A flag that is set from the start. -/
def engineFlag : UInt8 := 0x54
/-- A variable that scripts should not set to one. -/
def specialKeyCheck : UInt8 := 0xC9
/-- The last character typed on the password screen. -/
def lastCharacter : UInt8 := 0xDA
/-- A flag that is set whenever a part starts. -/
def partFlag : UInt8 := 0xE4
/-- Up or down, as held. -/
def heroUpDown : UInt8 := 0xE5
/-- The last mark of the music. -/
def musicMark : UInt8 := 0xF4
/-- A flag that showing a page clears. -/
def blitFlag : UInt8 := 0xF7
/-- The vertical scroll of copied pages. -/
def scrollY : UInt8 := 0xF9
/-- Whether the fire button is held. -/
def heroAction : UInt8 := 0xFA
/-- Jump or crouch. -/
def heroJumpDown : UInt8 := 0xFB
/-- Left or right. -/
def heroLeftRight : UInt8 := 0xFC
/-- The held directions as bits. -/
def heroMask : UInt8 := 0xFD
/-- The held directions and the fire button as bits. -/
def heroActionMask : UInt8 := 0xFE
/-- The time between two shown pages, in fiftieths of a second. -/
def pauseSlices : UInt8 := 0xFF

/-- The value of a variable. -/
def get (v : Variables) (index : UInt8) : Int16 :=
  have inside : index.toNat < 256 := index.toNat_lt
  v.cells[index.toNat]

/-- The store with another value for a variable. -/
def set (v : Variables) (index : UInt8) (value : Int16) : Variables :=
  have inside : index.toNat < 256 := index.toNat_lt
  ⟨v.cells.set index.toNat value⟩

/-- The store before any script has run. -/
def initial : Variables :=
  let zero : Variables := ⟨.replicate 256 0⟩
  (zero.set engineFlag 0x81).set randomSeed 0

/-- The variables as words, least significant byte first. -/
def toBytes (v : Variables) : Bytes :=
  v.cells.toList.flatMap fun value => Bytes.little 2 value.toUInt16.toNat

theorem get_set_self (v : Variables) (index : UInt8) (value : Int16) : (v.set index value).get index = value := by
  simp [get, set]

theorem get_set_of_ne (v : Variables) {index other : UInt8} (value : Int16) (different : index ≠ other) :
    (v.set index value).get other = v.get other := by
  have : index.toNat ≠ other.toNat := fun same => different (UInt8.toNat_inj.mp same)
  simp [get, set, this]

end Variables

end Framescript
