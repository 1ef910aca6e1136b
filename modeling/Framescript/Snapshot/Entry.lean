import Framescript.Bytes

/-!
Entries: the fields that a saved state is made of. An entry holds the value of its field, the width
with which it is stored, and the format versions that it belongs to.
-/
namespace Framescript

/-- The format version that is written. -/
def currentVersion : UInt16 := 1

/-- Format versions between two bounds, both included. -/
structure VersionRange where
  min : UInt16
  max : UInt16
  deriving DecidableEq, Repr

namespace VersionRange

/-- The versions from `min` up to the current one. -/
def since (min : UInt16) : VersionRange := ⟨min, currentVersion⟩

/-- Whether a version lies between the bounds. -/
def contains (r : VersionRange) (version : UInt16) : Bool :=
  r.min ≤ version && version ≤ r.max

end VersionRange

/-- The width of a stored element. -/
inductive Width where
  | byte
  | word
  | long
  deriving DecidableEq, Repr

/-- The bytes of a stored element. -/
def Width.bytes : Width → Nat
  | .byte => 1
  | .word => 2
  | .long => 4

/-- The integer types that a field can have. -/
inductive ScalarKind where
  | u8
  | i8
  | u16
  | i16
  | u32
  | i32
  deriving DecidableEq, Repr

namespace ScalarKind

/-- The values of an integer type. -/
def Value : ScalarKind → Type
  | .u8 => UInt8
  | .i8 => Int8
  | .u16 => UInt16
  | .i16 => Int16
  | .u32 => UInt32
  | .i32 => Int32

instance : (kind : ScalarKind) → DecidableEq kind.Value
  | .u8 => inferInstanceAs (DecidableEq UInt8)
  | .i8 => inferInstanceAs (DecidableEq Int8)
  | .u16 => inferInstanceAs (DecidableEq UInt16)
  | .i16 => inferInstanceAs (DecidableEq Int16)
  | .u32 => inferInstanceAs (DecidableEq UInt32)
  | .i32 => inferInstanceAs (DecidableEq Int32)

/-- The bits of a value in two's complement, as a number. -/
def bits : (kind : ScalarKind) → kind.Value → Nat
  | .u8, (n : UInt8) => n.toNat
  | .i8, (n : Int8) => n.toUInt8.toNat
  | .u16, (n : UInt16) => n.toNat
  | .i16, (n : Int16) => n.toUInt16.toNat
  | .u32, (n : UInt32) => n.toNat
  | .i32, (n : Int32) => n.toUInt32.toNat

/-- The value with the lowest bits of a number. -/
def ofBits : (kind : ScalarKind) → Nat → kind.Value
  | .u8, n => UInt8.ofNat n
  | .i8, n => (UInt8.ofNat n).toInt8
  | .u16, n => UInt16.ofNat n
  | .i16, n => (UInt16.ofNat n).toInt16
  | .u32, n => UInt32.ofNat n
  | .i32, n => (UInt32.ofNat n).toInt32

/-- The integer that a value stands for. -/
def toInt : (kind : ScalarKind) → kind.Value → Int
  | .u8, (n : UInt8) => n.toNat
  | .i8, (n : Int8) => n.toInt
  | .u16, (n : UInt16) => n.toNat
  | .i16, (n : Int16) => n.toInt
  | .u32, (n : UInt32) => n.toNat
  | .i32, (n : Int32) => n.toInt

/-- The value that stands for an integer, if there is one. -/
def ofInt? (kind : ScalarKind) (n : Int) : Option kind.Value :=
  let value := kind.ofBits (n % 0x100000000).toNat
  if kind.toInt value = n then some value else none

end ScalarKind

/-- The elements of a field. -/
structure Cells where
  kind : ScalarKind
  values : List kind.Value
  deriving DecidableEq

namespace Cells

/-- The stored bytes of an element. -/
def storeElement (kind : ScalarKind) (width : Width) (value : kind.Value) : Bytes :=
  Bytes.little width.bytes (kind.bits value)

/-- The stored bytes of elements, one after the other. -/
def storeElements (cells : Cells) (width : Width) : Bytes :=
  cells.values.flatMap (storeElement cells.kind width)

/-- The elements stored at the front of `bytes`, as many as `values` has. -/
def loadElements (kind : ScalarKind) (width : Width) : List kind.Value → Bytes → List kind.Value
  | [], _ => []
  | _ :: values, bytes =>
    kind.ofBits (Bytes.ofLittle (bytes.take width.bytes)) :: loadElements kind width values (bytes.drop width.bytes)

/-- The stored bytes of a field. Bytes that are stored as bytes are copied as they are. -/
def store (cells : Cells) (width : Width) : Bytes :=
  match cells, width with
  | ⟨.u8, values⟩, .byte => values
  | cells, width => cells.storeElements width

/-- The field with the elements stored at the front of `bytes`. -/
def load (cells : Cells) (width : Width) (bytes : Bytes) : Cells :=
  match cells, width with
  | ⟨.u8, values⟩, .byte => ⟨.u8, bytes.take values.length⟩
  | ⟨kind, values⟩, width => ⟨kind, loadElements kind width values bytes⟩

end Cells

/-- A field of a saved state with its value. -/
inductive Entry where
  /-- A single integer. -/
  | int (kind : ScalarKind) (value : kind.Value) (width : Width) (versions : VersionRange)
  /-- An array of integers. -/
  | array (cells : Cells) (width : Width) (versions : VersionRange)
  /-- A position in a region, stored as its distance from the base of the region in four bytes. -/
  | position (position : UInt64) (versions : VersionRange)
  /-- The end of a list, whatever follows. -/
  | stop
  deriving DecidableEq

namespace Entry

/-- Whether an entry takes part at a format version. -/
def appliesTo (version : UInt16) : Entry → Bool
  | .int _ _ _ versions => versions.contains version
  | .array _ _ versions => versions.contains version
  | .position _ versions => versions.contains version
  | .stop => false

/-- The bytes of an entry that takes part. -/
def storedSize : Entry → Nat
  | .int _ _ width _ => width.bytes
  | .array cells width _ => cells.values.length * width.bytes
  | .position _ _ => 4
  | .stop => 0

/-- Whether an entry ends its list. -/
def isStop : Entry → Bool
  | .stop => true
  | _ => false

/-- The entries in front of the end of a list. -/
def body (entries : List Entry) : List Entry :=
  entries.takeWhile (!·.isStop)

/-- The entries of a list that take part at a format version. -/
def participants (version : UInt16) (entries : List Entry) : List Entry :=
  (body entries).filter (appliesTo version)

/-- The bytes of a list at a format version. -/
def measure (version : UInt16) (entries : List Entry) : Nat :=
  (participants version entries).foldr (fun entry size => entry.storedSize + size) 0

end Entry

end Framescript
