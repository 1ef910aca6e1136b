import Framescript.Bytes
import Framescript.Fault
import Framescript.Snapshot.Entry

/-!
What a machine asks of the world around it: to draw, to play, to load and to wait. Nothing of that
comes back, except the code of a part, the marks of the music, and the time, which serves for pacing
only.
-/
namespace Framescript

/-- Where polygon data is taken from. -/
inductive PolygonSource where
  | cinematic
  | alternate
  deriving DecidableEq, Repr

/-- A request to which there is no answer. -/
inductive Call where
  | drawPolygon (source : PolygonSource) (offset : UInt16) (color : UInt8) (zoom : UInt16) (x y : Int16)
  | drawString (id : UInt16) (x y color : UInt8)
  | setPalette (palette : UInt8)
  | selectPage (page : UInt8)
  | fillPage (page color : UInt8)
  | copyPage (source target : UInt8) (scroll : Int16)
  | updateDisplay (page : UInt8)
  | playSound (resource : UInt16) (frequency volume channel : UInt8)
  | playMusic (resource delay : UInt16) (position : UInt8)
  /-- Stops all sound and music. -/
  | stopAll
  | loadResource (resource : UInt16)
  | invalidateResources
  /-- Asks for some milliseconds to pass. -/
  | wait (millis : UInt32)
  deriving DecidableEq, Repr

/-- The world around a machine. -/
class Host (H : Type) where
  /-- The host after a request. -/
  perform : Call → H → H
  /-- The code of a part, if there is one, and the host after looking for it. -/
  openPart : UInt16 → H → Except Fault Code × H
  /-- The mark that the music has passed since it was last asked for. -/
  takeMusicMark : H → Option Int16 × H
  /-- The time in milliseconds. -/
  now : H → UInt32
  /-- What the host adds to a saved state. -/
  entries : H → List Entry
  /-- The host with the values of loaded entries. -/
  restore : List Entry → H → H

end Framescript
