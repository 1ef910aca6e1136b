import Framescript.Host
import Framescript.Program

/-!
A host without screen and sound. It serves the parts of a program, counts what is asked of it, and
has a clock that only waiting moves.
-/
namespace Framescript

/-- How often things were asked for. -/
structure HostStats where
  polygons : UInt64 := 0
  strings : UInt64 := 0
  displayUpdates : UInt64 := 0
  sounds : UInt64 := 0
  music : UInt64 := 0
  resourcesLoaded : UInt64 := 0
  partLoads : UInt64 := 0
  deriving DecidableEq, Repr

/-- A program with counters and a clock. -/
structure Headless where
  program : Program := {}
  stats : HostStats := {}
  now : UInt32 := 0
  /-- The page that was last shown. -/
  lastPage : Option UInt8 := none
  deriving DecidableEq, Repr

namespace Headless

/-- The host after a request. -/
def perform (call : Call) (h : Headless) : Headless :=
  match call with
  | .drawPolygon .. => { h with stats.polygons := h.stats.polygons + 1 }
  | .drawString .. => { h with stats.strings := h.stats.strings + 1 }
  | .updateDisplay page => { h with stats.displayUpdates := h.stats.displayUpdates + 1, lastPage := some page }
  | .playSound .. => { h with stats.sounds := h.stats.sounds + 1 }
  | .playMusic .. => { h with stats.music := h.stats.music + 1 }
  | .loadResource _ => { h with stats.resourcesLoaded := h.stats.resourcesLoaded + 1 }
  | .wait millis => { h with now := h.now + millis }
  | .setPalette _ | .selectPage _ | .fillPage .. | .copyPage .. | .stopAll | .invalidateResources => h

/-- The code of a part of the program. -/
def openPart (part : UInt16) (h : Headless) : Except Fault Code × Headless :=
  match h.program.code? part with
  | none => (.error (.unknownPart part), h)
  | some code => (.ok code, { h with stats.partLoads := h.stats.partLoads + 1 })

instance : Host Headless where
  perform := perform
  openPart := openPart
  takeMusicMark h := (none, h)
  now := Headless.now
  entries _ := []
  restore _ h := h

end Headless

end Framescript
