import Framescript.Fault

/-!
The 64 threads. Each has an offset and a paused flag, and a request for either. Scripts write only
the requests; a commit between two frames makes them take effect.
-/
namespace Framescript

/-- The number of threads. -/
abbrev threadCount : Nat := 64

/-- What each thread is doing and what is requested of it. -/
structure ThreadTable where
  pc : Vector UInt16 threadCount
  requestedPc : Vector UInt16 threadCount
  /-- A thread is paused if its flag is not zero. -/
  paused : Vector UInt8 threadCount
  requestedPaused : Vector UInt8 threadCount
  deriving DecidableEq, Repr

namespace ThreadTable

/-- The offset of a thread that does not run. -/
def inactive : UInt16 := 0xFFFF

/-- The request of a thread of which nothing is requested. -/
def noRequest : UInt16 := 0xFFFF

/-- The request that a thread stop. -/
def stopRequest : UInt16 := 0xFFFE

/-- No thread runs and nothing is requested. -/
def empty : ThreadTable where
  pc := .replicate threadCount inactive
  requestedPc := .replicate threadCount noRequest
  paused := .replicate threadCount 0
  requestedPaused := .replicate threadCount 0

/-- Thread 0 starts at offset 0, and no other runs. -/
def started : ThreadTable :=
  { empty with pc := empty.pc.set 0 0 }

/-- The offset of a thread that had offset `pc` when `request` takes effect. -/
def committedPc (pc request : UInt16) : UInt16 :=
  if request = noRequest then pc
  else if request = stopRequest then inactive
  else request

/-- All requests take effect. Requested pauses stay requested. -/
def commit (t : ThreadTable) : ThreadTable where
  pc := t.pc.zipWith committedPc t.requestedPc
  requestedPc := .replicate threadCount noRequest
  paused := t.requestedPaused
  requestedPaused := t.requestedPaused

/-- Whether a thread is paused. -/
def isPaused (t : ThreadTable) (thread : Fin threadCount) : Bool :=
  t.paused.get thread != 0

/-- Whether a pause is requested of a thread. -/
def isPauseRequested (t : ThreadTable) (thread : Fin threadCount) : Bool :=
  t.requestedPaused.get thread != 0

/-- Whether a thread gets a slice. -/
def isRunnable (t : ThreadTable) (thread : Fin threadCount) : Bool :=
  !t.isPaused thread && t.pc.get thread != inactive

/-- The table with another offset for a thread. -/
def setPc (t : ThreadTable) (thread : Fin threadCount) (pc : UInt16) : ThreadTable :=
  { t with pc := t.pc.set thread.val pc thread.isLt }

/-- The table with a jump requested of a thread. -/
def requestPc (t : ThreadTable) (thread : UInt8) (pc : UInt16) : Except Fault ThreadTable :=
  if valid : thread.toNat < threadCount then
    .ok { t with requestedPc := t.requestedPc.set thread.toNat pc valid }
  else .error (.invalidThread thread)

/-- The table with a pause, or the end of one, requested of a thread. -/
def requestPause (t : ThreadTable) (thread : UInt8) (paused : Bool) : Except Fault ThreadTable :=
  if valid : thread.toNat < threadCount then
    .ok { t with requestedPaused := t.requestedPaused.set thread.toNat (if paused then 1 else 0) valid }
  else .error (.invalidThread thread)

/-- A row with another value for the threads from `first` to `last`, both included. -/
def fillRange {α : Type} (row : Vector α threadCount) (first last : Nat) (value : α) : Vector α threadCount :=
  row.mapIdx fun thread old => if first ≤ thread ∧ thread ≤ last then value else old

/-- The table with a pause, or the end of one, requested of a range of threads. -/
def requestPauseRange (t : ThreadTable) (first last : Nat) (paused : Bool) : ThreadTable :=
  { t with requestedPaused := fillRange t.requestedPaused first last (if paused then 1 else 0) }

/-- The table with a range of threads requested to stop. -/
def requestStopRange (t : ThreadTable) (first last : Nat) : ThreadTable :=
  { t with requestedPc := fillRange t.requestedPc first last stopRequest }

/-- The number of threads that have an offset. -/
def activeCount (t : ThreadTable) : Nat :=
  t.pc.toList.countP (· ≠ inactive)

/-- The threads in the order in which they run. -/
def order : List (Fin threadCount) :=
  List.finRange threadCount

end ThreadTable

end Framescript
