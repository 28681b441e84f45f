import Patchbay.Binary.Number
import Patchbay.Geometry

/-!
# Configuration

The tunables of the patch, of pointer handling and of the program that runs a patch without a
screen. Every field has a default.
-/

namespace Patchbay

/-- A width and a height. -/
structure Extent where
  /-- To the right. -/
  width : Single
  /-- Downwards. -/
  height : Single
deriving DecidableEq, Inhabited

namespace Extent

/-- The offset from the upper left to the lower right corner. -/
def toOffset (e : Extent) : Offset := ⟨e.width.toFloat32, e.height.toFloat32⟩

end Extent

/-- The tunables. -/
structure Config where
  /-- How far the pointer travels before a press becomes a drag. -/
  dragThreshold : Single := 5
  /-- Milliseconds between ticks. -/
  tickInterval : UInt64 := 20
  nodeSize : Extent := ⟨40, 40⟩
  /-- The size of the area around a jack that catches the pointer. -/
  hotspotSize : Extent := ⟨10, 20⟩
  /-- How far from the corner of the view spawned nodes land. -/
  spawnOffset : Single := 50
  /-- The random spread added to that. -/
  spawnJitter : Single := 80
  /-- Milliseconds that a run without a screen lasts. -/
  runFor : UInt64 := 2000
  /-- The seed of random draws; without one they differ from run to run. -/
  seed : Option UInt64 := none
deriving DecidableEq, Inhabited

end Patchbay
