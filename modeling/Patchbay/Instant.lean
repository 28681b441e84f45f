import Patchbay.Binary.Number

/-!
# Points in time

Ticks happen at points in time, counted in nanoseconds. Time that seems to have run backwards counts
as none.
-/

namespace Patchbay

/-- A point in time. -/
structure Instant where
  /-- Nanoseconds since the clock started. -/
  nanoseconds : Nat
deriving DecidableEq, Inhabited, Repr

namespace Instant

/-- The seconds from `start` to `now`: whole seconds plus the part of a second that is left. -/
def secondsSince (now start : Instant) : Double :=
  let elapsed := now.nanoseconds - start.nanoseconds
  .ofNat (elapsed / 1000000000) + .ofNat (elapsed % 1000000000) / 1000000000

end Instant

end Patchbay
