import Drift.Input.Event
import Drift.Lib.Scalar

/-!
# Scrolling

Scroll deltas become wheel units; what is left of a unit is carried to the next delta.
-/

namespace Drift.Input

abbrev maxUnitsPerEvent : Nat := 255

abbrev unitsPerNotch : Nat := 120

structure ScrollConfig (F : Type) where
  unitsPerPoint : F
  reverse : Bool

/-- The deltas of one scroll event: in points, or in lines. -/
inductive ScrollDelta (F : Type) where
  | precise (dx dy : F)
  | lines (dx dy : F)

structure ScrollAccumulator (F : Type) where
  config : ScrollConfig F
  vertical : F
  horizontal : F

variable {F : Type} [Scalar F]

open Scalar

/-- Upper bound on the units of one delta and axis. -/
def maxUnitsPerPush : F := ofNat 255 * ofNat 64

/-- Splits whole units into events of at most `chunk` units. -/
def splitUnits (chunk : Nat) [NeZero chunk] (horizontal : Bool) (remaining : Int) :
    List InputEvent :=
  if remaining = 0 then []
  else
    let step := Max.max (-chunk : Int) (Min.min remaining chunk)
    .wheel horizontal (Int16.ofInt step) :: splitUnits chunk horizontal (remaining - step)
termination_by remaining.natAbs
decreasing_by
  have hchunk : chunk ≠ 0 := NeZero.ne chunk
  omega

/-- Adds units to a remainder and emits the whole part; the remainder is what is left. -/
def emitUnits (residual units : F) (chunk : Nat) [NeZero chunk] (horizontal : Bool) :
    F × List InputEvent :=
  let units := if isNaN units then ofNat 0 else clamp units (-maxUnitsPerPush) maxUnitsPerPush
  let residual := residual + units
  let whole := trunc residual
  (residual - whole, splitUnits chunk horizontal (toInt whole))

namespace ScrollAccumulator

def new (config : ScrollConfig F) : ScrollAccumulator F where
  config := config
  vertical := ofNat 0
  horizontal := ofNat 0

/-- Adds the deltas of one event, the vertical one first. -/
def push (acc : ScrollAccumulator F) (delta : ScrollDelta F) :
    ScrollAccumulator F × List InputEvent :=
  let sign : F := if acc.config.reverse then -ofNat 1 else ofNat 1
  let (vertical, horizontal) :=
    match delta with
    | .precise dx dy =>
      (emitUnits acc.vertical (sign * dy * acc.config.unitsPerPoint) maxUnitsPerEvent false,
        emitUnits acc.horizontal (-sign * dx * acc.config.unitsPerPoint) maxUnitsPerEvent true)
    | .lines dx dy =>
      (emitUnits acc.vertical (sign * dy * ofNat unitsPerNotch) unitsPerNotch false,
        emitUnits acc.horizontal (-sign * dx * ofNat unitsPerNotch) unitsPerNotch true)
  ({ acc with vertical := vertical.1, horizontal := horizontal.1 },
    vertical.2 ++ horizontal.2)

def reset (acc : ScrollAccumulator F) : ScrollAccumulator F :=
  { acc with vertical := ofNat 0, horizontal := ofNat 0 }

end ScrollAccumulator

end Drift.Input
