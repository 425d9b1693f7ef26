import Drift.Core.Geometry
import Drift.Lib.Scalar

/-!
# View coordinates

Where the remote desktop is drawn inside the view, and the pixel under a point of the view. View
coordinates are points with a top-left origin.
-/

namespace Drift.Input

structure ViewPoint (F : Type) where
  x : F
  y : F

structure ViewSize (F : Type) where
  width : F
  height : F

structure ViewGeometry (F : Type) where
  points : ViewSize F
  backingScale : F

/-- A pixel of the desktop. -/
structure Pixel where
  x : UInt16
  y : UInt16
  deriving DecidableEq

/-- How the desktop is placed in the view. -/
inductive ScaleMode where
  | fit
  | oneToOne
  deriving DecidableEq

/-- Placement of the desktop inside the view. -/
structure Viewport (F : Type) where
  origin : ViewPoint F
  pointsPerPixel : F
  desktop : Size

variable {F : Type} [Scalar F]

open Scalar

/-- Floors a fractional pixel coordinate into `0..extent`; rounding noise is absorbed. -/
def toPixel (v : F) (extent : Nat) : UInt16 :=
  let epsilon : F := ofNat 1 / ofNat 10000000
  if isNaN v then 0
  else
    let max := ofNat (Nat.min (extent - 1) u16Max)
    UInt16.ofNat (toInt (clamp (floor (v + epsilon)) (ofNat 0) max)).toNat

namespace Viewport

/-- Degenerate geometry falls back to one point per pixel at the top-left corner. -/
def new (view : ViewGeometry F) (desktop : Size) (mode : ScaleMode) : Viewport F :=
  let vw := view.points.width
  let vh := view.points.height
  let dw : F := ofNat desktop.width
  let dh : F := ofNat desktop.height
  let scale :=
    match mode with
    | .fit => Scalar.min (vw / dw) (vh / dh)
    | .oneToOne => ofNat 1 / view.backingScale
  let scale := if isFinite scale && lt (ofNat 0) scale then scale else ofNat 1
  { origin :=
      { x := Scalar.max ((vw - dw * scale) / ofNat 2) (ofNat 0)
        y := Scalar.max ((vh - dh * scale) / ofNat 2) (ofNat 0) }
    pointsPerPixel := scale
    desktop := desktop }

/-- The pixel of the desktop nearest to a point; an empty desktop has none. -/
def viewToDesktop (viewport : Viewport F) (point : ViewPoint F) : Option Pixel :=
  if viewport.desktop.width = 0 ∨ viewport.desktop.height = 0 then none
  else
    some
      { x := toPixel ((point.x - viewport.origin.x) / viewport.pointsPerPixel)
          viewport.desktop.width
        y := toPixel ((point.y - viewport.origin.y) / viewport.pointsPerPixel)
          viewport.desktop.height }

end Viewport

end Drift.Input
