import Mathlib.Algebra.Ring.Nat
import Mathlib.Order.Defs.LinearOrder

/-!
# Geometry

Pixel geometry shared by the codecs, the graphics client and the renderer. Coordinates are the
source's `u32`; the additions that saturate there saturate here.
-/

namespace Drift

/-- `u32::MAX`. -/
abbrev u32Max : Nat := 2 ^ 32 - 1

/-- `u16::MAX`. -/
abbrev u16Max : Nat := 2 ^ 16 - 1

abbrev Bytes := List UInt8

structure Size where
  width : Nat
  height : Nat
  deriving DecidableEq

structure Point where
  x : Nat
  y : Nat
  deriving DecidableEq

/-- An origin and a size; the rectangle covers columns `x..x+width` and rows `y..y+height`. -/
structure Rect where
  x : Nat
  y : Nat
  width : Nat
  height : Nat
  deriving DecidableEq

structure Bgra where
  b : UInt8
  g : UInt8
  r : UInt8
  a : UInt8
  deriving DecidableEq

namespace Rect

/-- From inclusive left and top and exclusive right and bottom edges. -/
def fromLtrb (left top right bottom : Nat) : Option Rect :=
  if right < left then none
  else if bottom < top then none
  else some { x := left, y := top, width := right - left, height := bottom - top }

def right (r : Rect) : Nat := min (r.x + r.width) u32Max

def bottom (r : Rect) : Nat := min (r.y + r.height) u32Max

def size (r : Rect) : Size := ⟨r.width, r.height⟩

def isEmpty (r : Rect) : Bool := r.width = 0 ∨ r.height = 0

/-- The rectangle lies inside a surface of the given size, as the code checks it. -/
def fitsWithin (r : Rect) (bounds : Size) : Bool :=
  r.right ≤ bounds.width ∧ r.bottom ≤ bounds.height

/-- The rectangle lies inside a surface of the given size. -/
def Inside (r : Rect) (bounds : Size) : Prop :=
  r.x + r.width ≤ bounds.width ∧ r.y + r.height ≤ bounds.height

instance (r : Rect) (bounds : Size) : Decidable (r.Inside bounds) :=
  inferInstanceAs (Decidable (_ ∧ _))

/-- On a surface whose sides are below the saturation bound the check is exact. -/
theorem inside_of_fitsWithin {r : Rect} {bounds : Size} (hwidth : bounds.width < u32Max)
    (hheight : bounds.height < u32Max) (h : r.fitsWithin bounds = true) : r.Inside bounds := by
  have hfits : r.right ≤ bounds.width ∧ r.bottom ≤ bounds.height := by simpa [fitsWithin] using h
  simp only [right, bottom] at hfits
  exact ⟨by omega, by omega⟩

theorem fromLtrb_eq_some {left top right bottom : Nat} {r : Rect}
    (h : fromLtrb left top right bottom = some r) :
    left ≤ right ∧ top ≤ bottom ∧ r = ⟨left, top, right - left, bottom - top⟩ := by
  unfold fromLtrb at h
  split at h
  · cases h
  split at h
  · cases h
  · simp only [Option.some.injEq] at h
    exact ⟨by omega, by omega, h.symm⟩

end Rect

end Drift
