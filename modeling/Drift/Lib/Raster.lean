import Mathlib.Algebra.Group.Nat.Defs
import Mathlib.Data.List.Basic
import Mathlib.Data.Nat.Basic
import Mathlib.Tactic.Ring

/-!
# Rasters

Rectangular pictures over any type of pixels, row by row. A raster is determined by its sides and by its
pixels (`ext_pixel`). Programs write rasters pixel by pixel in two nested loops (`draw`); what such a
loop does to each pixel is `update`.
-/

universe u

/-- A picture of the given sides. -/
structure Raster (α : Type u) where
  width : Nat
  height : Nat
  pixels : List α
  length_eq : pixels.length = width * height
  deriving DecidableEq

namespace Raster

variable {α : Type u}

/-- The index of a pixel that lies in the picture. -/
def offset (r : Raster α) (x y : Nat) : Option Nat :=
  if x < r.width ∧ y < r.height then some (y * r.width + x) else none

def pixel? (r : Raster α) (x y : Nat) : Option α := (r.offset x y).bind (r.pixels[·]?)

/-- Writes one pixel, if it lies in the picture. -/
def set (r : Raster α) (x y : Nat) (a : α) : Raster α :=
  match r.offset x y with
  | some i => { r with pixels := r.pixels.set i a, length_eq := by simp [r.length_eq] }
  | none => r

def filled (width height : Nat) (a : α) : Raster α :=
  ⟨width, height, List.replicate (width * height) a, List.length_replicate⟩

/-- The picture with the given pixels, if their number is right. -/
def ofList? (width height : Nat) (pixels : List α) : Option (Raster α) :=
  if h : pixels.length = width * height then some ⟨width, height, pixels, h⟩ else none

/-- Writes the pixels of a rectangle, row by row. -/
def draw (r : Raster α) (x y width height : Nat) (f : Nat → Nat → α) : Raster α :=
  (List.range height).foldl
    (fun r v => (List.range width).foldl (fun r u => r.set (x + u) (y + v) (f u v)) r) r

/-- The pixels for which there is a new value get it. -/
def update (r : Raster α) (f : Nat → Nat → Option α) : Raster α :=
  { r with
    pixels := r.pixels.mapIdx fun i a => (f (i % r.width) (i / r.width)).getD a
    length_eq := by simp [r.length_eq] }

/-! ### Pixels -/

theorem offset_lt {r : Raster α} {x y : Nat} (hx : x < r.width) (hy : y < r.height) :
    y * r.width + x < r.pixels.length := by
  rw [r.length_eq]
  calc
    y * r.width + x < y * r.width + r.width := Nat.add_lt_add_left hx _
    _ = (y + 1) * r.width := by ring
    _ ≤ r.height * r.width := Nat.mul_le_mul_right _ hy
    _ = r.width * r.height := Nat.mul_comm _ _

theorem pixel?_of_lt {r : Raster α} {x y : Nat} (hx : x < r.width) (hy : y < r.height) :
    r.pixel? x y = r.pixels[y * r.width + x]? := by
  simp [pixel?, offset, hx, hy]

theorem pixel?_isSome {r : Raster α} {x y : Nat} :
    (r.pixel? x y).isSome = true ↔ x < r.width ∧ y < r.height := by
  by_cases h : x < r.width ∧ y < r.height
  · rw [pixel?_of_lt h.1 h.2, List.getElem?_eq_getElem (offset_lt h.1 h.2)]
    simp [h]
  · simp [pixel?, offset, h]

theorem pixel?_eq_none {r : Raster α} {x y : Nat} :
    r.pixel? x y = none ↔ ¬ (x < r.width ∧ y < r.height) := by
  rw [← pixel?_isSome, Bool.not_eq_true, Option.isSome_eq_false_iff, Option.isNone_iff_eq_none]

theorem ext_pixel {r s : Raster α} (hwidth : r.width = s.width) (hheight : r.height = s.height)
    (h : ∀ x y, x < r.width → y < r.height → r.pixel? x y = s.pixel? x y) : r = s := by
  have hpixels : r.pixels = s.pixels := by
    refine List.ext_getElem? fun i => ?_
    by_cases hi : i < r.width * r.height
    · have hpos : 0 < r.width := Nat.pos_of_mul_pos_right (Nat.zero_lt_of_lt hi)
      have hx : i % r.width < r.width := Nat.mod_lt i hpos
      have hy : i / r.width < r.height := Nat.div_lt_of_lt_mul hi
      have hpixel := h _ _ hx hy
      rw [pixel?_of_lt hx hy, pixel?_of_lt (hwidth ▸ hx) (hheight ▸ hy), ← hwidth,
        Nat.div_add_mod'] at hpixel
      exact hpixel
    · have hr : r.pixels.length ≤ i := by rw [r.length_eq]; exact Nat.le_of_not_lt hi
      have hs : s.pixels.length ≤ i := by
        rw [s.length_eq, ← hwidth, ← hheight]
        exact Nat.le_of_not_lt hi
      rw [List.getElem?_eq_none hr, List.getElem?_eq_none hs]
  cases r
  cases s
  cases hwidth
  cases hheight
  cases hpixels
  rfl

/-! ### Writing -/

section Write

variable {r : Raster α} {x y u v : Nat} {a : α}

@[simp]
theorem width_set : (r.set x y a).width = r.width := by
  unfold set
  split <;> rfl

@[simp]
theorem height_set : (r.set x y a).height = r.height := by
  unfold set
  split <;> rfl

/-- The pixels of a row come before those of the next one. -/
theorem offset_inj {w : Nat} (hx : x < w) (hu : u < w) (h : y * w + x = v * w + u) :
    x = u ∧ y = v := by
  have hpos : 0 < w := Nat.zero_lt_of_lt hx
  constructor
  · have hmod := congrArg (· % w) h
    simpa [Nat.mul_add_mod', Nat.mod_eq_of_lt hx, Nat.mod_eq_of_lt hu] using hmod
  · have hdiv := congrArg (· / w) h
    simpa [Nat.add_comm, Nat.add_mul_div_right _ _ hpos, Nat.div_eq_of_lt hx, Nat.div_eq_of_lt hu]
      using hdiv

theorem pixel?_set : (r.set x y a).pixel? u v =
    if u = x ∧ v = y then (r.pixel? u v).map fun _ => a else r.pixel? u v := by
  by_cases hin : u < r.width ∧ v < r.height
  · obtain ⟨hu, hv⟩ := hin
    rw [pixel?_of_lt (by simpa using hu) (by simpa using hv), pixel?_of_lt hu hv, width_set]
    unfold set offset
    by_cases hxy : x < r.width ∧ y < r.height
    · rw [if_pos hxy]
      simp only [List.getElem?_set]
      by_cases heq : y * r.width + x = v * r.width + u
      · obtain ⟨rfl, rfl⟩ := offset_inj hxy.1 hu heq
        simp [offset_lt hu hv]
      · have hne : ¬ (u = x ∧ v = y) := by
          rintro ⟨rfl, rfl⟩
          exact heq rfl
        rw [if_neg heq, if_neg hne]
    · rw [if_neg hxy]
      have hne : ¬ (u = x ∧ v = y) := by
        rintro ⟨rfl, rfl⟩
        exact hxy ⟨hu, hv⟩
      rw [if_neg hne]
  · have hnone : r.pixel? u v = none := pixel?_eq_none.mpr hin
    have hnone' : (r.set x y a).pixel? u v = none := pixel?_eq_none.mpr (by simpa using hin)
    rw [hnone, hnone']
    simp

@[simp]
theorem width_update {f : Nat → Nat → Option α} : (r.update f).width = r.width := rfl

@[simp]
theorem height_update {f : Nat → Nat → Option α} : (r.update f).height = r.height := rfl

theorem pixel?_update {f : Nat → Nat → Option α} :
    (r.update f).pixel? x y = (r.pixel? x y).map fun a => (f x y).getD a := by
  by_cases hin : x < r.width ∧ y < r.height
  · obtain ⟨hx, hy⟩ := hin
    have hpos : 0 < r.width := Nat.zero_lt_of_lt hx
    rw [pixel?_of_lt (r := r.update f) hx hy, pixel?_of_lt hx hy]
    simp only [update, List.getElem?_mapIdx]
    have hmod : (y * r.width + x) % r.width = x := by
      rw [Nat.mul_add_mod', Nat.mod_eq_of_lt hx]
    have hdiv : (y * r.width + x) / r.width = y := by
      rw [Nat.add_comm, Nat.add_mul_div_right _ _ hpos, Nat.div_eq_of_lt hx, Nat.zero_add]
    rw [hmod, hdiv]
  · have hnone : r.pixel? x y = none := pixel?_eq_none.mpr hin
    have hnone' : (r.update f).pixel? x y = none := pixel?_eq_none.mpr hin
    rw [hnone, hnone']
    rfl

theorem pixel?_filled {width height : Nat} (hx : x < width) (hy : y < height) :
    (filled width height a).pixel? x y = some a := by
  have hlt := offset_lt (r := filled width height a) hx hy
  rw [pixel?_of_lt hx hy, List.getElem?_eq_getElem hlt]
  simp [filled]

/-! ### Loops -/

/-- The new value of the pixels of a rectangle. -/
def inRect (x y width height : Nat) (f : Nat → Nat → α) (u v : Nat) : Option α :=
  if x ≤ u ∧ u < x + width ∧ y ≤ v ∧ v < y + height then some (f (u - x) (v - y)) else none

theorem pixel?_row (r : Raster α) (x y width : Nat) (f : Nat → α) (u v : Nat) :
    let row := (List.range width).foldl (fun r n => r.set (x + n) y (f n)) r
    row.width = r.width ∧ row.height = r.height ∧
      row.pixel? u v = if x ≤ u ∧ u < x + width ∧ v = y then (r.pixel? u v).map fun _ => f (u - x)
        else r.pixel? u v := by
  induction width with
  | zero => exact ⟨rfl, rfl, by rw [if_neg (by omega)]; rfl⟩
  | succ width ih =>
      obtain ⟨hwidth, hheight, hpixel⟩ := ih
      rw [List.range_succ, List.foldl_append]
      refine ⟨by simpa using hwidth, by simpa using hheight, ?_⟩
      simp only [List.foldl_cons, List.foldl_nil]
      rw [pixel?_set, hpixel]
      by_cases hlast : u = x + width ∧ v = y
      · obtain ⟨rfl, rfl⟩ := hlast
        simp
      · rw [if_neg hlast]
        by_cases hrow : x ≤ u ∧ u < x + width ∧ v = y
        · rw [if_pos hrow, if_pos (by omega)]
        · rw [if_neg hrow, if_neg (by omega)]

theorem pixel?_draw (r : Raster α) (x y width height : Nat) (f : Nat → Nat → α) (u v : Nat) :
    (r.draw x y width height f).width = r.width ∧ (r.draw x y width height f).height = r.height ∧
      (r.draw x y width height f).pixel? u v =
        (r.pixel? u v).map fun a => (inRect x y width height f u v).getD a := by
  unfold draw inRect
  induction height with
  | zero => exact ⟨rfl, rfl, by rw [if_neg (by omega)]; simp⟩
  | succ height ih =>
      obtain ⟨hwidth, hheight, hpixel⟩ := ih
      rw [List.range_succ, List.foldl_append, List.foldl_cons, List.foldl_nil]
      obtain ⟨hwidth', hheight', hpixel'⟩ := pixel?_row
        ((List.range height).foldl
          (fun r v => (List.range width).foldl (fun r u => r.set (x + u) (y + v) (f u v)) r) r)
        x (y + height) width (fun n => f n height) u v
      refine ⟨hwidth'.trans hwidth, hheight'.trans hheight, ?_⟩
      rw [hpixel', hpixel]
      by_cases hlast : x ≤ u ∧ u < x + width ∧ v = y + height
      · obtain ⟨hx, hu, rfl⟩ := hlast
        have hin : x ≤ u ∧ u < x + width ∧ y ≤ y + height ∧ y + height < y + (height + 1) :=
          ⟨hx, hu, by omega, by omega⟩
        rw [if_pos ⟨hx, hu, rfl⟩, if_pos hin, Option.map_map]
        simp [Function.comp_def]
      · rw [if_neg hlast]
        by_cases hrect : x ≤ u ∧ u < x + width ∧ y ≤ v ∧ v < y + height
        · rw [if_pos hrect, if_pos (by omega)]
        · rw [if_neg hrect, if_neg (by omega)]

/-- **Loops.** Writing a rectangle in two nested loops updates its pixels. -/
theorem draw_eq_update (r : Raster α) (x y width height : Nat) (f : Nat → Nat → α) :
    r.draw x y width height f = r.update (inRect x y width height f) := by
  refine ext_pixel (pixel?_draw r x y width height f 0 0).1 (pixel?_draw r x y width height f 0 0).2.1
    fun u v _ _ => ?_
  rw [(pixel?_draw r x y width height f u v).2.2, pixel?_update]

/-- Updates with the same new values in the picture. -/
theorem update_congr {f g : Nat → Nat → Option α}
    (h : ∀ u v, u < r.width → v < r.height → f u v = g u v) : r.update f = r.update g := by
  refine ext_pixel rfl rfl fun u v hu hv => ?_
  rw [pixel?_update, pixel?_update, h u v hu hv]

theorem draw_congr {width height : Nat} {f g : Nat → Nat → α}
    (h : ∀ u v, u < width → v < height → f u v = g u v) :
    r.draw x y width height f = r.draw x y width height g := by
  rw [draw_eq_update, draw_eq_update]
  refine update_congr fun u v _ _ => ?_
  unfold inRect
  split_ifs with hin
  · rw [h (u - x) (v - y) (by omega) (by omega)]
  · rfl

theorem update_eq_self {f : Nat → Nat → Option α}
    (h : ∀ u v, u < r.width → v < r.height → f u v = none) : r.update f = r := by
  refine ext_pixel rfl rfl fun u v hu hv => ?_
  rw [pixel?_update, h u v hu hv]
  simp

end Write

end Raster
