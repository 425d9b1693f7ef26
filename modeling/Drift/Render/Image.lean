import Drift.Core.Geometry
import Drift.Lib.Raster

/-!
# Images and clipping

Pictures on the side of the CPU, and the clipping that every operation of the compositor goes through.
What the clipped loops do is said without any clipping: an image laid over another one at a point
(`over`), and the pixels of a rectangle painted (`paint`).
-/

namespace Drift

def Rect.Covers (r : Rect) (u v : Nat) : Prop :=
  r.x ≤ u ∧ u < r.x + r.width ∧ r.y ≤ v ∧ v < r.y + r.height

instance (r : Rect) (u v : Nat) : Decidable (r.Covers u v) := inferInstanceAs (Decidable (_ ∧ _))

namespace Render

abbrev BgraImage := Raster Bgra

/-- `[0; 4]`. -/
def transparent : Bgra := ⟨0, 0, 0, 0⟩

def opaqueBlack : Bgra := ⟨0, 0, 0, 255⟩

/-- The part of a rectangle in a surface of the given size, unless nothing remains. -/
def clipRect (rect : Rect) (bounds : Size) : Option Rect :=
  if rect.isEmpty ∨ rect.x ≥ bounds.width ∨ rect.y ≥ bounds.height then none
  else
    some ⟨rect.x, rect.y, min rect.width (bounds.width - rect.x),
      min rect.height (bounds.height - rect.y)⟩

/-- A copy of `size` pixels from `src` in the source to `dst` in the destination. -/
structure CopyRegion where
  src : Point
  dst : Point
  size : Size
  deriving DecidableEq

/-- A copy of `srcRect` to `dst`, clipped to both sides, unless nothing remains. -/
def clipCopy (srcRect : Rect) (srcBounds : Size) (dst : Point) (dstBounds : Size) :
    Option CopyRegion := do
  let src ← clipRect srcRect srcBounds
  let dstRect ← clipRect ⟨dst.x, dst.y, src.width, src.height⟩ dstBounds
  return ⟨⟨src.x, src.y⟩, dst, ⟨dstRect.width, dstRect.height⟩⟩

namespace BgraImage

def size (img : BgraImage) : Size := ⟨img.width, img.height⟩

def full (img : BgraImage) : Rect := ⟨0, 0, img.width, img.height⟩

def filled (size : Size) (bgra : Bgra) : BgraImage := Raster.filled size.width size.height bgra

def pixel (img : BgraImage) (x y : Nat) : Bgra := (img.pixel? x y).getD transparent

def crop (img : BgraImage) (rect : Rect) : BgraImage :=
  (filled rect.size transparent).draw 0 0 rect.width rect.height fun x y =>
    img.pixel (rect.x + x) (rect.y + y)

/-- Writes the pixels of a region of the source, where the copy says. -/
def copyRegion (src : BgraImage) (region : CopyRegion) (dst : BgraImage) : BgraImage :=
  dst.draw region.dst.x region.dst.y region.size.width region.size.height fun x y =>
    src.pixel (region.src.x + x) (region.src.y + y)

/-! ### Without clipping -/

/-- The image with another one laid over it, the top left corner of which is at a point. -/
def overlay (dst : BgraImage) (corner : Point) (src : BgraImage) : BgraImage :=
  dst.update fun u v =>
    if corner.x ≤ u ∧ corner.y ≤ v then src.pixel? (u - corner.x) (v - corner.y) else none

/-- The image with the pixels of a rectangle painted. -/
def paint (dst : BgraImage) (rect : Rect) (f : Nat → Nat → Option Bgra) : BgraImage :=
  dst.update fun u v => if rect.Covers u v then f u v else none

/-- The part of an image in a rectangle, unless nothing remains. -/
def part (img : BgraImage) (rect : Rect) : Option BgraImage :=
  (clipRect rect img.size).map img.crop

end BgraImage

/-! ### What the clipping guarantees -/

section Clip

variable {rect clipped : Rect} {bounds : Size} {u v : Nat}

theorem inRect_of_rect (r : Rect) (f : Nat → Nat → Bgra) (u v : Nat) :
    Raster.inRect r.x r.y r.width r.height f u v =
      if r.Covers u v then some (f (u - r.x) (v - r.y)) else none := rfl

theorem clipRect_eq_some (h : clipRect rect bounds = some clipped) :
    clipped.x = rect.x ∧ clipped.y = rect.y ∧ 0 < clipped.width ∧ 0 < clipped.height ∧
      clipped.width = min rect.width (bounds.width - rect.x) ∧
      clipped.height = min rect.height (bounds.height - rect.y) := by
  unfold clipRect Rect.isEmpty at h
  split at h
  · cases h
  · next hsome =>
      obtain rfl := Option.some.inj h
      simp only [decide_eq_true_eq, not_or] at hsome
      exact ⟨rfl, rfl, by simp only; omega, by simp only; omega, rfl, rfl⟩

theorem inside_clipRect (h : clipRect rect bounds = some clipped) : clipped.Inside bounds := by
  obtain ⟨hx, hy, hwidth, hheight, hw, hh⟩ := clipRect_eq_some h
  exact ⟨by omega, by omega⟩

theorem covers_clipRect (h : clipRect rect bounds = some clipped) :
    clipped.Covers u v ↔ rect.Covers u v ∧ u < bounds.width ∧ v < bounds.height := by
  obtain ⟨hx, hy, hwidth, hheight, hw, hh⟩ := clipRect_eq_some h
  unfold Rect.Covers
  omega

theorem not_covers_of_clipRect (h : clipRect rect bounds = none) (hu : u < bounds.width)
    (hv : v < bounds.height) : ¬ rect.Covers u v := by
  unfold clipRect Rect.isEmpty at h
  split at h
  · next hempty =>
      simp only [decide_eq_true_eq] at hempty
      unfold Rect.Covers
      omega
  · cases h

/-- A rectangle that is not empty and lies in the surface is left alone. -/
theorem clipRect_of_inside (hinside : rect.Inside bounds) (hempty : rect.isEmpty = false) :
    clipRect rect bounds = some rect := by
  obtain ⟨hx, hy⟩ := hinside
  simp only [Rect.isEmpty, decide_eq_false_iff_not, not_or] at hempty
  unfold clipRect
  rw [if_neg (by simp [Rect.isEmpty]; omega)]
  rw [Nat.min_eq_left (by omega), Nat.min_eq_left (by omega)]

theorem clipRect_empty (hempty : rect.isEmpty = true) : clipRect rect bounds = none := by
  unfold clipRect
  rw [if_pos (.inl hempty)]

theorem clipCopy_eq_some {srcBounds dstBounds : Size} {dst : Point} {region : CopyRegion}
    (h : clipCopy rect srcBounds dst dstBounds = some region) :
    region.src = ⟨rect.x, rect.y⟩ ∧ region.dst = dst ∧ 0 < region.size.width ∧
      0 < region.size.height ∧ region.size.width ≤ rect.width ∧ region.size.height ≤ rect.height := by
  unfold clipCopy at h
  obtain ⟨src, hsrc, hbind⟩ := Option.bind_eq_some_iff.mp h
  obtain ⟨clipped, hdst, heq⟩ := Option.bind_eq_some_iff.mp hbind
  obtain rfl := Option.some.inj heq
  obtain ⟨hx, hy, -, -, hw, hh⟩ := clipRect_eq_some hsrc
  obtain ⟨-, -, hwidth, hheight, hw', hh'⟩ := clipRect_eq_some hdst
  simp only at hw' hh'
  exact ⟨by rw [hx, hy], rfl, hwidth, hheight, by simp only; omega, by simp only; omega⟩

end Clip

namespace BgraImage

variable {dst src img : BgraImage} {rect clipped : Rect} {corner : Point}

theorem pixel?_crop {x y : Nat} (hx : x < rect.width) (hy : y < rect.height) :
    (img.crop rect).pixel? x y = some (img.pixel (rect.x + x) (rect.y + y)) := by
  have hfilled : (filled rect.size transparent).pixel? x y = some transparent :=
    Raster.pixel?_filled hx hy
  unfold crop
  rw [(Raster.pixel?_draw ..).2.2, hfilled]
  simp [Raster.inRect, hx, hy]

theorem width_crop : (img.crop rect).width = rect.width :=
  (Raster.pixel?_draw _ 0 0 rect.width rect.height _ 0 0).1

theorem height_crop : (img.crop rect).height = rect.height :=
  (Raster.pixel?_draw _ 0 0 rect.width rect.height _ 0 0).2.1

theorem size_crop : size (img.crop rect) = rect.size := by
  rw [size, width_crop, height_crop]
  rfl

theorem pixel?_of_lt {x y : Nat} (hx : x < img.width) (hy : y < img.height) :
    img.pixel? x y = some (img.pixel x y) := by
  obtain ⟨a, ha⟩ := Option.isSome_iff_exists.mp (Raster.pixel?_isSome.mpr ⟨hx, hy⟩)
  rw [pixel, ha]
  rfl

theorem crop_full : img.crop img.full = img := by
  refine Raster.ext_pixel width_crop height_crop fun x y hx hy => ?_
  rw [width_crop] at hx
  rw [height_crop] at hy
  rw [pixel?_crop hx hy, pixel?_of_lt hx hy]
  simp [full]

/-- Where a crop is laid over an image, its pixels are seen. -/
theorem overlay_crop (dst : BgraImage) (corner : Point) (img : BgraImage) (rect : Rect) :
    dst.overlay corner (img.crop rect) =
      dst.update fun u v =>
        if (⟨corner.x, corner.y, rect.width, rect.height⟩ : Rect).Covers u v then
          some (img.pixel (rect.x + (u - corner.x)) (rect.y + (v - corner.y)))
        else none := by
  refine Raster.update_congr fun u v _ _ => ?_
  by_cases hcorner : corner.x ≤ u ∧ corner.y ≤ v
  · rw [if_pos hcorner]
    by_cases hin : u - corner.x < rect.width ∧ v - corner.y < rect.height
    · have hcovers : (⟨corner.x, corner.y, rect.width, rect.height⟩ : Rect).Covers u v := by
        refine ⟨hcorner.1, ?_, hcorner.2, ?_⟩ <;> simp only <;> omega
      rw [pixel?_crop hin.1 hin.2, if_pos hcovers]
    · have hcovers : ¬ (⟨corner.x, corner.y, rect.width, rect.height⟩ : Rect).Covers u v := by
        rintro ⟨hx, hu, hy, hv⟩
        simp only at hx hu hy hv
        omega
      rw [Raster.pixel?_eq_none.mpr (by rwa [width_crop, height_crop]), if_neg hcovers]
  · have hcovers : ¬ (⟨corner.x, corner.y, rect.width, rect.height⟩ : Rect).Covers u v :=
      fun h => hcorner ⟨h.1, h.2.2.1⟩
    rw [if_neg hcorner, if_neg hcovers]

/-- **Copies.** A clipped copy lays the part of the source over the destination. -/
theorem copy_eq_over (src : BgraImage) (rect : Rect) (corner : Point) (dst : BgraImage) :
    (match clipCopy rect src.size corner dst.size with
      | some region => src.copyRegion region dst
      | none => dst) =
    match src.part rect with
      | some part => dst.overlay corner part
      | none => dst := by
  unfold clipCopy part
  cases hsrc : clipRect rect src.size with
  | none => rfl
  | some clipped =>
      simp only [Option.bind_eq_bind, Option.bind_some, Option.map_some]
      rw [overlay_crop]
      cases hdst : clipRect ⟨corner.x, corner.y, clipped.width, clipped.height⟩ dst.size with
      | none =>
          refine (Raster.update_eq_self fun u v hu hv => ?_).symm
          exact if_neg (not_covers_of_clipRect hdst hu hv)
      | some region =>
          obtain ⟨hx, hy, -, -, -, -⟩ := clipRect_eq_some hdst
          simp only [Option.bind_some, Option.pure_def, copyRegion, Raster.draw_eq_update]
          refine Raster.update_congr fun u v hu hv => ?_
          have hcovers := (covers_clipRect (u := u) (v := v) hdst).trans (and_iff_left ⟨hu, hv⟩)
          unfold Rect.Covers at hcovers
          rw [hx, hy] at hcovers
          exact if_congr hcovers rfl rfl

theorem part_full (img : BgraImage) :
    img.part img.full = if img.full.isEmpty then none else some img := by
  unfold part
  split
  · next hempty => rw [clipRect_empty hempty]; rfl
  · next hsome =>
      have hinside : img.full.Inside img.size := ⟨Nat.le_of_eq (Nat.zero_add _),
        Nat.le_of_eq (Nat.zero_add _)⟩
      rw [clipRect_of_inside hinside (Bool.eq_false_iff.mpr hsome), Option.map_some, crop_full]

/-- A copy of all of an image lays it over the destination. -/
theorem copy_full_eq_over (src : BgraImage) (corner : Point) (dst : BgraImage) :
    (match clipCopy src.full src.size corner dst.size with
      | some region => src.copyRegion region dst
      | none => dst) = dst.overlay corner src := by
  rw [copy_eq_over, part_full]
  split_ifs with hempty
  · refine (Raster.update_eq_self fun u v _ _ => ?_).symm
    have hnone : ∀ x y, src.pixel? x y = none := by
      intro x y
      have hsides : src.width = 0 ∨ src.height = 0 := of_decide_eq_true hempty
      refine Raster.pixel?_eq_none.mpr fun hin => ?_
      omega
    rw [hnone, ite_self]
  · rfl

/-- **Painting.** Painting the clipped rectangle paints the rectangle, as far as the bounds go. -/
theorem draw_clip_eq_paint (dst : BgraImage) (rect : Rect) (bounds : Size) (f : Nat → Nat → Bgra) :
    (match clipRect rect bounds with
      | some r => dst.draw r.x r.y r.width r.height fun x y => f (r.x + x) (r.y + y)
      | none => dst) =
    dst.paint rect fun u v =>
      if u < bounds.width ∧ v < bounds.height then some (f u v) else none := by
  unfold paint
  cases hclip : clipRect rect bounds with
  | none =>
      refine (Raster.update_eq_self fun u v _ _ => ?_).symm
      split
      · next hcovers =>
          exact if_neg fun hbounds => not_covers_of_clipRect hclip hbounds.1 hbounds.2 hcovers
      · rfl
  | some r =>
      simp only [Raster.draw_eq_update]
      refine Raster.update_congr fun u v _ _ => ?_
      have hcovers := covers_clipRect (u := u) (v := v) hclip
      by_cases hin : r.Covers u v
      · obtain ⟨hrect, hbounds⟩ := hcovers.mp hin
        rw [inRect_of_rect, if_pos hin, if_pos hrect, if_pos hbounds, Nat.add_sub_cancel' hin.1,
          Nat.add_sub_cancel' hin.2.2.1]
      · rw [inRect_of_rect, if_neg hin]
        split
        · next hrect => exact (if_neg fun hbounds => hin (hcovers.mpr ⟨hrect, hbounds⟩)).symm
        · rfl

/-- The loops over the clipped rectangles paint the rectangles. -/
theorem foldl_draw_clip (f : Nat → Nat → Bgra) (colors : Nat → Nat → Option Bgra) (bounds : Size)
    (rects : List Rect) (dst : BgraImage)
    (hcolors : ∀ u v, u < dst.width → v < dst.height →
      colors u v = if u < bounds.width ∧ v < bounds.height then some (f u v) else none) :
    (rects.filterMap (clipRect · bounds)).foldl
        (fun dst r => dst.draw r.x r.y r.width r.height fun x y => f (r.x + x) (r.y + y)) dst =
      rects.foldl (fun dst r => dst.paint r colors) dst := by
  induction rects generalizing dst with
  | nil => rfl
  | cons rect rects ih =>
      have hpaint : dst.paint rect colors = dst.paint rect fun u v =>
          if u < bounds.width ∧ v < bounds.height then some (f u v) else none :=
        Raster.update_congr fun u v hu hv => by rw [hcolors u v hu hv]
      have hdraw := draw_clip_eq_paint dst rect bounds f
      rw [List.foldl_cons, List.filterMap_cons]
      cases hclip : clipRect rect bounds with
      | none =>
          rw [hclip] at hdraw
          have hsame : dst.paint rect colors = dst := hpaint.trans hdraw.symm
          rw [hsame]
          exact ih dst hcolors
      | some r =>
          rw [hclip] at hdraw
          have hsame : dst.paint rect colors =
              dst.draw r.x r.y r.width r.height fun x y => f (r.x + x) (r.y + y) :=
            hpaint.trans hdraw.symm
          rw [List.foldl_cons, ← hsame]
          exact ih _ hcolors

end BgraImage

end Render

end Drift
