import Drift.Render.Canvas

/-!
# The reference draws what the calls say

Every call on the reference compositor draws what it draws on a canvas (`canvas_step`), as long as the
sides of the surfaces are 32-bit numbers, so that its loops do not saturate.
-/

namespace Drift.Render

open Std Drift.Gfx

/-! ### Sizes -/

namespace Canvas

def Fits (c : Canvas) : Prop :=
  ∀ (id : UInt16) (img : BgraImage) (origin : Option Point),
    c.surfaces[id]? = some (img, origin) → img.width ≤ u32Max ∧ img.height ≤ u32Max

variable {c : Canvas}

theorem fits_empty : Fits .empty := fun id img origin h => by simp [empty] at h

theorem Fits.onSurface (h : c.Fits) (id : UInt16) {f : BgraImage → BgraImage}
    (hf : ∀ img, (f img).width = img.width ∧ (f img).height = img.height) :
    (c.onSurface id f).Fits := by
  unfold Canvas.onSurface
  split
  · next img origin hid =>
      intro id' img' origin' h'
      simp only [ExtTreeMap.getElem?_insert] at h'
      split at h'
      · cases h'
        rw [(hf img).1, (hf img).2]
        exact h id img origin hid
      · exact h id' img' origin' h'
  · exact h

theorem size_foldl_over (img : BgraImage) (dests : List Point) (dst : BgraImage) :
    let drawn := dests.foldl (fun dst point => dst.overlay point img) dst
    drawn.width = dst.width ∧ drawn.height = dst.height := by
  induction dests generalizing dst with
  | nil => exact ⟨rfl, rfl⟩
  | cons point dests ih => exact ih (dst.overlay point img)

theorem size_foldl_paint (f : Nat → Nat → Option Bgra) (rects : List Rect) (dst : BgraImage) :
    let drawn := rects.foldl (fun dst r => dst.paint r f) dst
    drawn.width = dst.width ∧ drawn.height = dst.height := by
  induction rects generalizing dst with
  | nil => exact ⟨rfl, rfl⟩
  | cons r rects ih => exact ih (dst.paint r f)

theorem Fits.insert (h : c.Fits) (id : UInt16) {img : BgraImage} {origin : Option Point}
    (hwidth : img.width ≤ u32Max) (hheight : img.height ≤ u32Max) :
    Fits { c with surfaces := c.surfaces.insert id (img, origin) } := by
  intro id' img' origin' h'
  simp only [ExtTreeMap.getElem?_insert] at h'
  split at h'
  · cases h'
    exact ⟨hwidth, hheight⟩
  · exact h id' img' origin' h'

theorem Fits.apply (h : c.Fits) (picture : Picture) {call : SinkCall Nv12Frame} (hcall : IsU32 call) :
    (c.apply picture call).Fits := by
  have hstamp : ∀ id img dests, (c.stamp id img dests).Fits := fun id img dests =>
    h.onSurface id (size_foldl_over img dests)
  have hbrush : ∀ id f rects, (c.brush id f rects).Fits := fun id f rects =>
    h.onSurface id (size_foldl_paint f rects)
  cases call with
  | reset output => exact fun id img origin h' => by simp [Canvas.apply] at h'
  | createSurface id size => exact h.insert id hcall.1 hcall.2
  | deleteSurface id =>
      intro id' img' origin' h'
      simp only [Canvas.apply, ExtTreeMap.getElem?_erase] at h'
      split at h'
      · cases h'
      · exact h id' img' origin' h'
  | mapSurfaceToOutput id origin =>
      simp only [Canvas.apply]
      split
      · next img _ hid => exact h.insert id (h id img _ hid).1 (h id img _ hid).2
      · exact h
  | blitBgra id rect stride data =>
      simp only [Canvas.apply]
      split
      · exact hstamp _ _ _
      · exact h
  | blitNv12 id frame regions =>
      simp only [Canvas.apply]
      split
      · exact hbrush _ _ _
      · exact h
  | solidFill id color rects => exact hbrush _ _ _
  | surfaceToSurface src dst rect dests =>
      simp only [Canvas.apply]
      split
      · exact hstamp _ _ _
      · exact h
  | surfaceToCache id rect slot =>
      simp only [Canvas.apply]
      split
      · exact h
      · exact h
  | cacheToSurface slot id dests =>
      simp only [Canvas.apply]
      split
      · exact hstamp _ _ _
      · exact h
  | evictCache slot => exact h
  | endFrame frameId => exact h
  | setVisible visible => exact h

end Canvas

/-! ### The calls -/

namespace CpuCompositor

variable {c : CpuCompositor}

theorem canvas_surfaceMut (c : CpuCompositor) (id : UInt16) (f : BgraImage → BgraImage) :
    (c.surfaceMut id f).canvas = c.canvas.onSurface id f := by
  unfold surfaceMut Canvas.onSurface canvas
  cases hid : c.surfaces[id]? with
  | none => simp
  | some found => simp

theorem onSurface_congr {c : Canvas} {id : UInt16} {f g : BgraImage → BgraImage}
    (h : ∀ (img : BgraImage) (origin : Option Point), c.surfaces[id]? = some (img, origin) → f img = g img) :
    c.onSurface id f = c.onSurface id g := by
  unfold Canvas.onSurface
  split
  · next img origin hid => rw [h img origin hid]
  · rfl

theorem copy_full (src dst : BgraImage) (point : Point) :
    copy src src.full dst point = dst.overlay point src := by
  exact BgraImage.copy_full_eq_over src point dst

theorem drawRect_of_clip {rect r : Rect} {bounds : Size} (hclip : clipRect rect bounds = some r)
    (hbounds : bounds.width ≤ u32Max ∧ bounds.height ≤ u32Max) (dst : BgraImage)
    (f : Nat → Nat → Bgra) :
    drawRect dst r f = dst.draw r.x r.y r.width r.height fun x y => f (r.x + x) (r.y + y) := by
  obtain ⟨hx, hy⟩ := inside_clipRect hclip
  have hright : r.right - r.x = r.width := by
    unfold Rect.right
    omega
  have hbottom : r.bottom - r.y = r.height := by
    unfold Rect.bottom
    omega
  rw [drawRect, hright, hbottom]

theorem foldl_drawRect (f : Nat → Nat → Bgra) (colors : Nat → Nat → Option Bgra) (bounds : Size)
    (hbounds : bounds.width ≤ u32Max ∧ bounds.height ≤ u32Max) (rects : List Rect)
    (dst : BgraImage)
    (hcolors : ∀ u v, u < dst.width → v < dst.height →
      colors u v = if u < bounds.width ∧ v < bounds.height then some (f u v) else none) :
    (rects.filterMap (clipRect · bounds)).foldl (fun dst r => drawRect dst r f) dst =
      rects.foldl (fun dst r => dst.paint r colors) dst := by
  rw [← BgraImage.foldl_draw_clip f colors bounds rects dst hcolors]
  refine List.foldl_ext _ _ _ fun dst r hr => ?_
  obtain ⟨rect, -, hclip⟩ := List.mem_filterMap.mp hr
  exact drawRect_of_clip hclip hbounds dst f

/-- **The reference.** A call draws what it draws on a canvas. -/
theorem canvas_step (nv12ToRgb : ToRgb) (hfits : c.canvas.Fits) (call : SinkCall Nv12Frame) :
    (c.step nv12ToRgb call).canvas = c.canvas.apply (planesPicture nv12ToRgb) call := by
  have hstamp : ∀ id img dests,
      (c.surfaceMut id fun dst => dests.foldl (fun dst point => copy img img.full dst point) dst).canvas =
        c.canvas.stamp id img dests := by
    intro id img dests
    rw [canvas_surfaceMut]
    simp only [copy_full]
    rfl
  cases call with
  | blitBgra id rect stride data =>
      simp only [step, blitBgra, Canvas.apply]
      cases htile : bgraTile rect stride data with
      | none => rfl
      | some tile => exact hstamp id tile [⟨rect.x, rect.y⟩]
  | blitNv12 id frame regions =>
      cases frame with
      | planes planes =>
          simp only [step, blitNv12, Canvas.apply, planesPicture]
          rw [canvas_surfaceMut]
          refine onSurface_congr fun img origin hid => ?_
          obtain ⟨hwidth, hheight⟩ := hfits id img origin hid
          refine foldl_drawRect _ _ _ ⟨?_, ?_⟩ regions img fun u v hu hv => ?_
          · exact Nat.le_trans (Nat.min_le_left _ _) hwidth
          · exact Nat.le_trans (Nat.min_le_left _ _) hheight
          · refine if_congr ?_ rfl rfl
            rw [Nat.lt_min, Nat.lt_min]
            exact and_congr (and_iff_right hu).symm (and_iff_right hv).symm
      | pixelBuffer size textures => rfl
      | unknown size => rfl
  | solidFill id color rects =>
      simp only [step, solidFill, Canvas.apply]
      rw [canvas_surfaceMut]
      refine onSurface_congr fun img origin hid => ?_
      refine foldl_drawRect _ _ _ (hfits id img origin hid) rects img fun u v hu hv => ?_
      exact (if_pos ⟨hu, hv⟩).symm
  | surfaceToSurface src dst rect dests =>
      simp only [step, surfaceToSurface, Canvas.apply]
      cases hpart : (c.surface src).bind fun s => (clipRect rect s.size).map s.crop with
      | none =>
          have hnone : (c.canvas.surface src).bind (·.part rect) = none := hpart
          rw [hnone]
      | some snapshot =>
          have hsome : (c.canvas.surface src).bind (·.part rect) = some snapshot := hpart
          rw [hsome]
          exact hstamp dst snapshot dests
  | surfaceToCache id rect slot =>
      simp only [step, surfaceToCache, Canvas.apply]
      cases hpart : (c.surface id).bind fun s => (clipRect rect s.size).map s.crop with
      | none =>
          have hnone : (c.canvas.surface id).bind (·.part rect) = none := hpart
          rw [hnone]
      | some entry =>
          have hsome : (c.canvas.surface id).bind (·.part rect) = some entry := hpart
          rw [hsome]
          rfl
  | cacheToSurface slot id dests =>
      simp only [step, cacheToSurface, Canvas.apply, canvas]
      cases hslot : c.cache[slot]? with
      | none => rfl
      | some entry => exact hstamp id entry dests
  | mapSurfaceToOutput id origin =>
      simp only [step, Canvas.apply, canvas]
      cases hid : c.surfaces[id]? with
      | none => rfl
      | some found => rfl
  | reset output => rfl
  | createSurface id size => rfl
  | deleteSurface id => rfl
  | evictCache slot => rfl
  | endFrame frameId => rfl
  | setVisible visible => rfl

theorem composite_canvas (c : CpuCompositor) : c.composite = c.canvas.composite := by
  unfold composite Canvas.composite canvas
  congr 1
  funext out entry
  obtain ⟨id, img, origin⟩ := entry
  cases origin with
  | none => rfl
  | some origin => exact copy_full img out origin

end CpuCompositor

end Drift.Render
