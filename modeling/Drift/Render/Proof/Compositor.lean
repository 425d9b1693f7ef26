import Drift.Render.Proof.Recording
import Drift.Render.Proof.Reference

/-!
# The textures of the compositor

Every place of the compositor that holds an image has a texture of its own (`Sound`). So operations on
the texture of a surface change the image of that surface and no other (`canvas_draw`).
-/

namespace Drift.Render

open Std Drift.Gfx

/-- Where the compositor holds textures. -/
inductive Place where
  | output
  | surface (id : UInt16)
  | slot (slot : UInt16)
  deriving DecidableEq

/-- A texture of the given size, unless that is empty. -/
def Backs (size : Size) (texture : Option Texture) : Prop :=
  (texture = none ↔ size.width = 0 ∨ size.height = 0) ∧ ∀ t, texture = some t → t.size = size

namespace Compositor

def textureAt (c : Compositor) : Place → Option Texture
  | .output => c.output
  | .surface id => c.surfaces[id]?.bind (·.texture)
  | .slot slot => c.cache[slot]?.map (·.2)

/-- Every place has a texture of its own and of the right size. -/
structure Sound (c : Compositor) : Prop where
  distinct : ∀ p q t, c.textureAt p = some t → c.textureAt q = some t → p = q
  fresh : ∀ p t, c.textureAt p = some t → t.id < c.device.nextTexture
  output : Backs c.outputSize c.output
  surface : ∀ (id : UInt16) (s : Surface), c.surfaces[id]? = some s → Backs s.size s.texture
  slot : ∀ (slot : UInt16) (entry : Size × Texture), c.cache[slot]? = some entry →
    entry.2.size = entry.1 ∧ ¬ (entry.1.width = 0 ∨ entry.1.height = 0)

variable {g : Gpu} {c : Compositor} {d : Device} {id : UInt16} {t : Texture}

theorem sound_new : Sound new where
  distinct p q t hp := by cases p <;> simp [new, textureAt] at hp
  fresh p t hp := by cases p <;> simp [new, textureAt] at hp
  output := ⟨iff_of_true rfl (.inl rfl), nofun⟩
  surface id s hs := by simp [new] at hs
  slot slot entry hentry := by simp [new] at hentry

theorem Sound.device (h : c.Sound) (hnext : c.device.nextTexture ≤ d.nextTexture) :
    Sound { c with device := d } where
  distinct := h.distinct
  fresh p t hp := Nat.lt_of_lt_of_le (h.fresh p t hp) hnext
  output := h.output
  surface := h.surface
  slot := h.slot

/-- One place gets a texture of its own, and the others keep theirs. -/
theorem Sound.replace (h : c.Sound) {c' : Compositor} {place : Place} {own : Option Texture}
    (hplaces : ∀ p t, c'.textureAt p = some t →
      p = place ∧ own = some t ∨ p ≠ place ∧ c.textureAt p = some t)
    (hown : ∀ p t, p ≠ place → own = some t → c.textureAt p ≠ some t)
    (hid : ∀ t, own = some t → t.id < c'.device.nextTexture)
    (hnext : c.device.nextTexture ≤ c'.device.nextTexture)
    (houtput : Backs c'.outputSize c'.output)
    (hsurface : ∀ (id : UInt16) (s : Surface), c'.surfaces[id]? = some s → Backs s.size s.texture)
    (hslot : ∀ (slot : UInt16) (entry : Size × Texture), c'.cache[slot]? = some entry →
      entry.2.size = entry.1 ∧ ¬ (entry.1.width = 0 ∨ entry.1.height = 0)) : c'.Sound where
  distinct p q t hp hq := by
    rcases hplaces p t hp with ⟨rfl, hpnew⟩ | ⟨hpne, hpold⟩
    · rcases hplaces q t hq with ⟨rfl, -⟩ | ⟨hqne, hqold⟩
      · rfl
      · exact absurd hqold (hown q t hqne hpnew)
    · rcases hplaces q t hq with ⟨rfl, hqnew⟩ | ⟨-, hqold⟩
      · exact absurd hpold (hown p t hpne hqnew)
      · exact h.distinct p q t hpold hqold
  fresh p t hp := by
    rcases hplaces p t hp with ⟨-, hpnew⟩ | ⟨-, hpold⟩
    · exact hid t hpnew
    · exact Nat.lt_of_lt_of_le (h.fresh p t hpold) hnext
  output := houtput
  surface := hsurface
  slot := hslot

/-! ### What is seen of a change -/

theorem surfaces_canvas (c : Compositor) (id : UInt16) :
    (c.canvas g).surfaces[id]? =
      c.surfaces[id]?.map fun s => (s.image (c.device.contents g), s.origin) := by
  simp [canvas]

theorem cache_canvas (c : Compositor) (slot : UInt16) :
    (c.canvas g).cache[slot]? = c.cache[slot]?.map fun entry => c.device.contents g entry.2 := by
  simp [canvas]

theorem canvas_ext {a b : Canvas} (houtput : a.output = b.output)
    (hsurfaces : ∀ id : UInt16, a.surfaces[id]? = b.surfaces[id]?)
    (hcache : ∀ slot : UInt16, a.cache[slot]? = b.cache[slot]?) : a = b := by
  have hs : a.surfaces = b.surfaces := ExtTreeMap.ext_getElem? fun id => hsurfaces id
  have hc : a.cache = b.cache := ExtTreeMap.ext_getElem? fun slot => hcache slot
  cases a
  cases b
  cases houtput
  cases hs
  cases hc
  rfl

theorem textureAt_surface {s : Surface} (hs : c.surfaces[id]? = some s) :
    c.textureAt (.surface id) = s.texture := by
  simp [textureAt, hs]

theorem textureAt_slot {slot : UInt16} {entry : Size × Texture} (hentry : c.cache[slot]? = some entry) :
    c.textureAt (.slot slot) = some entry.2 := by
  simp [textureAt, hentry]

theorem image_congr {s : Surface} {mem mem' : Memory}
    (hmem : ∀ t, s.texture = some t → mem' t = mem t) : s.image mem' = s.image mem := by
  unfold Surface.image
  cases htexture : s.texture with
  | none => rfl
  | some t => exact hmem t htexture

/-- A surface whose texture keeps its image looks the same. -/
theorem surfaces_canvas_congr {c' : Compositor} (hsurface : c'.surfaces[id]? = c.surfaces[id]?)
    (hcontents : ∀ t, c.textureAt (.surface id) = some t →
      c'.device.contents g t = c.device.contents g t) :
    (c'.canvas g).surfaces[id]? = (c.canvas g).surfaces[id]? := by
  rw [surfaces_canvas, surfaces_canvas, hsurface]
  refine Option.map_congr fun s hs => ?_
  rw [image_congr fun t ht => hcontents t ((textureAt_surface hs).trans ht)]

/-- A slot whose texture keeps its image looks the same. -/
theorem cache_canvas_congr {c' : Compositor} {slot : UInt16} (hslot : c'.cache[slot]? = c.cache[slot]?)
    (hcontents : ∀ t, c.textureAt (.slot slot) = some t →
      c'.device.contents g t = c.device.contents g t) :
    (c'.canvas g).cache[slot]? = (c.canvas g).cache[slot]? := by
  rw [cache_canvas, cache_canvas, hslot]
  exact Option.map_congr fun entry hentry => hcontents entry.2 (textureAt_slot hentry)

theorem canvas_device (hcontents : ∀ p t, p ≠ .output → c.textureAt p = some t →
    d.contents g t = c.device.contents g t) : canvas g { c with device := d } = c.canvas g := by
  refine canvas_ext rfl (fun id => ?_) fun slot => ?_
  · exact surfaces_canvas_congr rfl fun t ht => hcontents (.surface id) t nofun ht
  · exact cache_canvas_congr rfl fun t ht => hcontents (.slot slot) t nofun ht

/-- A change of the texture of a surface is seen on that surface only. -/
theorem canvas_write (h : c.Sound) {s : Surface} {f : BgraImage → BgraImage}
    (hs : c.surfaces[id]? = some s) (ht : s.texture = some t)
    (hcontents : d.contents g =
      Function.update (c.device.contents g) t (f (c.device.contents g t))) :
    canvas g { c with device := d } = (c.canvas g).onSurface id f := by
  have hplace : c.textureAt (.surface id) = some t := (textureAt_surface hs).trans ht
  have himage : (c.canvas g).surfaces[id]? = some (c.device.contents g t, s.origin) := by
    rw [surfaces_canvas, hs]
    simp [Surface.image, ht]
  have hother : ∀ p t', p ≠ .surface id → c.textureAt p = some t' →
      d.contents g t' = c.device.contents g t' := by
    intro p t' hne hp
    have hne' : t' ≠ t := by
      rintro rfl
      exact hne (h.distinct _ _ _ hp hplace)
    rw [hcontents, Function.update_of_ne hne']
  unfold Canvas.onSurface
  rw [himage]
  refine canvas_ext rfl (fun j => ?_) fun slot => ?_
  · simp only [ExtTreeMap.getElem?_insert]
    split
    · next heq =>
        obtain rfl := LawfulEqCmp.eq_of_compare heq
        rw [surfaces_canvas]
        simp only [hs, Option.map_some, Surface.image, ht]
        rw [hcontents, Function.update_self]
    · next hne =>
        have hj : Place.surface j ≠ .surface id := by
          rintro ⟨⟩
          exact hne ReflCmp.compare_self
        exact surfaces_canvas_congr rfl fun t' ht' => hother _ t' hj ht'
  · exact cache_canvas_congr rfl fun t' ht' => hother (.slot slot) t' nofun ht'

theorem eq_of_empty {a b : BgraImage} (hwidth : a.width = b.width) (hheight : a.height = b.height)
    (hempty : b.width = 0 ∨ b.height = 0) : a = b :=
  Raster.ext_pixel hwidth hheight fun x y hx hy => by omega

/-- Nothing is seen of a change of a surface that does not exist or is empty. -/
theorem onSurface_of_none (h : c.Sound) {f : BgraImage → BgraImage}
    (hf : ∀ img, (f img).width = img.width ∧ (f img).height = img.height)
    (hnone : c.surfaceTexture id = none) : (c.canvas g).onSurface id f = c.canvas g := by
  unfold Canvas.onSurface
  cases hs : c.surfaces[id]? with
  | none =>
      rw [surfaces_canvas, hs]
      rfl
  | some s =>
      have htexture : s.texture = none := by
        simpa [surfaceTexture, hs] using hnone
      have himage : (c.canvas g).surfaces[id]? = some (.filled s.size opaqueBlack, s.origin) := by
        rw [surfaces_canvas, hs]
        simp [Surface.image, htexture]
      rw [himage]
      have hsame : f (.filled s.size opaqueBlack) = .filled s.size opaqueBlack :=
        eq_of_empty (hf _).1 (hf _).2 ((h.surface id s hs).1.mp htexture)
      refine canvas_ext rfl (fun j => ?_) fun _ => rfl
      simp only [ExtTreeMap.getElem?_insert, hsame]
      split
      · next heq =>
          obtain rfl := LawfulEqCmp.eq_of_compare heq
          exact himage.symm
      · rfl

theorem surfaceTexture_eq_some {size : Size} (h : c.Sound)
    (hsome : c.surfaceTexture id = some (size, t)) :
    ∃ s, c.surfaces[id]? = some s ∧ s.texture = some t ∧ s.size = size ∧ t.size = size ∧
      c.textureAt (.surface id) = some t ∧ (c.canvas g).surface id = some (c.device.contents g t) := by
  unfold surfaceTexture at hsome
  obtain ⟨s, hs, hmap⟩ := Option.bind_eq_some_iff.mp hsome
  obtain ⟨t', htexture, heq⟩ := Option.map_eq_some_iff.mp hmap
  cases heq
  refine ⟨s, hs, htexture, rfl, (h.surface id s hs).2 t htexture,
    (textureAt_surface hs).trans htexture, ?_⟩
  rw [Canvas.surface, surfaces_canvas, hs]
  simp [Surface.image, htexture]

theorem part_of_none (h : c.Sound) (hnone : c.surfaceTexture id = none) (rect : Rect) :
    ((c.canvas g).surface id).bind (·.part rect) = none := by
  rw [Canvas.surface, surfaces_canvas]
  cases hs : c.surfaces[id]? with
  | none => rfl
  | some s =>
      have htexture : s.texture = none := by simpa [surfaceTexture, hs] using hnone
      have hempty := (h.surface id s hs).1.mp htexture
      simp only [Option.map_some, Option.bind_some, Surface.image, htexture, BgraImage.part]
      have hclip : clipRect rect s.size = none := by
        unfold clipRect
        rw [if_pos]
        rcases hempty with hwidth | hheight
        · exact .inr (.inl (by rw [hwidth]; exact Nat.zero_le _))
        · exact .inr (.inr (by rw [hheight]; exact Nat.zero_le _))
      exact congrArg (Option.map _) hclip

/-! ### Operations on surfaces -/

/-- Operations on the texture of a surface that draw what a function does to its image. -/
theorem canvas_draw (h : c.Sound) {size : Size} {ops : List GpuOp} {f : BgraImage → BgraImage}
    (hsome : c.surfaceTexture id = some (size, t)) (hadds : Device.Adds g c.device d ops)
    (htarget : ∀ op ∈ ops, op.target = some t) (hsource : ∀ op ∈ ops, op.source ≠ some t)
    (hdraw : ∀ img : BgraImage, BgraImage.size img = size →
      ops.foldl (fun dst op => op.draw g (c.device.contents g) dst) img = f img) :
    Sound { c with device := d } ∧
      canvas g { c with device := d } = (c.canvas g).onSurface id f := by
  obtain ⟨s, hs, ht, -, hsize, -, -⟩ := surfaceTexture_eq_some (g := g) h hsome
  refine ⟨h.device hadds.next_le, canvas_write h hs ht ?_⟩
  rw [hadds.contents_eq, GpuOp.foldl_exec htarget hsource]
  rw [hdraw _ ((Device.size_contents c.device t).trans hsize)]

def copies (src : Texture) (rect : Rect) (srcBounds : Size) (dst : Texture) (dstBounds : Size)
    (dests : List Point) : List GpuOp :=
  dests.filterMap fun point => (clipCopy rect srcBounds point dstBounds).map fun region =>
    .copyTexture src region.src dst region.dst region.size

section Copies

variable {src dst : Texture} {rect : Rect} {srcBounds dstBounds : Size}

theorem target_of_mem_copies {dests : List Point} {op : GpuOp}
    (h : op ∈ copies src rect srcBounds dst dstBounds dests) :
    op.target = some dst ∧ op.source = some src := by
  obtain ⟨point, -, hmap⟩ := List.mem_filterMap.mp h
  obtain ⟨region, -, rfl⟩ := Option.map_eq_some_iff.mp hmap
  exact ⟨rfl, rfl⟩

theorem adds_copies (hgrants : ∀ n, g.grants n = true) (dests : List Point) (d : Device) :
    Device.Adds g d (dests.foldl (copyClipped g src rect srcBounds dst dstBounds) d)
      (copies src rect srcBounds dst dstBounds dests) := by
  induction dests generalizing d with
  | nil => exact .refl d
  | cons point dests ih =>
      rw [List.foldl_cons, copies, List.filterMap_cons]
      have hrest := ih (copyClipped g src rect srcBounds dst dstBounds d point)
      unfold copyClipped at hrest ⊢
      cases hclip : clipCopy rect srcBounds point dstBounds with
      | none =>
          rw [hclip] at hrest
          exact hrest
      | some region =>
          rw [hclip] at hrest
          exact (Device.adds_record hgrants _ _).trans hrest

/-- The copies lay the part of the source over the destination at every point. -/
theorem foldl_copies {mem : Memory} (hsrc : BgraImage.size (mem src) = srcBounds)
    (dests : List Point) {img : BgraImage} (himg : BgraImage.size img = dstBounds) :
    (copies src rect srcBounds dst dstBounds dests).foldl (fun dst op => op.draw g mem dst) img =
      match BgraImage.part (mem src) rect with
      | some part => dests.foldl (fun dst point => BgraImage.overlay dst point part) img
      | none => img := by
  induction dests generalizing img with
  | nil => cases BgraImage.part (mem src) rect <;> rfl
  | cons point dests ih =>
      have hcopy := BgraImage.copy_eq_over (mem src) rect point img
      rw [hsrc, himg] at hcopy
      rw [copies, List.filterMap_cons]
      cases hclip : clipCopy rect srcBounds point dstBounds with
      | none =>
          rw [hclip] at hcopy
          have hrest := ih himg
          cases hpart : BgraImage.part (mem src) rect with
          | none =>
              rw [hpart] at hrest
              exact hrest
          | some part =>
              rw [hpart] at hrest hcopy
              have hsame : BgraImage.overlay img point part = img := hcopy.symm
              simp only [List.foldl_cons, hsame]
              exact hrest
      | some region =>
          rw [hclip] at hcopy
          have hsize : BgraImage.size (BgraImage.copyRegion (mem src) region img) = dstBounds := by
            rw [← himg]
            unfold BgraImage.size BgraImage.copyRegion
            rw [(Raster.pixel?_draw _ _ _ _ _ _ 0 0).1, (Raster.pixel?_draw _ _ _ _ _ _ 0 0).2.1]
          have hrest := ih hsize
          cases hpart : BgraImage.part (mem src) rect with
          | none =>
              rw [hpart] at hrest hcopy
              exact hrest.trans hcopy
          | some part =>
              rw [hpart] at hrest hcopy
              have hsame : BgraImage.overlay img point part = BgraImage.copyRegion (mem src) region img :=
                hcopy.symm
              simp only [List.foldl_cons, hsame]
              exact hrest

end Copies

end Compositor

end Drift.Render
