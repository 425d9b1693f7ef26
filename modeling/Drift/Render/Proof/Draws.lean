import Drift.Render.Proof.Compositor

/-!
# The calls on the compositor of the GPU

Every call that draws on a surface, fills a cache slot or changes the tables leaves the compositor sound,
with the images that the call draws on a canvas (`Draws`).
-/

namespace Drift.Render

open Std Drift.Gfx

namespace Compositor

variable {g : Gpu} {c : Compositor} {id : UInt16}

/-- The compositor is sound and holds the given images. -/
structure Draws (g : Gpu) (c : Compositor) (canvas : Canvas) : Prop where
  sound : c.Sound
  canvas_eq : c.canvas g = canvas

section Granted

variable (hgrants : ∀ n, g.grants n = true)

include hgrants

/-! ### Calls that draw on a surface -/

theorem solidFill_draws (h : c.Sound) (id : UInt16) (color : Bgra) (rects : List Rect) :
    Draws g (c.solidFill g id color rects) ((c.canvas g).brush id (fun _ _ => some color) rects) := by
  unfold solidFill
  split
  · next hnone => exact ⟨h, (onSurface_of_none h (Canvas.size_foldl_paint _ rects) hnone).symm⟩
  · next size t hsome =>
      have hops : ∀ op ∈ (rects.filterMap (clipRect · size)).map (GpuOp.fill t color),
          op.target = some t ∧ op.source = none := by
        intro op hop
        obtain ⟨r, -, rfl⟩ := List.mem_map.mp hop
        exact ⟨rfl, rfl⟩
      obtain ⟨hsound, hcanvas⟩ := canvas_draw h (f := fun img =>
        rects.foldl (fun dst r => BgraImage.paint dst r fun _ _ => some color) img) hsome
        (Device.adds_record hgrants .compute _) (fun op hop => (hops op hop).1)
        (fun op hop => by rw [(hops op hop).2]; nofun) fun img himg => by
          rw [List.foldl_map]
          refine BgraImage.foldl_draw_clip (fun _ _ => color) _ size rects img fun u v hu hv => ?_
          rw [← himg]
          exact (if_pos ⟨hu, hv⟩).symm
      exact ⟨hsound, hcanvas⟩

omit hgrants in
/-- The packed rows of a clipped upload hold the pixels of its image. -/
theorem draw_packRows {rect : Rect} {stride : Nat} {data : Bytes} {tile : BgraImage}
    (htile : Tileable rect stride data) (hpixels : IsTile rect stride data tile)
    {region : CopyRegion} {bounds : Size}
    (hclip : clipCopy ⟨0, 0, rect.width, rect.height⟩ rect.size ⟨rect.x, rect.y⟩ bounds = some region)
    (img : BgraImage) :
    let w := region.size.width
    let start := region.src.y * stride + region.src.x * 4
    (Raster.draw img region.dst.x region.dst.y w region.size.height fun x y =>
        (pixelAt (packRows (w * 4) stride region.size.height start data) (y * (w * 4) + x * 4)).getD
          transparent) =
      tile.copyRegion region img := by
  obtain ⟨hsrc, -, -, -, hwidth, hheight⟩ := clipCopy_eq_some hclip
  simp only at hwidth hheight
  have hrows : ∀ y < region.size.height,
      region.src.y * stride + region.src.x * 4 + y * stride + region.size.width * 4 ≤
        data.length := by
    intro y hy
    have hrow := htile.rows y (Nat.lt_of_lt_of_le hy hheight)
    rw [hsrc]
    simp only
    omega
  refine Raster.draw_congr fun x y hx hy => ?_
  rw [pixelAt_packRows hrows hy (by omega), hsrc]
  simp only [Nat.zero_mul, Nat.zero_add, BgraImage.pixel]
  rw [hpixels.pixel?_eq x y (Nat.lt_of_lt_of_le hx hwidth) (Nat.lt_of_lt_of_le hy hheight)]

theorem blitBgra_draws (h : c.Sound) (id : UInt16) (rect : Rect) (stride : Nat) (data : Bytes)
    (picture : Picture) :
    Draws g (c.blitBgra g id rect stride data)
      ((c.canvas g).apply picture (.blitBgra id rect stride data)) := by
  unfold blitBgra
  by_cases htile : Tileable rect stride data
  · obtain ⟨tile, hsome, htile'⟩ := bgraTile_of_tileable htile
    have hvalid := validUpload_iff.mpr htile
    simp only [hvalid, Bool.not_true, Bool.false_eq_true, if_false, Canvas.apply, hsome]
    split
    · next hnone => exact ⟨h, (onSurface_of_none h (Canvas.size_foldl_over tile _) hnone).symm⟩
    · next size t ht =>
        have hover : ∀ img : BgraImage, BgraImage.size img = size →
            (clipCopy ⟨0, 0, rect.width, rect.height⟩ rect.size ⟨rect.x, rect.y⟩ size).elim img
              (BgraImage.copyRegion tile · img) = BgraImage.overlay img ⟨rect.x, rect.y⟩ tile := by
          intro img himg
          have hcopy := BgraImage.copy_full_eq_over tile ⟨rect.x, rect.y⟩ img
          unfold BgraImage.full BgraImage.size at hcopy
          unfold BgraImage.size at himg
          rw [htile'.width_eq, htile'.height_eq, himg] at hcopy
          cases hclip : clipCopy ⟨0, 0, rect.width, rect.height⟩ rect.size ⟨rect.x, rect.y⟩ size with
          | none =>
              rw [Rect.size] at hclip
              rw [hclip] at hcopy
              exact hcopy
          | some region =>
              rw [Rect.size] at hclip
              rw [hclip] at hcopy
              exact hcopy
        split
        · next hclip =>
            rw [hclip] at hover
            obtain ⟨hsound, hcanvas⟩ := canvas_draw h (f := fun img =>
              BgraImage.overlay img ⟨rect.x, rect.y⟩ tile) ht (.refl c.device)
              (fun _ hop => by cases hop) (fun _ hop => by cases hop) hover
            exact ⟨hsound, hcanvas⟩
        · next region hclip =>
            rw [hclip] at hover
            obtain ⟨-, -, hwidth, hheight, -, -⟩ := clipCopy_eq_some hclip
            have hlength : region.size.width * 4 * region.size.height ≠ 0 :=
              Nat.mul_ne_zero (Nat.mul_ne_zero (Nat.ne_of_gt hwidth) (by decide))
                (Nat.ne_of_gt hheight)
            obtain ⟨d, hbuffer, hadds⟩ := Device.deviceBuffer_of_length (d := c.device) hgrants hlength
            rw [hbuffer]
            simp only [if_true]
            let start := region.src.y * stride + region.src.x * 4
            let op := GpuOp.copyBuffer
              (packRows (region.size.width * 4) stride region.size.height start data)
              (region.size.width * 4) region.size t region.dst
            have hrecord := hadds.trans (Device.adds_record hgrants .blit [op])
            obtain ⟨hsound, hcanvas⟩ := canvas_draw h (f := fun img =>
              BgraImage.overlay img ⟨rect.x, rect.y⟩ tile) ht hrecord
              (by simp [op, GpuOp.target]) (by simp [op, GpuOp.source]) fun img himg =>
                (draw_packRows htile htile' hclip img).trans (hover img himg)
            exact ⟨hsound, hcanvas⟩
  · have hvalid : validUpload rect stride data = false := by
      rw [Bool.eq_false_iff, Ne, validUpload_iff]
      exact htile
    simp only [hvalid, Bool.not_false, if_true, Canvas.apply, bgraTile_of_not_tileable htile]
    exact ⟨h, rfl⟩

theorem nv12Textures_planes (p : Nv12Planes) (hsize : ¬ (p.size.width = 0 ∨ p.size.height = 0))
    (d : Device) : ∃ d', nv12Textures g d (.planes p) = (d', some p.textures) ∧ Device.Adds g d d' [] := by
  have heven := p.width_even
  have hchroma : ¬ ((⟨p.size.width / 2, (p.size.height + 1) / 2⟩ : Size).width = 0 ∨
      (⟨p.size.width / 2, (p.size.height + 1) / 2⟩ : Size).height = 0) := by
    simp only
    omega
  obtain ⟨d₁, hluma, hadds₁, -⟩ := Device.texture_of_size (d := d) hgrants hsize
  obtain ⟨d₂, hchroma, hadds₂, -⟩ := Device.texture_of_size (d := d₁) hgrants hchroma
  refine ⟨d₂, ?_, hadds₁.trans hadds₂⟩
  simp only [nv12Textures, upload, hluma, hchroma, Option.bind_some, Raster.ofList?, p.y_length,
    p.length_chroma, dite_true, Option.map_some]
  rfl

theorem kernel_draws (h : c.Sound) {size fsize : Size} {t : Texture} {d : Device}
    {planes : PlaneTextures} {f : Nat → Nat → Bgra} {regions : List Rect}
    (ht : c.surfaceTexture id = some (size, t)) (hadds : Device.Adds g c.device d [])
    (hcolors : ∀ x y, x < fsize.width → y < fsize.height → planes.colorAt g.nv12ToRgb x y = f x y) :
    let bounds : Size := ⟨min size.width fsize.width, min size.height fsize.height⟩
    let rects := regions.filterMap (clipRect · bounds)
    Draws g { c with device := d.record g .compute (rects.map (.nv12 planes t)) }
      ((c.canvas g).brush id (within fsize f) regions) := by
  intro bounds rects
  have hops : ∀ op ∈ rects.map (GpuOp.nv12 planes t), op.target = some t ∧ op.source = none := by
    intro op hop
    obtain ⟨r, -, rfl⟩ := List.mem_map.mp hop
    exact ⟨rfl, rfl⟩
  obtain ⟨hsound, hcanvas⟩ := canvas_draw h (f := fun img =>
    regions.foldl (fun dst r => BgraImage.paint dst r (within fsize f)) img) ht
    (hadds.trans (Device.adds_record hgrants .compute _)) (fun op hop => (hops op hop).1)
    (fun op hop => by rw [(hops op hop).2]; nofun) fun img himg => by
      rw [List.nil_append, List.foldl_map]
      refine BgraImage.foldl_draw_clip (planes.colorAt g.nv12ToRgb) _ bounds regions img
        fun u v hu hv => ?_
      have hwidth : img.width = size.width := congrArg Size.width himg
      have hheight : img.height = size.height := congrArg Size.height himg
      unfold within
      by_cases hin : u < fsize.width ∧ v < fsize.height
      · have hbounds : u < bounds.width ∧ v < bounds.height := by
          simp only [bounds, Nat.lt_min]
          omega
        rw [if_pos hin, if_pos hbounds, hcolors u v hin.1 hin.2]
      · have hbounds : ¬ (u < bounds.width ∧ v < bounds.height) := by
          simp only [bounds, Nat.lt_min]
          omega
        rw [if_neg hin, if_neg hbounds]
  exact ⟨hsound, hcanvas⟩

omit hgrants in
/-- Without a region that meets the surface and the frame nothing is painted. -/
theorem brush_of_no_regions (h : c.Sound) {size fsize : Size} {t : Texture}
    {f : Nat → Nat → Bgra} {regions : List Rect} (ht : c.surfaceTexture id = some (size, t))
    (hnone : regions.filterMap (clipRect ·
      ⟨min size.width fsize.width, min size.height fsize.height⟩) = []) :
    (c.canvas g).brush id (within fsize f) regions = c.canvas g := by
  obtain ⟨-, hcanvas⟩ := canvas_draw h (f := fun img =>
    regions.foldl (fun dst r => BgraImage.paint dst r (within fsize f)) img) ht (.refl c.device)
    nofun nofun fun img himg => by
      have hwidth : img.width = size.width := congrArg Size.width himg
      have hheight : img.height = size.height := congrArg Size.height himg
      have hdraw := BgraImage.foldl_draw_clip f (within fsize f)
        ⟨min size.width fsize.width, min size.height fsize.height⟩ regions img fun u v hu hv => by
          unfold within
          refine if_congr ?_ rfl rfl
          simp only [Nat.lt_min]
          omega
      rw [hnone] at hdraw
      exact hdraw
  exact hcanvas.symm

theorem blitNv12_draws (h : c.Sound) (id : UInt16) (frame : Nv12Frame) (regions : List Rect) :
    Draws g (c.blitNv12 g id frame regions)
      ((c.canvas g).apply (gpuPicture g.nv12ToRgb) (.blitNv12 id frame regions)) := by
  unfold blitNv12
  split
  · next hnone =>
      refine ⟨h, ?_⟩
      simp only [Canvas.apply]
      split
      · exact (onSurface_of_none h (Canvas.size_foldl_paint _ regions) hnone).symm
      · rfl
  · next size t ht =>
      simp only
      split
      · next hempty =>
          refine ⟨h, ?_⟩
          have hnone := List.isEmpty_iff.mp hempty
          cases frame with
          | planes p => exact (brush_of_no_regions h ht hnone).symm
          | pixelBuffer fsize textures =>
              cases textures with
              | none => rfl
              | some textures => exact (brush_of_no_regions h ht hnone).symm
          | unknown fsize => rfl
      · next hregions =>
          cases frame with
          | planes p =>
              have hsize : ¬ (p.size.width = 0 ∨ p.size.height = 0) := by
                intro hzero
                apply hregions
                rw [List.isEmpty_iff, List.filterMap_eq_nil_iff]
                intro r _
                unfold clipRect
                rw [if_pos]
                simp only [Nv12Frame.size]
                omega
              obtain ⟨d, htextures, hadds⟩ := nv12Textures_planes hgrants p hsize c.device
              rw [htextures]
              exact kernel_draws hgrants h ht hadds fun x y hx hy =>
                p.colorAt_textures g.nv12ToRgb hx hy
          | pixelBuffer fsize textures =>
              cases textures with
              | none => exact ⟨h, rfl⟩
              | some textures => exact kernel_draws hgrants h ht (.refl _) fun _ _ _ _ => rfl
          | unknown fsize => exact ⟨h, rfl⟩

/-! ### Copies -/

omit hgrants in
def Unheld (c : Compositor) (t : Texture) : Prop := ∀ p, c.textureAt p ≠ some t

omit hgrants in
theorem unheld_new (h : c.Sound) (size : Size) : c.Unheld ⟨c.device.nextTexture, size⟩ := by
  intro p hp
  exact Nat.lt_irrefl _ (h.fresh p _ hp)

omit hgrants in
theorem copyRegion_eq_crop {src img : BgraImage} {r : Rect} (himg : BgraImage.size img = r.size) :
    src.copyRegion ⟨⟨r.x, r.y⟩, ⟨0, 0⟩, r.size⟩ img = src.crop r := by
  have hwidth : img.width = r.width := congrArg Size.width himg
  have hheight : img.height = r.height := congrArg Size.height himg
  have hdraw := Raster.pixel?_draw img 0 0 r.width r.height
    fun x y => src.pixel (r.x + x) (r.y + y)
  refine Raster.ext_pixel ((hdraw 0 0).1.trans (hwidth.trans BgraImage.width_crop.symm))
    ((hdraw 0 0).2.1.trans (hheight.trans BgraImage.height_crop.symm)) fun x y hx hy => ?_
  have hx' : x < r.width := Nat.lt_of_lt_of_eq hx ((hdraw 0 0).1.trans hwidth)
  have hy' : y < r.height := Nat.lt_of_lt_of_eq hy ((hdraw 0 0).2.1.trans hheight)
  have hold : img.pixel? x y = some (img.pixel x y) :=
    BgraImage.pixel?_of_lt (hwidth ▸ hx') (hheight ▸ hy')
  rw [BgraImage.pixel?_crop hx' hy']
  refine (hdraw x y).2.2.trans ?_
  rw [hold]
  simp [Raster.inRect, hx', hy']

theorem contents_crop (d : Device) {stex entry : Texture} {r : Rect} (hne : stex ≠ entry)
    (hsize : entry.size = r.size) :
    Device.contents g (copy g d stex ⟨r.x, r.y⟩ entry ⟨0, 0⟩ r.size) =
      Function.update (d.contents g) entry (BgraImage.crop (d.contents g stex) r) := by
  have hadds := Device.adds_record (d := d) hgrants .blit
    [.copyTexture stex ⟨r.x, r.y⟩ entry ⟨0, 0⟩ r.size]
  unfold copy
  rw [hadds.contents_eq, GpuOp.foldl_exec (t := entry) (by simp [GpuOp.target])
    (by simpa [GpuOp.source] using hne)]
  exact congrArg _ (copyRegion_eq_crop ((Device.size_contents d entry).trans hsize))

theorem scratch_copies (h : c.Sound) {p : Place} {stex : Texture} {r : Rect}
    (hplace : c.textureAt p = some stex) (hrsize : ¬ (r.size.width = 0 ∨ r.size.height = 0)) :
    ∃ d, c.device.texture g r.size = (d, some ⟨c.device.nextTexture, r.size⟩) ∧
      let scratch : Texture := ⟨c.device.nextTexture, r.size⟩
      let device := copy g d stex ⟨r.x, r.y⟩ scratch ⟨0, 0⟩ r.size
      Sound { c with device := device } ∧ canvas g { c with device := device } = c.canvas g ∧
        device.contents g scratch = BgraImage.crop (c.device.contents g stex) r := by
  obtain ⟨d, htexture, hadds, -⟩ := Device.texture_of_size (d := c.device) hgrants hrsize
  refine ⟨d, htexture, ?_⟩
  intro scratch device
  have hunheld := unheld_new h r.size
  have hmem : d.contents g = c.device.contents g := hadds.contents_eq
  have hne : stex ≠ scratch := by
    rintro rfl
    exact hunheld p hplace
  have hcrop := contents_crop hgrants d (r := r) hne rfl
  rw [hmem] at hcrop
  have hcopied := hadds.trans (Device.adds_record (d := d) hgrants .blit
    [.copyTexture stex ⟨r.x, r.y⟩ scratch ⟨0, 0⟩ r.size])
  refine ⟨h.device hcopied.next_le, canvas_device fun q t _ hq => ?_, ?_⟩
  · have hne' : t ≠ scratch := by
      rintro rfl
      exact hunheld q hq
    rw [hcrop, Function.update_of_ne hne']
  · rw [hcrop, Function.update_self]

theorem copies_draw (h : c.Sound) {src dtex : Texture} {rect : Rect} {dsize : Size}
    {part : BgraImage} (ht : c.surfaceTexture id = some (dsize, dtex)) (hne : src ≠ dtex)
    (hpart : BgraImage.part (c.device.contents g src) rect = some part) (dests : List Point) :
    let device := dests.foldl (copyClipped g src rect src.size dtex dsize) c.device
    Draws g { c with device := device } ((c.canvas g).stamp id part dests) := by
  obtain ⟨hsound, hcanvas⟩ := canvas_draw h
    (f := fun img => dests.foldl (fun dst point => BgraImage.overlay dst point part) img) ht
    (adds_copies hgrants dests c.device) (fun op hop => (target_of_mem_copies hop).1)
    (fun op hop => by
      rw [(target_of_mem_copies hop).2]
      exact fun heq => hne (Option.some.inj heq))
    fun img himg => by
      rw [foldl_copies (Device.size_contents c.device src) dests himg, hpart]
  exact ⟨hsound, hcanvas⟩

theorem surfaceToSurface_draws (h : c.Sound) (src dst : UInt16) (rect : Rect) (dests : List Point)
    (picture : Picture) :
    Draws g (c.surfaceToSurface g src dst rect dests)
      ((c.canvas g).apply picture (.surfaceToSurface src dst rect dests)) := by
  unfold surfaceToSurface
  cases hsrc : c.surfaceTexture src with
  | none =>
      refine ⟨h, ?_⟩
      simp only [Canvas.apply, part_of_none h hsrc rect]
  | some found =>
      obtain ⟨ssize, stex⟩ := found
      obtain ⟨s, -, -, -, hssize, hsplace, hsurface⟩ := surfaceTexture_eq_some (g := g) h hsrc
      have hsize : BgraImage.size (c.device.contents g stex) = ssize :=
        (Device.size_contents c.device stex).trans hssize
      have hpart : ((c.canvas g).surface src).bind (·.part rect) =
          (clipRect rect ssize).map (c.device.contents g stex).crop := by
        rw [hsurface, Option.bind_some, BgraImage.part, hsize]
      cases hdst : c.surfaceTexture dst with
      | none =>
          refine ⟨h, ?_⟩
          simp only [Canvas.apply]
          split
          · next part _ => exact (onSurface_of_none h (Canvas.size_foldl_over part dests) hdst).symm
          · rfl
      | some found =>
          obtain ⟨dsize, dtex⟩ := found
          obtain ⟨-, -, -, -, -, hdplace, -⟩ := surfaceTexture_eq_some (g := g) h hdst
          simp only [Canvas.apply, hpart]
          cases hclip : clipRect rect ssize with
          | none => exact ⟨h, rfl⟩
          | some r =>
              obtain ⟨-, -, hwidth, hheight, -, -⟩ := clipRect_eq_some hclip
              simp only [Option.map_some]
              split
              · next hsame =>
                  subst hsame
                  have hrsize : ¬ (r.size.width = 0 ∨ r.size.height = 0) := by
                    simp only [Rect.size]
                    omega
                  obtain ⟨d, htexture, hsound, hcanvas, hcrop⟩ :=
                    scratch_copies hgrants h hsplace hrsize
                  rw [htexture]
                  simp only
                  have hwhole := BgraImage.part_full ((c.device.contents g stex).crop r)
                  have hnonempty : (BgraImage.full ((c.device.contents g stex).crop r)).isEmpty =
                      false := by
                    simp only [BgraImage.full, BgraImage.width_crop, BgraImage.height_crop,
                      Rect.isEmpty, decide_eq_false_iff_not]
                    omega
                  rw [hnonempty, if_neg Bool.false_ne_true] at hwhole
                  unfold BgraImage.full at hwhole
                  rw [BgraImage.width_crop, BgraImage.height_crop, ← hcrop] at hwhole
                  have hne : (⟨c.device.nextTexture, r.size⟩ : Texture) ≠ dtex := fun heq =>
                    unheld_new h r.size _ (heq ▸ hdplace)
                  have hdraws := copies_draw hgrants hsound hdst hne hwhole dests
                  rw [hcanvas, hcrop] at hdraws
                  exact hdraws
              · next hdiffers =>
                  have hne : stex ≠ dtex := by
                    rintro rfl
                    have hplaces := h.distinct _ _ _ hsplace hdplace
                    cases hplaces
                    exact hdiffers rfl
                  have hinside := inside_clipRect hclip
                  have hnonempty : r.isEmpty = false := by
                    simp only [Rect.isEmpty, decide_eq_false_iff_not]
                    omega
                  have hwhole : BgraImage.part (c.device.contents g stex) r =
                      some ((c.device.contents g stex).crop r) := by
                    rw [BgraImage.part, hsize, clipRect_of_inside hinside hnonempty]
                    rfl
                  rw [← hssize]
                  exact copies_draw hgrants h hdst hne hwhole dests

theorem cacheToSurface_draws (h : c.Sound) (slot id : UInt16) (dests : List Point)
    (picture : Picture) :
    Draws g (c.cacheToSurface g slot id dests)
      ((c.canvas g).apply picture (.cacheToSurface slot id dests)) := by
  unfold cacheToSurface
  simp only [Canvas.apply, cache_canvas]
  cases hslot : c.cache[slot]? with
  | none => exact ⟨h, rfl⟩
  | some entry =>
      obtain ⟨csize, ctex⟩ := entry
      obtain ⟨hcsize, hnonempty⟩ := h.slot slot _ hslot
      simp only at hcsize hnonempty
      have hcplace : c.textureAt (.slot slot) = some ctex := textureAt_slot hslot
      simp only [Option.map_some]
      cases hdst : c.surfaceTexture id with
      | none =>
          exact ⟨h, (onSurface_of_none h (Canvas.size_foldl_over _ dests) hdst).symm⟩
      | some found =>
          obtain ⟨dsize, dtex⟩ := found
          obtain ⟨-, -, -, -, -, hdplace, -⟩ := surfaceTexture_eq_some (g := g) h hdst
          have hne : ctex ≠ dtex := by
            rintro rfl
            cases h.distinct _ _ _ hcplace hdplace
          have hsize : BgraImage.size (c.device.contents g ctex) = csize :=
            (Device.size_contents c.device ctex).trans hcsize
          have hwidth : (c.device.contents g ctex).width = csize.width := congrArg Size.width hsize
          have hheight : (c.device.contents g ctex).height = csize.height :=
            congrArg Size.height hsize
          have hwhole := BgraImage.part_full (c.device.contents g ctex)
          unfold BgraImage.full at hwhole
          rw [hwidth, hheight, if_neg (by simpa [Rect.isEmpty] using hnonempty)] at hwhole
          rw [← hcsize] at hwhole ⊢
          exact copies_draw hgrants h hdst hne hwhole dests

omit hgrants in
theorem slot_draws (h : c.Sound) {slot : UInt16} {entry : Texture} {d : Device} {img : BgraImage}
    (hown : ∀ p, p ≠ .slot slot → c.textureAt p ≠ some entry) (hid : entry.id < d.nextTexture)
    (hnext : c.device.nextTexture ≤ d.nextTexture)
    (hsize : ¬ (entry.size.width = 0 ∨ entry.size.height = 0))
    (hcontents : d.contents g = Function.update (c.device.contents g) entry img) :
    Draws g { c with device := d, cache := c.cache.insert slot (entry.size, entry) }
      { c.canvas g with cache := (c.canvas g).cache.insert slot img } := by
  let c' : Compositor := { c with device := d, cache := c.cache.insert slot (entry.size, entry) }
  have hslots : ∀ j : UInt16, c'.cache[j]? =
      if slot = j then some (entry.size, entry) else c.cache[j]? := by
    intro j
    simp only [c', ExtTreeMap.getElem?_insert, LawfulEqCmp.compare_eq_iff_eq]
  have hplaces : ∀ p t, c'.textureAt p = some t →
      p = .slot slot ∧ some entry = some t ∨ p ≠ .slot slot ∧ c.textureAt p = some t := by
    intro p t hp
    cases p with
    | output => exact .inr ⟨fun heq => (by cases heq), hp⟩
    | surface id => exact .inr ⟨fun heq => (by cases heq), hp⟩
    | slot j =>
        rw [textureAt, hslots] at hp
        split at hp
        · next heq => exact .inl ⟨by rw [heq], hp⟩
        · next hne => exact .inr ⟨fun heq => hne (Place.slot.inj heq).symm, hp⟩
  have hother : ∀ p t, p ≠ .slot slot → c.textureAt p = some t →
      d.contents g t = c.device.contents g t := by
    intro p t hne hp
    have hne' : t ≠ entry := by
      rintro rfl
      exact hown p hne hp
    rw [hcontents, Function.update_of_ne hne']
  refine ⟨h.replace hplaces ?_ ?_ hnext h.output h.surface ?_,
    canvas_ext rfl (fun id => ?_) fun j => ?_⟩
  · rintro p _ hne ⟨⟩
    exact hown p hne
  · rintro _ ⟨⟩
    exact hid
  · intro j found hfound
    rw [hslots] at hfound
    split at hfound
    · cases hfound
      exact ⟨rfl, hsize⟩
    · exact h.slot j found hfound
  · exact surfaces_canvas_congr rfl fun t ht => hother (.surface id) t (fun heq => by cases heq) ht
  · by_cases heq : slot = j
    · subst heq
      rw [cache_canvas, hslots, if_pos rfl, Option.map_some, hcontents, Function.update_self]
      exact ExtTreeMap.getElem?_insert_self.symm
    · have hkept : ((c.canvas g).cache.insert slot img)[j]? = (c.canvas g).cache[j]? := by
        rw [ExtTreeMap.getElem?_insert, if_neg fun hcompare => heq (LawfulEqCmp.eq_of_compare hcompare)]
      rw [hkept]
      exact cache_canvas_congr ((hslots j).trans (if_neg heq)) fun t ht =>
        hother (.slot j) t (fun hplace => heq (Place.slot.inj hplace).symm) ht

theorem surfaceToCache_draws (h : c.Sound) (id : UInt16) (rect : Rect) (slot : UInt16)
    (picture : Picture) :
    Draws g (c.surfaceToCache g id rect slot)
      ((c.canvas g).apply picture (.surfaceToCache id rect slot)) := by
  unfold surfaceToCache
  cases hsrc : c.surfaceTexture id with
  | none =>
      refine ⟨h, ?_⟩
      simp only [Canvas.apply, part_of_none h hsrc rect]
  | some found =>
      obtain ⟨ssize, stex⟩ := found
      obtain ⟨-, -, -, -, hssize, hplace, hsurface⟩ := surfaceTexture_eq_some (g := g) h hsrc
      have hsize : BgraImage.size (c.device.contents g stex) = ssize :=
        (Device.size_contents c.device stex).trans hssize
      have hpart : ((c.canvas g).surface id).bind (·.part rect) =
          (clipRect rect ssize).map (c.device.contents g stex).crop := by
        rw [hsurface, Option.bind_some, BgraImage.part, hsize]
      simp only [Canvas.apply, hpart]
      cases hclip : clipRect rect ssize with
      | none => exact ⟨h, rfl⟩
      | some r =>
          obtain ⟨-, -, hwidth, hheight, -, -⟩ := clipRect_eq_some hclip
          have hrsize : ¬ (r.size.width = 0 ∨ r.size.height = 0) := by
            simp only [Rect.size]
            omega
          simp only [Option.map_some]
          have hfits : ∀ (d : Device) (entry : Texture), Device.Adds g c.device d [] →
              (∀ p, p ≠ .slot slot → c.textureAt p ≠ some entry) → entry.size = r.size →
                entry.id < d.nextTexture →
              Draws g
                { c with
                  device := copy g d stex ⟨r.x, r.y⟩ entry ⟨0, 0⟩ r.size
                  cache := c.cache.insert slot (r.size, entry) }
                { c.canvas g with
                  cache := (c.canvas g).cache.insert slot ((c.device.contents g stex).crop r) } := by
            intro d entry hadds hown hentry hid
            have hne : stex ≠ entry := by
              rintro rfl
              exact hown (.surface id) (fun heq => by cases heq) hplace
            have hmem : d.contents g = c.device.contents g := hadds.contents_eq
            have hcrop := contents_crop hgrants d (r := r) hne hentry
            rw [hmem] at hcrop
            have hcopy := Device.adds_record (d := d) hgrants .blit
              [.copyTexture stex ⟨r.x, r.y⟩ entry ⟨0, 0⟩ r.size]
            have hdraws := slot_draws h hown (Nat.lt_of_lt_of_le hid hcopy.next_le)
              (Nat.le_trans hadds.next_le hcopy.next_le) (by rwa [hentry]) hcrop
            rw [hentry] at hdraws
            exact hdraws
          have hnew : ∃ d entry, c.device.texture g r.size = (d, some entry) ∧
              Device.Adds g c.device d [] ∧ (∀ p, p ≠ .slot slot → c.textureAt p ≠ some entry) ∧
                entry.size = r.size ∧ entry.id < d.nextTexture := by
            obtain ⟨d, htexture, hadds, hnext⟩ := Device.texture_of_size (d := c.device) hgrants hrsize
            exact ⟨d, _, htexture, hadds, fun p _ => unheld_new h r.size p, rfl, by
              rw [hnext]; exact Nat.lt_succ_self _⟩
          obtain ⟨d, entry, htexture, hadds, hown, hentry, hid⟩ := hnew
          cases hslot : c.cache[slot]? with
          | none =>
              simp only [htexture]
              exact hfits d entry hadds hown hentry hid
          | some found =>
              obtain ⟨size, t⟩ := found
              have hheld : c.textureAt (.slot slot) = some t := textureAt_slot hslot
              simp only
              split_ifs with hsame
              · simp only
                refine hfits c.device t (.refl _) (fun p hne hp => ?_) ?_ (h.fresh _ t hheld)
                · exact hne (h.distinct p _ t hp hheld)
                · exact (h.slot slot _ hslot).1.trans hsame
              · simp only [htexture]
                exact hfits d entry hadds hown hentry hid

/-! ### The tables -/

omit hgrants in
theorem surface_draws (h : c.Sound) {s : Surface} {d : Device} (hbacks : Backs s.size s.texture)
    (hown : ∀ p t, p ≠ .surface id → s.texture = some t → c.textureAt p ≠ some t)
    (hid : ∀ t, s.texture = some t → t.id < d.nextTexture)
    (hnext : c.device.nextTexture ≤ d.nextTexture)
    (hcontents : ∀ p t, p ≠ .surface id → c.textureAt p = some t →
      d.contents g t = c.device.contents g t) :
    Draws g { c with device := d, surfaces := c.surfaces.insert id s }
      { c.canvas g with
        surfaces := (c.canvas g).surfaces.insert id (s.image (d.contents g), s.origin) } := by
  let c' : Compositor := { c with device := d, surfaces := c.surfaces.insert id s }
  have hsurfaces : ∀ j : UInt16, c'.surfaces[j]? = if id = j then some s else c.surfaces[j]? := by
    intro j
    simp only [c', ExtTreeMap.getElem?_insert, LawfulEqCmp.compare_eq_iff_eq]
  have hplaces : ∀ p t, c'.textureAt p = some t →
      p = .surface id ∧ s.texture = some t ∨ p ≠ .surface id ∧ c.textureAt p = some t := by
    intro p t hp
    cases p with
    | output => exact .inr ⟨fun heq => (by cases heq), hp⟩
    | slot slot => exact .inr ⟨fun heq => (by cases heq), hp⟩
    | surface j =>
        rw [textureAt, hsurfaces] at hp
        split at hp
        · next heq => exact .inl ⟨by rw [heq], hp⟩
        · next hne => exact .inr ⟨fun heq => hne (Place.surface.inj heq).symm, hp⟩
  refine ⟨h.replace hplaces hown hid hnext h.output ?_ h.slot,
    canvas_ext rfl (fun j => ?_) fun slot => ?_⟩
  · intro j found hfound
    rw [hsurfaces] at hfound
    split at hfound
    · cases hfound
      exact hbacks
    · exact h.surface j found hfound
  · by_cases heq : id = j
    · subst heq
      rw [surfaces_canvas, hsurfaces, if_pos rfl, Option.map_some]
      exact ExtTreeMap.getElem?_insert_self.symm
    · have hkept : ((c.canvas g).surfaces.insert id (s.image (d.contents g), s.origin))[j]? =
          (c.canvas g).surfaces[j]? := by
        rw [ExtTreeMap.getElem?_insert, if_neg fun hcompare => heq (LawfulEqCmp.eq_of_compare hcompare)]
      rw [hkept]
      exact surfaces_canvas_congr ((hsurfaces j).trans (if_neg heq)) fun t ht =>
        hcontents (.surface j) t (fun hplace => heq (Place.surface.inj hplace).symm) ht
  · exact cache_canvas_congr rfl fun t ht => hcontents (.slot slot) t (fun heq => by cases heq) ht

omit hgrants in
theorem draw_whole {img : BgraImage} {size : Size} {color : Bgra}
    (himg : BgraImage.size img = size) :
    Raster.draw img 0 0 size.width size.height (fun _ _ => color) = BgraImage.filled size color := by
  have hwidth : img.width = size.width := congrArg Size.width himg
  have hheight : img.height = size.height := congrArg Size.height himg
  have hdraw := Raster.pixel?_draw img 0 0 size.width size.height fun _ _ => color
  refine Raster.ext_pixel ((hdraw 0 0).1.trans hwidth) ((hdraw 0 0).2.1.trans hheight)
    fun x y hx hy => ?_
  have hx' : x < size.width := Nat.lt_of_lt_of_eq hx ((hdraw 0 0).1.trans hwidth)
  have hy' : y < size.height := Nat.lt_of_lt_of_eq hy ((hdraw 0 0).2.1.trans hheight)
  have hold : img.pixel? x y = some (BgraImage.pixel img x y) :=
    BgraImage.pixel?_of_lt (hwidth ▸ hx') (hheight ▸ hy')
  have hfilled : (BgraImage.filled size color).pixel? x y = some color :=
    Raster.pixel?_filled hx' hy'
  rw [(hdraw x y).2.2, hold, hfilled]
  simp [Raster.inRect, hx', hy']

theorem fill_whole (d : Device) {t : Texture} {size : Size} (color : Bgra) (ht : t.size = size)
    (hsize : ¬ (size.width = 0 ∨ size.height = 0)) :
    d.nextTexture ≤ (fill g d t size color [⟨0, 0, size.width, size.height⟩]).nextTexture ∧
      Device.contents g (fill g d t size color [⟨0, 0, size.width, size.height⟩]) =
        Function.update (d.contents g) t (.filled size color) := by
  have hinside : Rect.Inside ⟨0, 0, size.width, size.height⟩ size :=
    ⟨Nat.le_of_eq (Nat.zero_add _), Nat.le_of_eq (Nat.zero_add _)⟩
  have hclip := clipRect_of_inside hinside (by simpa [Rect.isEmpty] using hsize)
  have hadds := Device.adds_record (d := d) hgrants .compute
    [.fill t color ⟨0, 0, size.width, size.height⟩]
  unfold fill
  simp only [List.filterMap_cons, hclip, List.filterMap_nil, List.map_cons, List.map_nil]
  refine ⟨hadds.next_le, ?_⟩
  rw [hadds.contents_eq, GpuOp.foldl_exec (t := t) (by simp [GpuOp.target]) (by simp [GpuOp.source])]
  exact congrArg _ (draw_whole ((Device.size_contents d t).trans ht))

theorem createSurface_draws (h : c.Sound) (id : UInt16) (size : Size) (picture : Picture) :
    Draws g (c.createSurface g id size) ((c.canvas g).apply picture (.createSurface id size)) := by
  unfold createSurface
  by_cases hsize : size.width = 0 ∨ size.height = 0
  · rw [Device.texture_of_empty hsize]
    exact surface_draws h (s := ⟨size, none, none⟩) ⟨iff_of_true rfl hsize, nofun⟩ nofun nofun
      (Nat.le_refl _) fun _ _ _ _ => rfl
  · obtain ⟨d, htexture, hadds, hnext⟩ := Device.texture_of_size (d := c.device) hgrants hsize
    have hmem : d.contents g = c.device.contents g := hadds.contents_eq
    have htsize : (⟨c.device.nextTexture, size⟩ : Texture).size = size := rfl
    obtain ⟨hle, hcontents⟩ := fill_whole hgrants d opaqueBlack htsize hsize
    have hunheld := unheld_new h size
    rw [htexture]
    simp only
    have hdraws := surface_draws (g := g) h
      (s := ⟨size, some ⟨c.device.nextTexture, size⟩, none⟩)
      (d := fill g d ⟨c.device.nextTexture, size⟩ size opaqueBlack
        [⟨0, 0, size.width, size.height⟩])
      ⟨iff_of_false nofun hsize, fun t ht => by cases ht; rfl⟩
      (fun p t (_ : p ≠ .surface id) ht => by cases ht; exact hunheld p)
      (fun t ht => by
        cases ht
        simp only
        omega)
      (Nat.le_trans hadds.next_le hle)
      (fun p t _ hp => by
        have hne : t ≠ ⟨c.device.nextTexture, size⟩ := by
          rintro rfl
          exact hunheld p hp
        rw [hcontents, Function.update_of_ne hne, hmem])
    have himage : Surface.image
        (Device.contents g (fill g d ⟨c.device.nextTexture, size⟩ size opaqueBlack
          [⟨0, 0, size.width, size.height⟩])) ⟨size, some ⟨c.device.nextTexture, size⟩, none⟩ =
            .filled size opaqueBlack := by
      simp only [Surface.image, hcontents, Function.update_self]
    rw [himage] at hdraws
    exact hdraws

theorem reset_draws (output : Size) (picture : Picture) :
    Draws g (c.reset g output) ((c.canvas g).apply picture (.reset output)) := by
  unfold reset
  have hcanvas : ∀ (d : Device) (t : Option Texture),
      canvas g { c with device := d, surfaces := ∅, cache := ∅, outputSize := output, output := t } =
        ⟨output, ∅, ∅⟩ := by
    intro d t
    refine canvas_ext rfl (fun id => ?_) fun slot => ?_
    · simp [canvas]
    · simp [canvas]
  by_cases hsize : output.width = 0 ∨ output.height = 0
  · rw [Device.texture_of_empty hsize]
    refine ⟨⟨?_, ?_, ⟨iff_of_true rfl hsize, fun t ht => by cases ht⟩, ?_, ?_⟩, hcanvas _ _⟩
    · intro p q t hp
      cases p <;> simp [textureAt] at hp
    · intro p t hp
      cases p <;> simp [textureAt] at hp
    · intro id s hs
      simp at hs
    · intro slot entry hentry
      simp at hentry
  · obtain ⟨d, htexture, hadds, hnext⟩ := Device.texture_of_size (d := c.device) hgrants hsize
    rw [htexture]
    refine ⟨⟨?_, ?_, ⟨iff_of_false (fun hnone => by cases hnone) hsize, fun t ht => by cases ht; rfl⟩,
      ?_, ?_⟩, hcanvas _ _⟩
    · intro p q t hp hq
      cases p <;> cases q <;> simp [textureAt] at hp hq ⊢
    · intro p t hp
      cases p <;> simp [textureAt] at hp
      subst hp
      simp only
      omega
    · intro id s hs
      simp at hs
    · intro slot entry hentry
      simp at hentry

omit hgrants in
theorem Sound.sub (h : c.Sound) {c' : Compositor}
    (hplaces : ∀ p t, c'.textureAt p = some t → c.textureAt p = some t)
    (hdevice : c'.device = c.device) (houtput : Backs c'.outputSize c'.output)
    (hsurface : ∀ (id : UInt16) (s : Surface), c'.surfaces[id]? = some s → c.surfaces[id]? = some s)
    (hslot : ∀ (slot : UInt16) (entry : Size × Texture), c'.cache[slot]? = some entry →
      c.cache[slot]? = some entry) : c'.Sound where
  distinct p q t hp hq := h.distinct p q t (hplaces p t hp) (hplaces q t hq)
  fresh p t hp := by
    rw [hdevice]
    exact h.fresh p t (hplaces p t hp)
  output := houtput
  surface id s hs := h.surface id s (hsurface id s hs)
  slot slot entry hentry := h.slot slot entry (hslot slot entry hentry)

omit hgrants in
theorem deleteSurface_draws (h : c.Sound) (id : UInt16) :
    Draws g { c with surfaces := c.surfaces.erase id }
      { c.canvas g with surfaces := (c.canvas g).surfaces.erase id } := by
  have hget : ∀ j : UInt16, (c.surfaces.erase id)[j]? = if id = j then none else c.surfaces[j]? := by
    intro j
    simp only [ExtTreeMap.getElem?_erase, LawfulEqCmp.compare_eq_iff_eq]
  have hold : ∀ (j : UInt16) (s : Surface), (c.surfaces.erase id)[j]? = some s →
      c.surfaces[j]? = some s := by
    intro j s hs
    rw [hget] at hs
    split at hs
    · cases hs
    · exact hs
  refine ⟨h.sub ?_ rfl h.output hold fun _ _ h => h, canvas_ext rfl (fun j => ?_) fun _ => ?_⟩
  · intro p t hp
    cases p with
    | surface j =>
        simp only [textureAt] at hp ⊢
        obtain ⟨s, hs, ht⟩ := Option.bind_eq_some_iff.mp hp
        rw [hold j s hs]
        exact ht
    | output => exact hp
    | slot slot => exact hp
  · rw [surfaces_canvas]
    simp only [hget, ExtTreeMap.getElem?_erase, LawfulEqCmp.compare_eq_iff_eq]
    split
    · rfl
    · exact (surfaces_canvas c j).symm
  · rfl

omit hgrants in
theorem evictCache_draws (h : c.Sound) (slot : UInt16) :
    Draws g { c with cache := c.cache.erase slot }
      { c.canvas g with cache := (c.canvas g).cache.erase slot } := by
  have hget : ∀ j : UInt16, (c.cache.erase slot)[j]? = if slot = j then none else c.cache[j]? := by
    intro j
    simp only [ExtTreeMap.getElem?_erase, LawfulEqCmp.compare_eq_iff_eq]
  have hold : ∀ (j : UInt16) (entry : Size × Texture), (c.cache.erase slot)[j]? = some entry →
      c.cache[j]? = some entry := by
    intro j entry hentry
    rw [hget] at hentry
    split at hentry
    · cases hentry
    · exact hentry
  refine ⟨h.sub ?_ rfl h.output (fun _ _ h => h) hold, canvas_ext rfl (fun _ => rfl) fun j => ?_⟩
  · intro p t hp
    cases p with
    | slot j =>
        simp only [textureAt] at hp ⊢
        obtain ⟨entry, hentry, ht⟩ := Option.map_eq_some_iff.mp hp
        rw [hold j entry hentry]
        exact congrArg some ht
    | output => exact hp
    | surface id => exact hp
  · rw [cache_canvas]
    simp only [hget, ExtTreeMap.getElem?_erase, LawfulEqCmp.compare_eq_iff_eq]
    split
    · rfl
    · exact (cache_canvas c j).symm

omit hgrants in
theorem mapSurfaceToOutput_draws (h : c.Sound) (id : UInt16) (origin : Point) (presented : Nat)
    (picture : Picture) :
    Draws g (c.call g presented (.mapSurfaceToOutput id origin)).1
      ((c.canvas g).apply picture (.mapSurfaceToOutput id origin)) := by
  simp only [call, Canvas.apply, surfaces_canvas]
  cases hs : c.surfaces[id]? with
  | none => exact ⟨h, rfl⟩
  | some s =>
      have hplace : ∀ t, s.texture = some t → c.textureAt (.surface id) = some t := fun t ht =>
        (textureAt_surface hs).trans ht
      exact surface_draws h (s := { s with origin := some origin }) (h.surface id s hs)
        (fun p t hne ht hp => hne (h.distinct p _ t hp (hplace t ht)))
        (fun t ht => h.fresh _ t (hplace t ht)) (Nat.le_refl _) fun _ _ _ _ => rfl

end Granted

end Compositor

end Drift.Render
