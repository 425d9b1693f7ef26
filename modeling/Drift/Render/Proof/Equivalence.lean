import Drift.Lib.Transition
import Drift.Render.Proof.Draws

/-!
# The two compositors agree

Every call on the compositor of the GPU draws what it draws on a canvas (`canvas_step`), and so does
every call on the reference. They hold the same images then, and compose the same output, as long as no
frame is a pixel buffer, which the reference does not read.
-/

namespace Drift.Render

open Std Drift.Gfx Transition

namespace Compositor

variable {g : Gpu} {c : Compositor}

/-! ### Composition -/

section Granted

variable (hgrants : ∀ n, g.grants n = true)

include hgrants

theorem composeSurface_contents (h : c.Sound) {output : Texture} (houtput : c.output = some output)
    {id : UInt16} {s : Surface} (hs : c.surfaces[id]? = some s) (d : Device) :
    d.nextTexture ≤ (composeSurface g output c.outputSize d s).nextTexture ∧
      Device.contents g (composeSurface g output c.outputSize d s) =
        Function.update (d.contents g) output
          (Canvas.layer (d.contents g output) (s.image (d.contents g), s.origin)) := by
  have hsize : BgraImage.size (d.contents g output) = c.outputSize :=
    (Device.size_contents d output).trans (h.output.2 output houtput)
  have hbacks := h.surface id s hs
  unfold composeSurface Canvas.layer Surface.image
  cases horigin : s.origin with
  | none =>
      cases s.texture <;> exact ⟨Nat.le_refl _, (Function.update_eq_self _ _).symm⟩
  | some origin =>
      cases htexture : s.texture with
      | none =>
          have hempty := hbacks.1.mp htexture
          have hsame : BgraImage.overlay (d.contents g output) origin (.filled s.size opaqueBlack) =
              d.contents g output := by
            refine Raster.update_eq_self fun u v _ _ => ?_
            have hnone : (BgraImage.filled s.size opaqueBlack).pixel? (u - origin.x) (v - origin.y) =
                none := by
              refine Raster.pixel?_eq_none.mpr fun hin => ?_
              have hwidth : (BgraImage.filled s.size opaqueBlack).width = s.size.width := rfl
              have hheight : (BgraImage.filled s.size opaqueBlack).height = s.size.height := rfl
              omega
            rw [hnone, ite_self]
          simp only
          rw [hsame, Function.update_eq_self]
          exact ⟨Nat.le_refl _, rfl⟩
      | some texture =>
          have hne : texture ≠ output := by
            rintro rfl
            have hplace : c.textureAt (.surface id) = some texture :=
              (textureAt_surface hs).trans htexture
            cases h.distinct _ .output _ hplace houtput
          have htsize : BgraImage.size (d.contents g texture) = s.size :=
            (Device.size_contents d texture).trans (hbacks.2 texture htexture)
          have hadds : Device.Adds g d
              (copyClipped g texture ⟨0, 0, s.size.width, s.size.height⟩ s.size output c.outputSize d
                origin)
              (copies texture ⟨0, 0, s.size.width, s.size.height⟩ s.size output c.outputSize
                [origin]) := adds_copies hgrants [origin] d
          have hwhole := BgraImage.part_full (d.contents g texture)
          have hfull : BgraImage.full (d.contents g texture) = ⟨0, 0, s.size.width, s.size.height⟩ := by
            rw [← htsize]
            rfl
          have hnonempty : Rect.isEmpty ⟨0, 0, s.size.width, s.size.height⟩ = false := by
            have hsome : ¬ (s.size.width = 0 ∨ s.size.height = 0) := fun hempty => by
              cases htexture.symm.trans (hbacks.1.mpr hempty)
            simpa [Rect.isEmpty] using hsome
          rw [hfull, hnonempty, if_neg Bool.false_ne_true] at hwhole
          refine ⟨hadds.next_le, ?_⟩
          have hcontents := hadds.contents_eq
          rw [GpuOp.foldl_exec (fun op hop => (target_of_mem_copies hop).1) (fun op hop => by
            rw [(target_of_mem_copies hop).2]
            exact fun heq => hne (Option.some.inj heq)), foldl_copies htsize [origin] hsize,
            hwhole] at hcontents
          exact hcontents

omit hgrants in
theorem image_update (h : c.Sound) {output : Texture} (houtput : c.output = some output)
    {id : UInt16} {s : Surface} (hs : c.surfaces[id]? = some s) (mem : Memory) (img : BgraImage) :
    s.image (Function.update mem output img) = s.image mem := by
  refine image_congr fun t htexture => ?_
  have hplace : c.textureAt (.surface id) = some t := (textureAt_surface hs).trans htexture
  have hne : t ≠ output := by
    rintro rfl
    cases h.distinct _ .output _ hplace houtput
  exact Function.update_of_ne hne _ _

/-- The mapped surfaces are laid over the output one after the other. -/
theorem foldl_composeSurface (h : c.Sound) {output : Texture} (houtput : c.output = some output)
    (entries : List (UInt16 × Surface))
    (hentries : ∀ entry ∈ entries, c.surfaces[entry.1]? = some entry.2) (d : Device) :
    let composed := entries.foldl (fun d entry => composeSurface g output c.outputSize d entry.2) d
    d.nextTexture ≤ composed.nextTexture ∧
      composed.contents g = Function.update (d.contents g) output
        (entries.foldl
          (fun out entry => Canvas.layer out (entry.2.image (d.contents g), entry.2.origin))
          (d.contents g output)) := by
  induction entries generalizing d with
  | nil => exact ⟨Nat.le_refl _, (Function.update_eq_self _ _).symm⟩
  | cons entry entries ih =>
      obtain ⟨hle, hcontents⟩ := composeSurface_contents hgrants h houtput
        (hentries entry List.mem_cons_self) d
      obtain ⟨hle', hcontents'⟩ := ih (fun e he => hentries e (List.mem_cons_of_mem _ he))
        (composeSurface g output c.outputSize d entry.2)
      refine ⟨Nat.le_trans hle hle', ?_⟩
      rw [List.foldl_cons, List.foldl_cons]
      refine hcontents'.trans ?_
      have himages : ∀ (out : BgraImage), ∀ e ∈ entries,
          Canvas.layer out (e.2.image (Device.contents g
            (composeSurface g output c.outputSize d entry.2)), e.2.origin) =
            Canvas.layer out (e.2.image (d.contents g), e.2.origin) := by
        intro out e he
        rw [hcontents, image_update h houtput (hentries e (List.mem_cons_of_mem _ he))]
      rw [List.foldl_ext _ _ _ himages, hcontents, Function.update_self, Function.update_idem]

/-- The composed output is the one of the canvas, and nothing else changes. -/
theorem compose_contents (h : c.Sound) {output : Texture} (houtput : c.output = some output) :
    c.device.nextTexture ≤ (c.compose g output).nextTexture ∧
      (c.compose g output).contents g =
        Function.update (c.device.contents g) output (c.canvas g).composite := by
  have htsize := h.output.2 output houtput
  have hsize : ¬ (c.outputSize.width = 0 ∨ c.outputSize.height = 0) := fun hempty => by
    cases houtput.symm.trans (h.output.1.mpr hempty)
  obtain ⟨hle, hfill⟩ := fill_whole hgrants c.device opaqueBlack htsize hsize
  have hentries : ∀ entry ∈ c.surfaces.toList, c.surfaces[entry.1]? = some entry.2 :=
    fun entry hentry => ExtTreeMap.mem_toList_iff_getElem?_eq_some.mp hentry
  obtain ⟨hle', hcompose⟩ := foldl_composeSurface hgrants h houtput c.surfaces.toList hentries
    (fill g c.device output c.outputSize opaqueBlack
      [⟨0, 0, c.outputSize.width, c.outputSize.height⟩])
  refine ⟨Nat.le_trans hle hle', ?_⟩
  unfold compose
  simp only
  refine hcompose.trans ?_
  rw [hfill, Function.update_self, Function.update_idem]
  congr 1
  unfold Canvas.composite canvas
  simp only
  rw [ExtTreeMap.toList_map, List.foldl_map]
  refine List.foldl_ext _ _ _ fun out entry hentry => ?_
  rw [image_update h houtput (hentries entry hentry)]

end Granted

/-! ### The end of a frame -/

theorem endFrame_of_idle (houtput : c.output = none) (frameId : UInt32) (presented : Nat) :
    c.endFrame g frameId presented =
      ({ c with device := (c.device.commit g (some ⟨none, presented⟩)).1 },
        (c.device.commit g (some ⟨none, presented⟩)).2) := by
  cases c
  cases houtput
  rfl

theorem endFrame_of_hidden (hhidden : (c.visible || c.recorder.isSome) = false) (frameId : UInt32)
    (presented : Nat) :
    c.endFrame g frameId presented =
      ({ c with device := (c.device.commit g (some ⟨none, presented⟩)).1 },
        (c.device.commit g (some ⟨none, presented⟩)).2) := by
  cases houtput : c.output with
  | none => exact houtput ▸ endFrame_of_idle houtput frameId presented
  | some output =>
      obtain ⟨device, outputSize, output', surfaces, cache, visible, recorder⟩ := c
      cases houtput
      simp only [endFrame, if_neg (Bool.eq_false_iff.mp hhidden)]

/-- Any other frame is composed, captured and presented before its command buffer is committed. -/
theorem endFrame_of_shown {output : Texture} (houtput : c.output = some output)
    (hshown : (c.visible || c.recorder.isSome) = true) (frameId : UInt32) (presented : Nat) :
    c.endFrame g frameId presented =
      let captured := Compositor.capture g { c with device := compose g c output } output frameId
      let shown := if captured.1.visible then
        { captured.1 with device := Compositor.present g captured.1.device output } else captured.1
      ({ shown with device := (shown.device.commit g (some ⟨captured.2, presented⟩)).1 },
        (shown.device.commit g (some ⟨captured.2, presented⟩)).2) := by
  obtain ⟨device, outputSize, output', surfaces, cache, visible, recorder⟩ := c
  cases houtput
  simp only [endFrame, if_pos hshown]

theorem present_contents (g : Gpu) (d : Device) (output : Texture) :
    d.nextTexture ≤ (present g d output).nextTexture ∧
      Device.contents g (present g d output) = d.contents g := by
  have hopen : ∀ d : Device, d.nextTexture ≤ (d.openWork g).nextTexture ∧
      (d.openWork g).contents g = d.contents g := by
    intro d
    unfold Device.openWork Device.request
    cases hwork : d.work with
    | some work => exact ⟨Nat.le_refl _, rfl⟩
    | none =>
        simp only
        split
        · refine ⟨Nat.le_refl _, ?_⟩
          unfold Device.contents
          simp [hwork]
        · refine ⟨Nat.le_refl _, ?_⟩
          unfold Device.contents
          simp [hwork]
  unfold present Device.request
  simp only
  split
  · obtain ⟨hle, hcontents⟩ := hopen { d with asked := d.asked + 1 }
    split
    · exact ⟨hle, hcontents⟩
    · next work hwork =>
        split
        · refine ⟨hle, Eq.trans ?_ hcontents⟩
          have hpresent : ∀ mem : Memory, [GpuOp.present output].foldl (GpuOp.exec g) mem = mem :=
            fun _ => rfl
          refine (Device.contents_of_ops_eq ?_).trans (hpresent _)
          simp [hwork]
        · refine ⟨hle, Eq.trans ?_ hcontents⟩
          unfold Device.contents
          simp [hwork]
  · exact ⟨Nat.le_refl _, rfl⟩

/-- A compositor whose tables are those of another one, and whose textures hold the same images. -/
structure Keeps (g : Gpu) (c c' : Compositor) : Prop where
  outputSize : c'.outputSize = c.outputSize
  output : c'.output = c.output
  surfaces : c'.surfaces = c.surfaces
  cache : c'.cache = c.cache
  visible : c'.visible = c.visible
  next_le : c.device.nextTexture ≤ c'.device.nextTexture
  contents : ∀ p t, c.textureAt p = some t → c'.device.contents g t = c.device.contents g t

theorem Keeps.refl (c : Compositor) : Keeps g c c := ⟨rfl, rfl, rfl, rfl, rfl, Nat.le_refl _, fun _ _ _ => rfl⟩

theorem Keeps.textureAt {c' : Compositor} (h : Keeps g c c') (p : Place) :
    c'.textureAt p = c.textureAt p := by
  cases p with
  | output => exact h.output
  | surface id => simp only [Compositor.textureAt, h.surfaces]
  | slot slot => simp only [Compositor.textureAt, h.cache]

theorem Keeps.trans {c' c'' : Compositor} (h : Keeps g c c') (h' : Keeps g c' c'') :
    Keeps g c c'' where
  outputSize := h'.outputSize.trans h.outputSize
  output := h'.output.trans h.output
  surfaces := h'.surfaces.trans h.surfaces
  cache := h'.cache.trans h.cache
  visible := h'.visible.trans h.visible
  next_le := Nat.le_trans h.next_le h'.next_le
  contents p t hp :=
    (h'.contents p t ((h.textureAt p).trans hp)).trans (h.contents p t hp)

theorem Keeps.draws {c' : Compositor} (h : Keeps g c c') (hsound : c.Sound) :
    Draws g c' (c.canvas g) := by
  refine ⟨⟨?_, ?_, ?_, ?_, ?_⟩, canvas_ext h.outputSize (fun id => ?_) fun slot => ?_⟩
  · intro p q t hp hq
    rw [h.textureAt] at hp hq
    exact hsound.distinct p q t hp hq
  · intro p t hp
    rw [h.textureAt] at hp
    exact Nat.lt_of_lt_of_le (hsound.fresh p t hp) h.next_le
  · rw [h.outputSize, h.output]
    exact hsound.output
  · rw [h.surfaces]
    exact hsound.surface
  · rw [h.cache]
    exact hsound.slot
  · exact surfaces_canvas_congr (by rw [h.surfaces]) (h.contents (.surface id))
  · exact cache_canvas_congr (by rw [h.cache]) (h.contents (.slot slot))

theorem keeps_device {d : Device} (hnext : c.device.nextTexture ≤ d.nextTexture)
    (hcontents : d.contents g = c.device.contents g) : Keeps g c { c with device := d } :=
  ⟨rfl, rfl, rfl, rfl, rfl, hnext, fun _ t _ => congrFun hcontents t⟩

theorem keeps_commit (c : Compositor) (onComplete : Option Completion) :
    Keeps g c { c with device := (c.device.commit g onComplete).1 } :=
  keeps_device (Device.adds_commit onComplete).next_le (Device.adds_commit onComplete).contents_eq

section Granted

variable (hgrants : ∀ n, g.grants n = true)

include hgrants

theorem keeps_capture (h : c.Sound) (output : Texture) (frameId : UInt32) :
    Keeps g c (c.capture g output frameId).1 := by
  unfold capture
  split
  · next slot slots _ =>
      simp only
      split
      · have hadds := Device.adds_record
          (d := { c.device with nextTexture := c.device.nextTexture + 1 }) hgrants .blit
          [.copyTexture output ⟨0, 0⟩ ⟨c.device.nextTexture, c.outputSize⟩ ⟨0, 0⟩ c.outputSize]
        refine ⟨rfl, rfl, rfl, rfl, rfl, Nat.le_trans (Nat.le_succ _) hadds.next_le, ?_⟩
        intro p t hp
        have hne : t ≠ ⟨c.device.nextTexture, c.outputSize⟩ := by
          rintro rfl
          exact unheld_new h c.outputSize p hp
        unfold copy
        rw [hadds.contents_eq, List.foldl_cons, List.foldl_nil, GpuOp.exec_of_ne]
        · rfl
        · exact fun heq => hne (Option.some.inj heq).symm
      · exact ⟨rfl, rfl, rfl, rfl, rfl, Nat.le_refl _, fun _ _ _ => rfl⟩
  · exact .refl c

/-- The end of a frame changes no surface and no slot, and the output is composed while it is seen. -/
theorem endFrame_draws (h : c.Sound) (frameId : UInt32) (presented : Nat) :
    let ended := (c.endFrame g frameId presented).1
    Draws g ended (c.canvas g) ∧
      (c.visible = true → ended.readOutput g = c.output.map fun _ => (c.canvas g).composite) := by
  intro ended
  cases houtput : c.output with
  | none =>
      refine ⟨?_, fun _ => ?_⟩
      · rw [show ended = _ from congrArg Prod.fst (endFrame_of_idle houtput frameId presented)]
        exact (keeps_commit c _).draws h
      · rw [show ended = _ from congrArg Prod.fst (endFrame_of_idle houtput frameId presented)]
        simp [readOutput, houtput]
  | some output =>
      by_cases hshown : (c.visible || c.recorder.isSome) = true
      · obtain ⟨hnext, hcompose⟩ := compose_contents hgrants h houtput
        have hsound : ({ c with device := compose g c output } : Compositor).Sound := h.device hnext
        have hcanvas : ({ c with device := compose g c output } : Compositor).canvas g =
            c.canvas g :=
          canvas_device fun p t hne hp => by
            have hne' : t ≠ output := by
              rintro rfl
              exact hne (h.distinct p .output _ hp houtput)
            rw [hcompose, Function.update_of_ne hne']
        have hkeeps : Keeps g { c with device := compose g c output } ended := by
          rw [show ended = _ from
            congrArg Prod.fst (endFrame_of_shown houtput hshown frameId presented)]
          refine Keeps.trans ?_ (keeps_commit _ _)
          have hcapture := keeps_capture hgrants hsound output frameId
          split
          · obtain ⟨hle, hcontents⟩ := present_contents g
              (Compositor.capture g { c with device := compose g c output } output frameId).1.device
              output
            exact hcapture.trans (keeps_device hle hcontents)
          · exact hcapture
        refine ⟨?_, fun _ => ?_⟩
        · rw [← hcanvas]
          exact hkeeps.draws hsound
        · have hsame := hkeeps.contents .output output houtput
          have heq : ended.output = some output := hkeeps.output.trans houtput
          rw [readOutput, heq, Option.map_some, Option.map_some, hsame, hcompose,
            Function.update_self]
      · refine ⟨?_, fun hvisible => ?_⟩
        · rw [show ended = _ from
            congrArg Prod.fst (endFrame_of_hidden (by simpa using hshown) frameId presented)]
          exact (keeps_commit c _).draws h
        · rw [hvisible] at hshown
          exact absurd rfl hshown

/-! ### Runs -/

/-- **The compositor of the GPU.** A call draws what it draws on a canvas. -/
theorem call_draws (h : c.Sound) (presented : Nat) (call : SinkCall Nv12Frame) :
    Draws g (c.call g presented call).1 ((c.canvas g).apply (gpuPicture g.nv12ToRgb) call) := by
  cases call with
  | reset output => exact reset_draws hgrants output _
  | createSurface id size => exact createSurface_draws hgrants h id size _
  | deleteSurface id => exact deleteSurface_draws h id
  | mapSurfaceToOutput id origin => exact mapSurfaceToOutput_draws h id origin presented _
  | blitBgra id rect stride data => exact blitBgra_draws hgrants h id rect stride data _
  | blitNv12 id frame regions => exact blitNv12_draws hgrants h id frame regions
  | solidFill id color rects => exact solidFill_draws hgrants h id color rects
  | surfaceToSurface src dst rect dests => exact surfaceToSurface_draws hgrants h src dst rect dests _
  | surfaceToCache id rect slot => exact surfaceToCache_draws hgrants h id rect slot _
  | cacheToSurface slot id dests => exact cacheToSurface_draws hgrants h slot id dests _
  | evictCache slot => exact evictCache_draws h slot
  | endFrame frameId => exact (endFrame_draws hgrants h frameId presented).1
  | setVisible visible =>
      exact ⟨⟨h.distinct, h.fresh, h.output, h.surface, h.slot⟩, rfl⟩

theorem step_draws (h : c.Sound) (i : Input) :
    Draws g (c.step g i).1
      (i.call?.elim (c.canvas g) ((c.canvas g).apply (gpuPicture g.nv12ToRgb))) := by
  cases i with
  | call presented call => exact call_draws hgrants h presented call
  | startRecording slots => exact ⟨⟨h.distinct, h.fresh, h.output, h.surface, h.slot⟩, rfl⟩
  | stopRecording => exact ⟨⟨h.distinct, h.fresh, h.output, h.surface, h.slot⟩, rfl⟩
  | completed index =>
      have hadds := Device.adds_complete (g := g) (d := c.device) index
      exact (keeps_device hadds.next_le hadds.contents_eq).draws h
  | abandoned index =>
      have hadds := Device.adds_abandon (g := g) (d := c.device) index
      exact (keeps_device hadds.next_le hadds.contents_eq).draws h

/-- After any run the compositor holds what its calls draw on a canvas. -/
theorem run_draws (h : c.Sound) (is : List Input) :
    Draws g (run (step g) c is).1
      ((is.filterMap Input.call?).foldl (Canvas.apply (gpuPicture g.nv12ToRgb)) (c.canvas g)) := by
  induction is generalizing c with
  | nil => exact ⟨h, rfl⟩
  | cons i is ih =>
      obtain ⟨hsound, hcanvas⟩ := step_draws hgrants h i
      obtain ⟨hsound', hcanvas'⟩ := ih hsound
      refine ⟨by rw [run_cons]; exact hsound', ?_⟩
      rw [run_cons, hcanvas', hcanvas]
      cases hi : i.call? with
      | none => rw [List.filterMap_cons_none hi]; rfl
      | some call => rw [List.filterMap_cons_some hi]; rfl

end Granted

end Compositor

theorem CpuCompositor.foldl_canvas (nv12ToRgb : ToRgb) {c : CpuCompositor} (hfits : c.canvas.Fits)
    {calls : List (SinkCall Nv12Frame)} (hcalls : ∀ call ∈ calls, IsU32 call) :
    (calls.foldl (step nv12ToRgb) c).canvas =
      calls.foldl (Canvas.apply (planesPicture nv12ToRgb)) c.canvas := by
  induction calls generalizing c with
  | nil => rfl
  | cons call calls ih =>
      have hstep := canvas_step nv12ToRgb hfits call
      have hfits' : (c.step nv12ToRgb call).canvas.Fits := by
        rw [hstep]
        exact hfits.apply _ (hcalls call List.mem_cons_self)
      rw [List.foldl_cons, List.foldl_cons, ← hstep]
      exact ih hfits' fun call' hcall' => hcalls call' (List.mem_cons_of_mem _ hcall')

/-- The two compositors understand the same frames but for pixel buffers. -/
theorem apply_planesOnly (nv12ToRgb : ToRgb) (canvas : Canvas) {call : SinkCall Nv12Frame}
    (hcall : PlanesOnly call) :
    canvas.apply (gpuPicture nv12ToRgb) call = canvas.apply (planesPicture nv12ToRgb) call := by
  cases call with
  | blitNv12 id frame regions =>
      cases frame with
      | planes planes => rfl
      | unknown size => rfl
      | pixelBuffer size textures =>
          cases textures with
          | none => rfl
          | some textures => exact hcall.elim
  | _ => rfl

/-- A surface, a slot and the output, read back, are what the canvas holds. -/
theorem Compositor.readSurface_eq (g : Gpu) (c : Compositor) (id : UInt16) :
    c.readSurface g id = (c.canvas g).surface id := by
  unfold readSurface Canvas.surface
  rw [surfaces_canvas, Option.map_map]
  rfl

theorem Compositor.readSlot_eq (g : Gpu) (c : Compositor) (slot : UInt16) :
    c.readSlot g slot = (c.canvas g).cache[slot]? := (cache_canvas c slot).symm

/-- The compositor of the GPU and the reference, after the same calls. -/
theorem compositors_agree {g : Gpu} (hgrants : ∀ n, g.grants n = true) {is : List Compositor.Input}
    (hu32 : ∀ i ∈ is, ∀ call ∈ i.call?, IsU32 call)
    (hplanes : ∀ i ∈ is, ∀ call ∈ i.call?, PlanesOnly call) :
    let gpu := (run (Compositor.step g) .new is).1
    let cpu := (is.filterMap Compositor.Input.call?).foldl (CpuCompositor.step g.nv12ToRgb) .new
    (∀ id, gpu.readSurface g id = cpu.surface id) ∧
      (∀ slot, gpu.readSlot g slot = cpu.cache[slot]?) ∧
      ∀ presented frameId, gpu.visible = true →
        (gpu.step g (.call presented (.endFrame frameId))).1.readOutput g =
          if cpu.output.width = 0 ∨ cpu.output.height = 0 then none else some cpu.composite := by
  intro gpu cpu
  have hcalls : ∀ call ∈ is.filterMap Compositor.Input.call?, IsU32 call ∧ PlanesOnly call := by
    intro call hcall
    obtain ⟨i, hi, hcall⟩ := List.mem_filterMap.mp hcall
    exact ⟨hu32 i hi call hcall, hplanes i hi call hcall⟩
  obtain ⟨hsound, hdraws⟩ := Compositor.run_draws hgrants Compositor.sound_new is
  have hcpu := CpuCompositor.foldl_canvas g.nv12ToRgb (c := .new) Canvas.fits_empty
    fun call hcall => (hcalls call hcall).1
  have hcanvas : gpu.canvas g = cpu.canvas := by
    rw [show gpu.canvas g = _ from hdraws, show cpu.canvas = _ from hcpu]
    exact List.foldl_ext _ _ _ fun canvas call hcall =>
      apply_planesOnly _ canvas (hcalls call hcall).2
  refine ⟨fun id => ?_, fun slot => ?_, fun presented frameId hvisible => ?_⟩
  · rw [Compositor.readSurface_eq, hcanvas]
    rfl
  · rw [Compositor.readSlot_eq, hcanvas]
    rfl
  · have hread := (Compositor.endFrame_draws hgrants hsound frameId presented).2 hvisible
    have hsize : gpu.outputSize = cpu.output := congrArg Canvas.output hcanvas
    have hempty := hsound.output.1
    rw [CpuCompositor.composite_canvas, ← hcanvas, ← hsize]
    refine hread.trans ?_
    cases houtput : gpu.output with
    | none => rw [if_pos (hempty.mp houtput)]; rfl
    | some t =>
        have hne : ¬ (gpu.outputSize.width = 0 ∨ gpu.outputSize.height = 0) := fun h => by
          cases houtput.symm.trans (hempty.mpr h)
        rw [if_neg hne]
        rfl

/-! ### Two small runs -/

/-- A GPU that grants everything and shows the brightness. -/
def lumaGpu : Gpu where
  grants _ := true
  garbage _ _ _ := transparent
  nv12ToRgb y _ _ := (y, y, y)

/-- A surface of four pixels, mapped and covered by a picture. -/
def pictureInputs (frame : Nv12Frame) : List Compositor.Input :=
  [.call 0 (.createSurface 0 ⟨2, 2⟩), .call 1 (.mapSurfaceToOutput 0 ⟨0, 0⟩),
    .call 2 (.blitNv12 0 frame [⟨0, 0, 2, 2⟩])]

def whitePlanes : Nv12Frame :=
  .planes ⟨⟨2, 2⟩, [255, 255, 255, 255], [128, 128], rfl, rfl, rfl⟩

def whiteBuffer : Nv12Frame :=
  .pixelBuffer ⟨2, 2⟩ (some ⟨.filled 2 2 255, .filled 1 1 (128, 128)⟩)

theorem isU32_pictureInputs (frame : Nv12Frame) :
    ∀ i ∈ pictureInputs frame, ∀ call ∈ i.call?, IsU32 call := by
  have hside : 2 ≤ u32Max := by decide
  intro i hi call hcall
  simp only [pictureInputs, List.mem_cons, List.not_mem_nil, or_false] at hi
  rcases hi with rfl | rfl | rfl
  · cases hcall
    exact ⟨hside, hside⟩
  · cases hcall
    trivial
  · cases hcall
    trivial

theorem compositors_agree_whitePlanes :
    let gpu := (run (Compositor.step lumaGpu) .new (pictureInputs whitePlanes)).1
    (∀ id, gpu.readSurface lumaGpu id =
      (((pictureInputs whitePlanes).filterMap Compositor.Input.call?).foldl
        (CpuCompositor.step lumaGpu.nv12ToRgb) .new).surface id) ∧
      (gpu.readSurface lumaGpu 0).bind (·.pixel? 1 1) = some ⟨255, 255, 255, 255⟩ := by
  refine ⟨(compositors_agree (g := lumaGpu) (fun _ => rfl) (isU32_pictureInputs _) ?_).1, by decide⟩
  · simp [pictureInputs, Compositor.Input.call?, PlanesOnly, whitePlanes]

/-- A pixel buffer is drawn by the one and not by the other. -/
theorem not_compositors_agree :
    ¬ ∀ (g : Gpu) (is : List Compositor.Input), (∀ n, g.grants n = true) →
      (∀ i ∈ is, ∀ call ∈ i.call?, IsU32 call) → ∀ id,
        (run (Compositor.step g) .new is).1.readSurface g id =
          ((is.filterMap Compositor.Input.call?).foldl
            (CpuCompositor.step g.nv12ToRgb) .new).surface id := by
  intro hagree
  have hsame := hagree lumaGpu (pictureInputs whiteBuffer) (fun _ => rfl)
    (isU32_pictureInputs whiteBuffer) 0
  have hgpu : ((run (Compositor.step lumaGpu) .new (pictureInputs whiteBuffer)).1.readSurface
      lumaGpu 0).bind (·.pixel? 1 1) = some ⟨255, 255, 255, 255⟩ := by decide
  have hcpu : ((((pictureInputs whiteBuffer).filterMap Compositor.Input.call?).foldl
      (CpuCompositor.step lumaGpu.nv12ToRgb) .new).surface 0).bind (·.pixel? 1 1) =
        some ⟨0, 0, 0, 255⟩ := by decide
  rw [hsame, hcpu] at hgpu
  exact absurd hgpu (by decide)

end Drift.Render
