import Drift.Render.Compositor

/-!
# The callbacks of the compositor

No call but the end of a frame commits a command buffer (`inflight_call`), and the end of a frame hands its
callback to the command buffer that it commits, or runs it (`endFrame_cases`).
-/

namespace Drift.Render

open Std Drift.Gfx

namespace Device

variable {g : Gpu} {d : Device}

@[simp]
theorem inflight_request : (d.request g).1.inflight = d.inflight := rfl

@[simp]
theorem inflight_texture (size : Size) : (d.texture g size).1.inflight = d.inflight := by
  unfold texture request
  split
  · rfl
  · simp only
    split <;> rfl

@[simp]
theorem inflight_deviceBuffer (length : Nat) :
    (d.deviceBuffer g length).1.inflight = d.inflight := by
  unfold deviceBuffer
  split
  · rfl
  · exact inflight_request

@[simp]
theorem inflight_openWork : (d.openWork g).inflight = d.inflight := by
  unfold openWork request
  split
  · rfl
  · simp only
    split <;> rfl

@[simp]
theorem inflight_record (encoder : Encoder) (ops : List GpuOp) :
    (d.record g encoder ops).inflight = d.inflight := by
  have hopen : (d.openWork g).inflight = d.inflight := inflight_openWork
  unfold record request
  simp only
  split
  · exact hopen
  · split
    · exact hopen
    · split
      · exact hopen
      · exact hopen

/-- A command buffer that is committed with callbacks takes them, unless there is none. -/
theorem commit_some_cases (completion : Completion) :
    (d.commit g (some completion)).1.inflight = d.inflight ++ [some completion] ∧
        (d.commit g (some completion)).2 = [] ∨
      (d.commit g (some completion)).1.inflight = d.inflight ∧
        (d.commit g (some completion)).2 = completion.run := by
  unfold commit request
  cases d.work with
  | some work => exact .inl ⟨rfl, rfl⟩
  | none =>
      simp only
      split
      · exact .inl ⟨rfl, rfl⟩
      · exact .inr ⟨rfl, rfl⟩

theorem commit_none_cases : (d.commit g none).2 = [] ∧
    ((d.commit g none).1.inflight = d.inflight ∨
      (d.commit g none).1.inflight = d.inflight ++ [none]) := by
  unfold commit
  cases d.work with
  | some work => exact ⟨rfl, .inr rfl⟩
  | none => exact ⟨rfl, .inl rfl⟩

end Device

namespace Compositor

variable {g : Gpu} {c : Compositor} {d : Device}

@[simp]
theorem inflight_fill (texture : Texture) (size : Size) (color : Bgra) (rects : List Rect) :
    (fill g d texture size color rects).inflight = d.inflight := Device.inflight_record _ _

@[simp]
theorem inflight_copy (src dst : Texture) (origin dest : Point) (size : Size) :
    (copy g d src origin dst dest size).inflight = d.inflight := Device.inflight_record _ _

@[simp]
theorem inflight_copyClipped (src dst : Texture) (rect : Rect) (srcBounds dstBounds : Size)
    (point : Point) :
    (copyClipped g src rect srcBounds dst dstBounds d point).inflight = d.inflight := by
  unfold copyClipped
  split
  · exact inflight_copy _ _ _ _ _
  · rfl

theorem inflight_foldl {α : Type*} {f : Device → α → Device}
    (h : ∀ d a, (f d a).inflight = d.inflight) (d : Device) (as : List α) :
    (as.foldl f d).inflight = d.inflight := by
  induction as generalizing d with
  | nil => rfl
  | cons a as ih => rw [List.foldl_cons, ih, h]

@[simp]
theorem inflight_upload {α : Type} (size : Size) (texels : List α) :
    (upload g d size texels).1.inflight = d.inflight := Device.inflight_texture size

@[simp]
theorem inflight_nv12Textures (frame : Nv12Frame) :
    (nv12Textures g d frame).1.inflight = d.inflight := by
  unfold nv12Textures
  split
  · rfl
  · next planes =>
      simp only
      split
      · exact inflight_upload planes.size planes.y
      · rw [inflight_upload, inflight_upload]
  · rfl

/-! ### The calls -/

theorem inflight_reset (output : Size) : (c.reset g output).device.inflight = c.device.inflight :=
  Device.inflight_texture output

theorem inflight_createSurface (id : UInt16) (size : Size) :
    (c.createSurface g id size).device.inflight = c.device.inflight := by
  unfold createSurface
  simp only
  split
  · rw [inflight_fill, Device.inflight_texture]
  · exact Device.inflight_texture size

theorem inflight_blitBgra (id : UInt16) (rect : Rect) (stride : Nat) (data : Bytes) :
    (c.blitBgra g id rect stride data).device.inflight = c.device.inflight := by
  unfold blitBgra
  split
  · rfl
  · split
    · rfl
    · split
      · rfl
      · simp only
        split
        · rw [Device.inflight_record, Device.inflight_deviceBuffer]
        · exact Device.inflight_deviceBuffer _

theorem inflight_blitNv12 (id : UInt16) (frame : Nv12Frame) (regions : List Rect) :
    (c.blitNv12 g id frame regions).device.inflight = c.device.inflight := by
  unfold blitNv12
  split
  · rfl
  · simp only
    split
    · rfl
    · split
      · exact inflight_nv12Textures frame
      · rw [Device.inflight_record, inflight_nv12Textures]

theorem inflight_solidFill (id : UInt16) (color : Bgra) (rects : List Rect) :
    (c.solidFill g id color rects).device.inflight = c.device.inflight := by
  unfold solidFill
  split
  · rfl
  · exact inflight_fill _ _ _ _

theorem inflight_surfaceToSurface (src dst : UInt16) (rect : Rect) (dests : List Point) :
    (c.surfaceToSurface g src dst rect dests).device.inflight = c.device.inflight := by
  have hloop : ∀ (d : Device) stex (r : Rect) ssize dtex dsize,
      (dests.foldl (copyClipped g stex r ssize dtex dsize) d).inflight = d.inflight := by
    intro d stex r ssize dtex dsize
    exact inflight_foldl (fun d p => inflight_copyClipped _ _ _ _ _ p) d dests
  unfold surfaceToSurface
  split
  · split
    · rfl
    · split
      · simp only
        split
        · exact Device.inflight_texture _
        · rw [hloop, inflight_copy, Device.inflight_texture]
      · exact hloop _ _ _ _ _ _
  · rfl

/-- The entry of a slot is taken over, or replaced by a new texture. -/
theorem inflight_entry (size : Size) (entry : Option (Size × Texture)) :
    (match entry with
      | some (size', t) => if size' = size then (d, some t) else d.texture g size
      | none => d.texture g size).1.inflight = d.inflight := by
  split
  · split
    · rfl
    · exact Device.inflight_texture _
  · exact Device.inflight_texture _

theorem inflight_surfaceToCache (id : UInt16) (rect : Rect) (slot : UInt16) :
    (c.surfaceToCache g id rect slot).device.inflight = c.device.inflight := by
  unfold surfaceToCache
  split
  · rfl
  · split
    · rfl
    · next r _ =>
        simp only
        split
        · exact inflight_entry r.size _
        · rw [inflight_copy]
          exact inflight_entry r.size _

theorem inflight_cacheToSurface (slot id : UInt16) (dests : List Point) :
    (c.cacheToSurface g slot id dests).device.inflight = c.device.inflight := by
  unfold cacheToSurface
  split
  · exact inflight_foldl (fun d p => inflight_copyClipped _ _ _ _ _ p) _ dests
  · rfl

/-- **Calls.** None but the end of a frame commits anything or runs a callback. -/
theorem inflight_call {made : SinkCall Nv12Frame} (h : ∀ frameId, made ≠ .endFrame frameId)
    (presented : Nat) : (c.call g presented made).1.device.inflight = c.device.inflight ∧
      (c.call g presented made).2 = [] := by
  cases made with
  | reset output => exact ⟨inflight_reset output, rfl⟩
  | createSurface id size => exact ⟨inflight_createSurface id size, rfl⟩
  | deleteSurface id => exact ⟨rfl, rfl⟩
  | mapSurfaceToOutput id origin =>
      simp only [call]
      split <;> exact ⟨rfl, rfl⟩
  | blitBgra id rect stride data => exact ⟨inflight_blitBgra id rect stride data, rfl⟩
  | blitNv12 id frame regions => exact ⟨inflight_blitNv12 id frame regions, rfl⟩
  | solidFill id color rects => exact ⟨inflight_solidFill id color rects, rfl⟩
  | surfaceToSurface src dst rect dests =>
      exact ⟨inflight_surfaceToSurface src dst rect dests, rfl⟩
  | surfaceToCache id rect slot => exact ⟨inflight_surfaceToCache id rect slot, rfl⟩
  | cacheToSurface slot id dests => exact ⟨inflight_cacheToSurface slot id dests, rfl⟩
  | evictCache slot => exact ⟨rfl, rfl⟩
  | endFrame frameId => exact absurd rfl (h frameId)
  | setVisible visible => exact ⟨rfl, rfl⟩

/-! ### The end of a frame -/

theorem inflight_composeSurface (output : Texture) (size : Size) (s : Surface) :
    (composeSurface g output size d s).inflight = d.inflight := by
  unfold composeSurface
  split
  · exact inflight_copyClipped _ _ _ _ _ _
  · rfl

theorem inflight_compose (output : Texture) :
    (compose g c output).inflight = c.device.inflight := by
  have hloop := inflight_foldl (f := fun d (entry : UInt16 × Surface) =>
    composeSurface g output c.outputSize d entry.2)
    (fun d entry => inflight_composeSurface output c.outputSize entry.2)
  rw [compose, hloop, inflight_fill]

theorem inflight_capture (output : Texture) (frameId : UInt32) :
    (c.capture g output frameId).1.device.inflight = c.device.inflight := by
  unfold capture
  split
  · simp only
    split
    · exact inflight_copy _ _ _ _ _
    · rfl
  · rfl

theorem inflight_present (output : Texture) : (present g d output).inflight = d.inflight := by
  have hopen : ∀ d : Device, (d.openWork g).inflight = d.inflight := fun d =>
    Device.inflight_openWork
  unfold present Device.request
  simp only
  split
  · split
    · exact hopen _
    · split <;> exact hopen _
  · rfl

/-- **The end of a frame.** Its callback goes with a command buffer, or runs at once. -/
theorem endFrame_cases (frameId : UInt32) (presented : Nat) :
    ∃ completion : Completion, completion.presented = presented ∧
      ((c.endFrame g frameId presented).1.device.inflight =
            c.device.inflight ++ [some completion] ∧
          (c.endFrame g frameId presented).2 = [] ∨
        (c.endFrame g frameId presented).1.device.inflight = c.device.inflight ∧
          (c.endFrame g frameId presented).2 = completion.run) := by
  unfold endFrame
  cases c.output with
  | none => exact ⟨⟨none, presented⟩, rfl, Device.commit_some_cases _⟩
  | some output =>
      by_cases hdraws : (c.visible || c.recorder.isSome) = true
      · simp only [hdraws, if_true]
        generalize hcaptured : capture g _ output frameId = captured
        have hdrawn : captured.1.device.inflight = c.device.inflight := by
          rw [← hcaptured, inflight_capture]
          exact inflight_compose output
        obtain ⟨captured, delivery⟩ := captured
        refine ⟨⟨delivery, presented⟩, rfl, ?_⟩
        by_cases hvisible : captured.visible = true
        · have hpresent := inflight_present (g := g) (d := captured.device) output
          simp only [hvisible, if_true]
          rw [← hdrawn, ← hpresent]
          exact Device.commit_some_cases _
        · simp only [hvisible]
          rw [← hdrawn]
          exact Device.commit_some_cases _
      · simp only [hdraws]
        exact ⟨⟨none, presented⟩, rfl, Device.commit_some_cases _⟩

theorem drop_cases : (c.drop g).2 = [] ∧ ((c.drop g).1.device.inflight = c.device.inflight ∨
    (c.drop g).1.device.inflight = c.device.inflight ++ [none]) := Device.commit_none_cases

end Compositor

end Drift.Render
