import Drift.Gfx.Client
import Drift.Lib.Transition
import Drift.Render.Canvas

/-!
# A client and its renderer

The client and the renderer keep tables of their own of the surfaces and the cache slots. The two run side
by side here, with a note of what the last accepted SurfaceToCache of each slot stored.
-/

namespace Drift.Render

open Std Drift.Gfx Drift.Codec

/-- How a renderer takes the calls, and the images that it holds. -/
structure Renderer (σ : Type) where
  new : σ
  call : σ → SinkCall Nv12Frame → σ
  surface : σ → UInt16 → Option BgraImage
  slot : σ → UInt16 → Option BgraImage

def CpuCompositor.renderer (nv12ToRgb : ToRgb) : Renderer CpuCompositor where
  new := .new
  call := step nv12ToRgb
  surface := surface
  slot c slot := c.cache[slot]?

/-- The callbacks of the frames are left aside. -/
def Compositor.renderer (g : Gpu) : Renderer Compositor where
  new := .new
  call c made := (c.call g 0 made).1
  surface := readSurface g
  slot := readSlot g

/-- A client, its renderer, and the image of the last accepted SurfaceToCache of each slot. -/
structure Screen (σ Clear H264 Caps : Type) where
  client : GfxClient Clear H264 Caps
  renderer : σ
  stored : UInt16 → Option BgraImage

/-- The rectangle that a SurfaceToCache stores. -/
def storedRect (s : SurfaceToCachePdu) : Rect :=
  let r := s.sourceRectangle
  ⟨r.left, r.top, r.right - r.left, r.bottom - r.top⟩

namespace Screen

variable {σ Clear H264 Caps : Type}

def new (r : Renderer σ) (d : Decoders Clear H264 Nv12Frame Caps) (h264 : H264) :
    Screen σ Clear H264 Caps := ⟨.new d h264, r.new, fun _ => none⟩

def note (r : Renderer σ) (s : Screen σ Clear H264 Caps) (accepted : Bool) :
    GfxPdu → UInt16 → Option BgraImage
  | .surfaceToCache p =>
    if accepted then
      Function.update s.stored p.cacheSlot
        ((r.surface s.renderer p.surfaceId).map fun img => img.crop (storedRect p))
    else s.stored
  | _ => s.stored

/-- One PDU, and the calls it makes on the renderer. -/
def step (r : Renderer σ) (d : Decoders Clear H264 Nv12Frame Caps) (s : Screen σ Clear H264 Caps)
    (p : GfxPdu) : Screen σ Clear H264 Caps × List (SinkCall Nv12Frame) :=
  let (client, calls, result) := s.client.handlePdu d p
  ({ client := client
     renderer := calls.foldl r.call s.renderer
     stored := s.note r result.isOk p }, calls)

/-- The tables agree, and the slots hold what was stored last. -/
structure Agrees (r : Renderer σ) (s : Screen σ Clear H264 Caps) : Prop where
  surfaces : ∀ id : UInt16,
    (r.surface s.renderer id).map BgraImage.size = (s.client.state.surfaces[id]?).map Gfx.Surface.size
  slots : ∀ slot : UInt16, (r.slot s.renderer slot).map BgraImage.size = s.client.state.cache[slot]?
  stored : ∀ (slot : UInt16) (img : BgraImage), r.slot s.renderer slot = some img →
    s.stored slot = some img

/-- A CacheToSurface draws what was stored last. -/
def DrawsStored (r : Renderer σ) (s s' : Screen σ Clear H264 Caps) : GfxPdu → Prop
  | .cacheToSurface p =>
    ∃ img, s.stored p.cacheSlot = some img ∧
      r.surface s'.renderer p.surfaceId = (r.surface s.renderer p.surfaceId).map fun dst =>
        p.destinationPoints.foldl (fun dst point => dst.overlay point img) dst
  | _ => True

/-- After every PDU the tables agree, and every CacheToSurface draws what was stored last. -/
def Faithful (r : Renderer σ) (d : Decoders Clear H264 Nv12Frame Caps) :
    Screen σ Clear H264 Caps → List GfxPdu → Prop
  | _, [] => True
  | s, p :: ps =>
    let s' := (s.step r d p).1
    s'.Agrees r ∧ s.DrawsStored r s' p ∧ Faithful r d s' ps

end Screen

def StoresNothing : GfxPdu → Prop
  | .surfaceToCache p => (storedRect p).isEmpty = true
  | _ => False

end Drift.Render
