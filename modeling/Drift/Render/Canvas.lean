import Drift.Render.Compositor

/-!
# What the calls draw

The meaning of the calls on a frame sink, without clipping, loops or operations of a GPU: images are laid
over images and rectangles are painted. How a frame is read is a parameter, as the two compositors do
not understand the same ones.
-/

namespace Drift.Render

open Std Drift.Gfx

/-- The pixels of a frame, if it is understood. -/
abbrev Picture := Nv12Frame → Option (Nat → Nat → Option Bgra)

/-- The pixels that lie in a frame of the given size. -/
def within (size : Size) (f : Nat → Nat → Bgra) (x y : Nat) : Option Bgra :=
  if x < size.width ∧ y < size.height then some (f x y) else none

def planesPicture (nv12ToRgb : ToRgb) : Picture
  | .planes planes => some (within planes.size (planes.colorAt nv12ToRgb))
  | _ => none

/-- The compositor of the GPU also reads pixel buffers. -/
def gpuPicture (nv12ToRgb : ToRgb) : Picture
  | .planes planes => some (within planes.size (planes.colorAt nv12ToRgb))
  | .pixelBuffer size (some textures) => some (within size (textures.colorAt nv12ToRgb))
  | _ => none

/-- What is drawn on, and from where. -/
structure Canvas where
  output : Size
  surfaces : ExtTreeMap UInt16 (BgraImage × Option Point)
  cache : ExtTreeMap UInt16 BgraImage

namespace Canvas

def empty : Canvas := ⟨⟨0, 0⟩, ∅, ∅⟩

def surface (c : Canvas) (id : UInt16) : Option BgraImage := c.surfaces[id]?.map (·.1)

/-- Changes the image of a surface, if it exists. -/
def onSurface (c : Canvas) (id : UInt16) (f : BgraImage → BgraImage) : Canvas :=
  match c.surfaces[id]? with
  | some (img, origin) => { c with surfaces := c.surfaces.insert id (f img, origin) }
  | none => c

/-- Lays an image over a surface at every point. -/
def stamp (c : Canvas) (id : UInt16) (img : BgraImage) (dests : List Point) : Canvas :=
  c.onSurface id fun dst => dests.foldl (fun dst point => dst.overlay point img) dst

def brush (c : Canvas) (id : UInt16) (f : Nat → Nat → Option Bgra) (rects : List Rect) : Canvas :=
  c.onSurface id fun dst => rects.foldl (fun dst r => dst.paint r f) dst

def apply (picture : Picture) (c : Canvas) : SinkCall Nv12Frame → Canvas
  | .reset output => ⟨output, ∅, ∅⟩
  | .createSurface id size =>
    { c with surfaces := c.surfaces.insert id (.filled size opaqueBlack, none) }
  | .deleteSurface id => { c with surfaces := c.surfaces.erase id }
  | .mapSurfaceToOutput id origin =>
    match c.surfaces[id]? with
    | some (img, _) => { c with surfaces := c.surfaces.insert id (img, some origin) }
    | none => c
  | .blitBgra id rect stride data =>
    match bgraTile rect stride data with
    | some tile => c.stamp id tile [⟨rect.x, rect.y⟩]
    | none => c
  | .blitNv12 id frame regions =>
    match picture frame with
    | some colors => c.brush id colors regions
    | none => c
  | .solidFill id color rects => c.brush id (fun _ _ => some color) rects
  | .surfaceToSurface src dst rect dests =>
    match (c.surface src).bind (·.part rect) with
    | some snapshot => c.stamp dst snapshot dests
    | none => c
  | .surfaceToCache id rect slot =>
    match (c.surface id).bind (·.part rect) with
    | some entry => { c with cache := c.cache.insert slot entry }
    | none => c
  | .cacheToSurface slot id dests =>
    match c.cache[slot]? with
    | some entry => c.stamp id entry dests
    | none => c
  | .evictCache slot => { c with cache := c.cache.erase slot }
  | .endFrame _ => c
  | .setVisible _ => c

/-- Lays a surface over the output, if it is mapped. -/
def layer (out : BgraImage) : BgraImage × Option Point → BgraImage
  | (img, some origin) => out.overlay origin img
  | (_, none) => out

/-- The mapped surfaces over black, in the order of the ids. -/
def composite (c : Canvas) : BgraImage :=
  c.surfaces.toList.foldl (fun out entry => layer out entry.2) (.filled c.output opaqueBlack)

end Canvas

def CpuCompositor.canvas (c : CpuCompositor) : Canvas := ⟨c.output, c.surfaces, c.cache⟩

/-- The image of a surface, once everything that was recorded is executed. -/
def Surface.image (mem : Memory) (s : Surface) : BgraImage :=
  match s.texture with
  | some t => mem t
  | none => .filled s.size opaqueBlack

/-- What the compositor of the GPU holds, once everything that was recorded is executed. -/
def Compositor.canvas (g : Gpu) (c : Compositor) : Canvas :=
  let mem := c.device.contents g
  { output := c.outputSize
    surfaces := c.surfaces.map fun _ s => (s.image mem, s.origin)
    cache := c.cache.map fun _ entry => mem entry.2 }

/-- The calls on the sink among what happens to a compositor. -/
def Compositor.Input.call? : Compositor.Input → Option (SinkCall Nv12Frame)
  | .call _ made => some made
  | _ => none

/-- The call draws no pixel buffer that could be imported. -/
def PlanesOnly : SinkCall Nv12Frame → Prop
  | .blitNv12 _ (.pixelBuffer _ (some _)) _ => False
  | _ => True

/-- The sides of a created surface are 32-bit numbers. -/
def IsU32 : SinkCall Nv12Frame → Prop
  | .createSurface _ size => size.width ≤ u32Max ∧ size.height ≤ u32Max
  | _ => True

end Drift.Render
