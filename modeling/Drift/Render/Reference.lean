import Drift.Gfx.Sink
import Drift.Render.Image

/-!
# The reference compositor

The frame sink on the CPU, against which the compositor of the GPU is checked. Of the decoded pictures it
only understands those in planes on the side of the CPU. The conversion of their colours is a parameter
that both compositors share.
-/

namespace Drift.Render

open Std Drift.Gfx

/-! ### Frames -/

/-- A conversion of brightness and colours to red, green and blue. -/
abbrev ToRgb := UInt8 → UInt8 → UInt8 → UInt8 × UInt8 × UInt8

/-- The opaque pixel of the converted colours. -/
def ToRgb.pixel (nv12ToRgb : ToRgb) (y u v : UInt8) : Bgra :=
  let (r, g, b) := nv12ToRgb y u v
  ⟨b, g, r, 255⟩

/-- A picture in planes: the brightness of each pixel, and the colour of each block of two by two. -/
structure Nv12Planes where
  size : Size
  y : Bytes
  uv : Bytes
  width_even : size.width % 2 = 0
  y_length : y.length = size.width * size.height
  uv_length : uv.length = size.width * ((size.height + 1) / 2)

/-- The planes of a picture as textures. -/
structure PlaneTextures where
  y : Raster UInt8
  uv : Raster (UInt8 × UInt8)

def Nv12Planes.colorAt (p : Nv12Planes) (nv12ToRgb : ToRgb) (x y : Nat) : Bgra :=
  let w := p.size.width
  let i := (y / 2) * w + (x / 2) * 2
  nv12ToRgb.pixel (p.y.getD (y * w + x) 0) (p.uv.getD i 0) (p.uv.getD (i + 1) 0)

/-- A decoded picture: planes, a pixel buffer with the textures that importing it gives, if that
succeeds, or something that no compositor understands. -/
inductive Nv12Frame where
  | planes (planes : Nv12Planes)
  | pixelBuffer (size : Size) (textures : Option PlaneTextures)
  | unknown (size : Size)

def Nv12Frame.size : Nv12Frame → Size
  | planes p => p.size
  | pixelBuffer size _ => size
  | unknown size => size

/-! ### Uploads -/

abbrev usizeMax : Nat := 2 ^ 64 - 1

def checkedMul (a b : Nat) : Option Nat := if a * b ≤ usizeMax then some (a * b) else none

def checkedAdd (a b : Nat) : Option Nat := if a + b ≤ usizeMax then some (a + b) else none

/-- The bytes of packed pixels, four by four. -/
def pixelsOf : Bytes → List Bgra
  | b :: g :: r :: a :: rest => ⟨b, g, r, a⟩ :: pixelsOf rest
  | _ => []

/-- Rows of the given length that start every `stride` bytes, one after the other. -/
def packRows (row stride rows start : Nat) (data : Bytes) : Bytes :=
  (List.range rows).flatMap fun y => (data.drop (start + y * stride)).take row

/-- The image of an upload, unless the rectangle is empty or the data is too short for it. -/
def bgraTile (rect : Rect) (stride : Nat) (data : Bytes) : Option BgraImage := do
  let row ← checkedMul rect.width 4
  if rect.isEmpty ∨ stride < row then none
  else
    let needed ← (checkedMul stride (rect.height - 1)).bind (checkedAdd · row)
    if data.length < needed then none
    else
      let _capacity ← checkedMul row rect.height
      Raster.ofList? rect.width rect.height (pixelsOf (packRows row stride rect.height 0 data))

/-! ### The compositor -/

structure CpuCompositor where
  output : Size
  surfaces : ExtTreeMap UInt16 (BgraImage × Option Point)
  cache : ExtTreeMap UInt16 BgraImage

namespace CpuCompositor

def new : CpuCompositor := ⟨⟨0, 0⟩, ∅, ∅⟩

def surface (c : CpuCompositor) (id : UInt16) : Option BgraImage := c.surfaces[id]?.map (·.1)

/-- Changes the pixels of a surface, if it exists. -/
def surfaceMut (c : CpuCompositor) (id : UInt16) (f : BgraImage → BgraImage) : CpuCompositor :=
  match c.surfaces[id]? with
  | some (img, origin) => { c with surfaces := c.surfaces.insert id (f img, origin) }
  | none => c

/-- Copies a rectangle of an image into another one at a point, clipped. -/
def copy (src : BgraImage) (rect : Rect) (dst : BgraImage) (point : Point) : BgraImage :=
  match clipCopy rect src.size point dst.size with
  | some region => src.copyRegion region dst
  | none => dst

/-- The output: opaque black, then every mapped surface in the order of the ids. -/
def composite (c : CpuCompositor) : BgraImage :=
  c.surfaces.toList.foldl
    (fun out entry =>
      match entry.2 with
      | (img, some origin) => copy img img.full out origin
      | (_, none) => out)
    (.filled c.output opaqueBlack)

def blitBgra (c : CpuCompositor) (id : UInt16) (rect : Rect) (stride : Nat) (data : Bytes) :
    CpuCompositor :=
  match bgraTile rect stride data with
  | some tile => c.surfaceMut id fun dst => copy tile tile.full dst ⟨rect.x, rect.y⟩
  | none => c

/-- The pixels of a clipped rectangle, up to its right and bottom edges. -/
def drawRect (dst : BgraImage) (r : Rect) (f : Nat → Nat → Bgra) : BgraImage :=
  dst.draw r.x r.y (r.right - r.x) (r.bottom - r.y) fun x y => f (r.x + x) (r.y + y)

/-- Draws the regions of a picture in planes. -/
def blitNv12 (c : CpuCompositor) (nv12ToRgb : ToRgb) (id : UInt16) (frame : Nv12Frame)
    (regions : List Rect) : CpuCompositor :=
  match frame with
  | .planes planes =>
    let fsize := frame.size
    c.surfaceMut id fun dst =>
      let bounds : Size := ⟨min dst.width fsize.width, min dst.height fsize.height⟩
      (regions.filterMap (clipRect · bounds)).foldl
        (fun dst r => drawRect dst r (planes.colorAt nv12ToRgb)) dst
  | _ => c

def solidFill (c : CpuCompositor) (id : UInt16) (color : Bgra) (rects : List Rect) : CpuCompositor :=
  c.surfaceMut id fun dst =>
    (rects.filterMap (clipRect · dst.size)).foldl (fun dst r => drawRect dst r fun _ _ => color) dst

/-- Copies from the surface as it was before. -/
def surfaceToSurface (c : CpuCompositor) (src dst : UInt16) (rect : Rect) (dests : List Point) :
    CpuCompositor :=
  match (c.surface src).bind fun s => (clipRect rect s.size).map s.crop with
  | some snapshot =>
    c.surfaceMut dst fun dst =>
      dests.foldl (fun dst point => copy snapshot snapshot.full dst point) dst
  | none => c

def surfaceToCache (c : CpuCompositor) (id : UInt16) (rect : Rect) (slot : UInt16) : CpuCompositor :=
  match (c.surface id).bind fun s => (clipRect rect s.size).map s.crop with
  | some entry => { c with cache := c.cache.insert slot entry }
  | none => c

def cacheToSurface (c : CpuCompositor) (slot id : UInt16) (dests : List Point) : CpuCompositor :=
  match c.cache[slot]? with
  | some entry =>
    c.surfaceMut id fun dst => dests.foldl (fun dst point => copy entry entry.full dst point) dst
  | none => c

def step (nv12ToRgb : ToRgb) (c : CpuCompositor) : SinkCall Nv12Frame → CpuCompositor
  | .reset output => ⟨output, ∅, ∅⟩
  | .createSurface id size =>
    { c with surfaces := c.surfaces.insert id (.filled size opaqueBlack, none) }
  | .deleteSurface id => { c with surfaces := c.surfaces.erase id }
  | .mapSurfaceToOutput id origin =>
    match c.surfaces[id]? with
    | some (img, _) => { c with surfaces := c.surfaces.insert id (img, some origin) }
    | none => c
  | .blitBgra id rect stride data => c.blitBgra id rect stride data
  | .blitNv12 id frame regions => c.blitNv12 nv12ToRgb id frame regions
  | .solidFill id color rects => c.solidFill id color rects
  | .surfaceToSurface src dst rect dests => c.surfaceToSurface src dst rect dests
  | .surfaceToCache id rect slot => c.surfaceToCache id rect slot
  | .cacheToSurface slot id dests => c.cacheToSurface slot id dests
  | .evictCache slot => { c with cache := c.cache.erase slot }
  | .endFrame _ => c
  | .setVisible _ => c

end CpuCompositor

end Drift.Render
