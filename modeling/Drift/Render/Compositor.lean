import Drift.Render.Reference

/-!
# The compositor of the GPU

The frame sink on the GPU. Nothing is drawn at once: the calls record operations on textures into a
command buffer, which is committed at the end of a frame, and the buffers are executed in the order in
which they were committed. What the GPU is asked for (a texture, a buffer, a command buffer, an encoder)
may be refused.
-/

namespace Drift.Render

open Std Drift.Gfx

/-! ### The GPU -/

structure Texture where
  id : Nat
  size : Size
  deriving DecidableEq

/-- The operations that are recorded. `present` draws the output into the target of the frame. -/
inductive GpuOp where
  | fill (texture : Texture) (color : Bgra) (region : Rect)
  | nv12 (planes : PlaneTextures) (texture : Texture) (region : Rect)
  | copyTexture (src : Texture) (sourceOrigin : Point) (dst : Texture) (destinationOrigin : Point)
      (size : Size)
  | copyBuffer (buffer : Bytes) (bytesPerRow : Nat) (size : Size) (dst : Texture)
      (destinationOrigin : Point)
  | present (output : Texture)

/-- What does not depend on the program: whether the requests are granted, in their order, what is in a
new texture, and the conversion of colours of the kernel. -/
structure Gpu where
  grants : Nat → Bool
  garbage : Nat → Nat → Nat → Bgra
  nv12ToRgb : ToRgb

abbrev Memory := Texture → BgraImage

def Gpu.initial (g : Gpu) : Memory := fun t =>
  Raster.update (.filled t.size transparent : BgraImage) fun x y => some (g.garbage t.id x y)

/-- The texel of packed bytes, if it is there. -/
def pixelAt (data : Bytes) (i : Nat) : Option Bgra := do
  return ⟨← data[i]?, ← data[i + 1]?, ← data[i + 2]?, ← data[i + 3]?⟩

/-- The colour the kernel computes for a pixel. -/
def PlaneTextures.colorAt (p : PlaneTextures) (nv12ToRgb : ToRgb) (x y : Nat) : Bgra :=
  let (u, v) := (p.uv.pixel? (x / 2) (y / 2)).getD (0, 0)
  nv12ToRgb.pixel ((p.y.pixel? x y).getD 0) u v

namespace GpuOp

def target : GpuOp → Option Texture
  | fill texture _ _ | nv12 _ texture _ => some texture
  | copyTexture _ _ dst _ _ | copyBuffer _ _ _ dst _ => some dst
  | present _ => none

def source : GpuOp → Option Texture
  | copyTexture src _ _ _ _ => some src
  | present output => some output
  | fill _ _ _ | nv12 _ _ _ | copyBuffer _ _ _ _ _ => none

/-- What the operation makes of the image in its target. -/
def draw (g : Gpu) (mem : Memory) (dst : BgraImage) : GpuOp → BgraImage
  | fill _ color r => Raster.draw dst r.x r.y r.width r.height fun _ _ => color
  | nv12 planes _ r =>
    Raster.draw dst r.x r.y r.width r.height fun x y =>
      planes.colorAt g.nv12ToRgb (r.x + x) (r.y + y)
  | copyTexture src sourceOrigin _ destinationOrigin size =>
    (mem src).copyRegion ⟨sourceOrigin, destinationOrigin, size⟩ dst
  | copyBuffer buffer bytesPerRow size _ destinationOrigin =>
    Raster.draw dst destinationOrigin.x destinationOrigin.y size.width size.height fun x y =>
      (pixelAt buffer (y * bytesPerRow + x * 4)).getD transparent
  | present _ => dst

def exec (g : Gpu) (mem : Memory) (op : GpuOp) : Memory :=
  match op.target with
  | some t => Function.update mem t (op.draw g mem (mem t))
  | none => mem

end GpuOp

/-! ### Command buffers -/

inductive Encoder where
  | none
  | blit
  | compute
  deriving DecidableEq

/-- The command buffer that is recorded for the current frame. -/
structure Work where
  ops : List GpuOp
  encoder : Encoder

/-- What runs when a command buffer completes: the delivery of a captured frame, and the callback of the
frame. -/
structure Completion where
  delivery : Option UInt32
  presented : Nat
  deriving DecidableEq

/-- What runs outside of the compositor. -/
inductive Signal where
  | delivered (frameId : UInt32)
  | presented (callback : Nat)
  deriving DecidableEq

def Completion.run (completion : Completion) : List Signal :=
  (completion.delivery.map Signal.delivered).toList ++ [.presented completion.presented]

/-- The command buffer in the making, the committed ones, and those of them that are not completed. -/
structure Device where
  work : Option Work
  committed : List (List GpuOp)
  inflight : List (Option Completion)
  nextTexture : Nat
  asked : Nat

namespace Device

def new : Device := ⟨none, [], [], 0, 0⟩

/-- The contents of the textures once everything that was recorded is executed. -/
def contents (g : Gpu) (d : Device) : Memory :=
  (d.committed.flatten ++ (d.work.map (·.ops)).getD []).foldl (GpuOp.exec g) g.initial

def request (g : Gpu) (d : Device) : Device × Bool := ({ d with asked := d.asked + 1 }, g.grants d.asked)

/-- A texture, unless it is empty or refused. -/
def texture (g : Gpu) (d : Device) (size : Size) : Device × Option Texture :=
  if size.width = 0 ∨ size.height = 0 then (d, none)
  else
    let (d, granted) := d.request g
    if granted then ({ d with nextTexture := d.nextTexture + 1 }, some ⟨d.nextTexture, size⟩)
    else (d, none)

/-- A buffer of the given length, unless it is empty or refused. -/
def deviceBuffer (g : Gpu) (d : Device) (length : Nat) : Device × Bool :=
  if length = 0 then (d, false) else d.request g

/-- Opens a command buffer if there is none. -/
def openWork (g : Gpu) (d : Device) : Device :=
  match d.work with
  | some _ => d
  | none =>
    let (d, granted) := d.request g
    if granted then { d with work := some ⟨[], .none⟩ } else d

/-- Records operations with an encoder, if there is one. -/
def record (g : Gpu) (d : Device) (encoder : Encoder) (ops : List GpuOp) : Device :=
  let d := d.openWork g
  match d.work with
  | none => d
  | some work =>
    if work.encoder = encoder then { d with work := some ⟨work.ops ++ ops, encoder⟩ }
    else
      let (d, granted) := d.request g
      if granted then { d with work := some ⟨work.ops ++ ops, encoder⟩ }
      else { d with work := some ⟨work.ops, .none⟩ }

def submit (d : Device) (work : Work) (onComplete : Option Completion) : Device :=
  { d with
    work := none
    committed := d.committed ++ [work.ops]
    inflight := d.inflight ++ [onComplete] }

/-- Commits the current command buffer, or an empty one for the callbacks. -/
def commit (g : Gpu) (d : Device) (onComplete : Option Completion) : Device × List Signal :=
  match d.work, onComplete with
  | some work, onComplete => (d.submit work onComplete, [])
  | none, none => (d, [])
  | none, some completion =>
    let (d, granted) := d.request g
    if granted then (d.submit ⟨[], .none⟩ (some completion), [])
    else (d, completion.run)

def complete (d : Device) (index : Nat) : Device × List Signal :=
  match d.inflight[index]? with
  | some onComplete =>
    ({ d with inflight := d.inflight.eraseIdx index }, (onComplete.map (·.run)).getD [])
  | none => (d, [])

/-- A command buffer is dropped before it completes: the callback of the frame runs all the same. -/
def abandon (d : Device) (index : Nat) : Device × List Signal :=
  match d.inflight[index]? with
  | some onComplete =>
    ({ d with inflight := d.inflight.eraseIdx index },
      (onComplete.map fun completion => Signal.presented completion.presented).toList)
  | none => (d, [])

end Device

/-! ### The compositor -/

structure Surface where
  size : Size
  texture : Option Texture
  origin : Option Point

/-- `recorder` holds, while composed frames are captured, whether the pool has a buffer for each of the
next ones. -/
structure Compositor where
  device : Device
  outputSize : Size
  output : Option Texture
  surfaces : ExtTreeMap UInt16 Surface
  cache : ExtTreeMap UInt16 (Size × Texture)
  visible : Bool
  recorder : Option (List Bool)

namespace Compositor

def new : Compositor := ⟨.new, ⟨0, 0⟩, none, ∅, ∅, true, none⟩

/-- The size and the texture of a surface that has one. -/
def surfaceTexture (c : Compositor) (id : UInt16) : Option (Size × Texture) :=
  c.surfaces[id]?.bind fun s => s.texture.map (s.size, ·)

/-- Fills the rectangles of a texture, clipped. -/
def fill (g : Gpu) (d : Device) (texture : Texture) (size : Size) (color : Bgra)
    (rects : List Rect) : Device :=
  d.record g .compute ((rects.filterMap (clipRect · size)).map (.fill texture color))

def copy (g : Gpu) (d : Device) (src : Texture) (from_ : Point) (dst : Texture) (to_ : Point)
    (size : Size) : Device :=
  d.record g .blit [.copyTexture src from_ dst to_ size]

/-- A clipped copy, unless nothing remains. -/
def copyClipped (g : Gpu) (src : Texture) (rect : Rect) (srcBounds : Size) (dst : Texture)
    (dstBounds : Size) (d : Device) (point : Point) : Device :=
  match clipCopy rect srcBounds point dstBounds with
  | some region => copy g d src region.src dst region.dst region.size
  | none => d

def reset (g : Gpu) (c : Compositor) (output : Size) : Compositor :=
  let (device, texture) := c.device.texture g output
  { c with device := device, surfaces := ∅, cache := ∅, outputSize := output, output := texture }

def createSurface (g : Gpu) (c : Compositor) (id : UInt16) (size : Size) : Compositor :=
  let (device, texture) := c.device.texture g size
  let device := match texture with
    | some t => fill g device t size opaqueBlack [⟨0, 0, size.width, size.height⟩]
    | none => device
  { c with device := device, surfaces := c.surfaces.insert id ⟨size, texture, none⟩ }

/-- Whether the rectangle is not empty and the data is long enough for it. -/
def validUpload (rect : Rect) (stride : Nat) (data : Bytes) : Bool :=
  let row := rect.width * 4
  let needed := (checkedMul stride (rect.height - 1)).bind (checkedAdd · row)
  !(rect.isEmpty || stride < row || needed.all fun n => data.length < n)

def blitBgra (g : Gpu) (c : Compositor) (id : UInt16) (rect : Rect) (stride : Nat) (data : Bytes) :
    Compositor :=
  if !validUpload rect stride data then c
  else
    match c.surfaceTexture id with
    | none => c
    | some (ssize, texture) =>
      match clipCopy ⟨0, 0, rect.width, rect.height⟩ rect.size ⟨rect.x, rect.y⟩ ssize with
      | none => c
      | some region =>
        let w := region.size.width
        let h := region.size.height
        let (device, granted) := c.device.deviceBuffer g (w * 4 * h)
        if granted then
          let buffer := packRows (w * 4) stride h (region.src.y * stride + region.src.x * 4) data
          { c with device := device.record g .blit [.copyBuffer buffer (w * 4) region.size texture
            region.dst] }
        else { c with device := device }

def upload {α : Type} (g : Gpu) (d : Device) (size : Size) (texels : List α) :
    Device × Option (Raster α) :=
  let (d, texture) := d.texture g size
  (d, texture.bind fun _ => Raster.ofList? size.width size.height texels)

def pairsOf : Bytes → List (UInt8 × UInt8)
  | u :: v :: rest => (u, v) :: pairsOf rest
  | _ => []

/-- The planes of a frame as textures: those of its pixel buffer, or uploads of its planes. -/
def nv12Textures (g : Gpu) (d : Device) (frame : Nv12Frame) : Device × Option PlaneTextures :=
  match frame with
  | .pixelBuffer _ textures => (d, textures)
  | .planes planes =>
    let size := planes.size
    let (d, y) := upload g d size planes.y
    match y with
    | none => (d, none)
    | some y =>
      let (d, uv) := upload g d ⟨size.width / 2, (size.height + 1) / 2⟩ (pairsOf planes.uv)
      (d, uv.map (⟨y, ·⟩))
  | .unknown _ => (d, none)

def blitNv12 (g : Gpu) (c : Compositor) (id : UInt16) (frame : Nv12Frame) (regions : List Rect) :
    Compositor :=
  match c.surfaceTexture id with
  | none => c
  | some (ssize, texture) =>
    let fsize := frame.size
    let bounds : Size := ⟨min ssize.width fsize.width, min ssize.height fsize.height⟩
    let rects := regions.filterMap (clipRect · bounds)
    if rects.isEmpty then c
    else
      let (device, planes) := nv12Textures g c.device frame
      match planes with
      | none => { c with device := device }
      | some planes =>
        { c with device := device.record g .compute (rects.map (.nv12 planes texture)) }

def solidFill (g : Gpu) (c : Compositor) (id : UInt16) (color : Bgra) (rects : List Rect) :
    Compositor :=
  match c.surfaceTexture id with
  | none => c
  | some (size, texture) => { c with device := fill g c.device texture size color rects }

/-- A copy within a surface goes through a scratch texture, so that it reads the surface as it was
before. -/
def surfaceToSurface (g : Gpu) (c : Compositor) (src dst : UInt16) (rect : Rect)
    (dests : List Point) : Compositor :=
  match c.surfaceTexture src, c.surfaceTexture dst with
  | some (ssize, stex), some (dsize, dtex) =>
    match clipRect rect ssize with
    | none => c
    | some r =>
      if src = dst then
        let (device, scratch) := c.device.texture g r.size
        match scratch with
        | none => { c with device := device }
        | some scratch =>
          let device := copy g device stex ⟨r.x, r.y⟩ scratch ⟨0, 0⟩ r.size
          { c with device :=
            dests.foldl (copyClipped g scratch ⟨0, 0, r.width, r.height⟩ r.size dtex dsize) device }
      else { c with device := dests.foldl (copyClipped g stex r ssize dtex dsize) c.device }
  | _, _ => c

def surfaceToCache (g : Gpu) (c : Compositor) (id : UInt16) (rect : Rect) (slot : UInt16) :
    Compositor :=
  match c.surfaceTexture id with
  | none => c
  | some (ssize, stex) =>
    match clipRect rect ssize with
    | none => c
    | some r =>
      let (device, entry) := match c.cache[slot]? with
        | some (size, t) => if size = r.size then (c.device, some t) else c.device.texture g r.size
        | none => c.device.texture g r.size
      match entry with
      | none => { c with device := device }
      | some entry =>
        { c with
          device := copy g device stex ⟨r.x, r.y⟩ entry ⟨0, 0⟩ r.size
          cache := c.cache.insert slot (r.size, entry) }

def cacheToSurface (g : Gpu) (c : Compositor) (slot id : UInt16) (dests : List Point) :
    Compositor :=
  match c.cache[slot]?, c.surfaceTexture id with
  | some (csize, ctex), some (dsize, dtex) =>
    let rect : Rect := ⟨0, 0, csize.width, csize.height⟩
    { c with device := dests.foldl (copyClipped g ctex rect csize dtex dsize) c.device }
  | _, _ => c

/-- Copies a surface to the output, if it is mapped. -/
def composeSurface (g : Gpu) (output : Texture) (size : Size) (d : Device) (s : Surface) : Device :=
  match s.texture, s.origin with
  | some texture, some origin =>
    copyClipped g texture ⟨0, 0, s.size.width, s.size.height⟩ s.size output size d origin
  | _, _ => d

/-- The output: opaque black, then every mapped surface in the order of the ids. -/
def compose (g : Gpu) (c : Compositor) (output : Texture) : Device :=
  let size := c.outputSize
  let device := fill g c.device output size opaqueBlack [⟨0, 0, size.width, size.height⟩]
  c.surfaces.toList.foldl (fun d entry => composeSurface g output size d entry.2) device

/-- Copies the output into a buffer of the pool, if there is one. -/
def capture (g : Gpu) (c : Compositor) (output : Texture) (frameId : UInt32) :
    Compositor × Option UInt32 :=
  match c.recorder with
  | some (slot :: slots) =>
    let c := { c with recorder := some slots }
    if slot then
      let texture : Texture := ⟨c.device.nextTexture, c.outputSize⟩
      let device := { c.device with nextTexture := c.device.nextTexture + 1 }
      ({ c with device := copy g device output ⟨0, 0⟩ texture ⟨0, 0⟩ c.outputSize }, some frameId)
    else (c, none)
  | _ => (c, none)

/-- Draws the output into the target, if that gives a frame to draw to. -/
def present (g : Gpu) (d : Device) (output : Texture) : Device :=
  let (d, acquired) := d.request g
  if acquired then
    let d := d.openWork g
    match d.work with
    | none => d
    | some work =>
      let d := { d with work := some { work with encoder := .none } }
      let (d, granted) := d.request g
      if granted then { d with work := some ⟨work.ops ++ [.present output], .none⟩ } else d
  else d

def endFrame (g : Gpu) (c : Compositor) (frameId : UInt32) (presented : Nat) :
    Compositor × List Signal :=
  let (c, delivery) := match c.output with
    | some output =>
      if c.visible || c.recorder.isSome then
        let c := { c with device := compose g c output }
        let (c, delivery) := c.capture g output frameId
        (if c.visible then { c with device := present g c.device output } else c, delivery)
      else (c, none)
    | none => (c, none)
  let (device, signals) := c.device.commit g (some ⟨delivery, presented⟩)
  ({ c with device := device }, signals)

/-- One call on the sink; the callback of a frame is given by its number. -/
def call (g : Gpu) (c : Compositor) (presented : Nat) :
    SinkCall Nv12Frame → Compositor × List Signal
  | .reset output => (c.reset g output, [])
  | .createSurface id size => (c.createSurface g id size, [])
  | .deleteSurface id => ({ c with surfaces := c.surfaces.erase id }, [])
  | .mapSurfaceToOutput id origin =>
    match c.surfaces[id]? with
    | some s =>
      ({ c with surfaces := c.surfaces.insert id { s with origin := some origin } }, [])
    | none => (c, [])
  | .blitBgra id rect stride data => (c.blitBgra g id rect stride data, [])
  | .blitNv12 id frame regions => (c.blitNv12 g id frame regions, [])
  | .solidFill id color rects => (c.solidFill g id color rects, [])
  | .surfaceToSurface src dst rect dests => (c.surfaceToSurface g src dst rect dests, [])
  | .surfaceToCache id rect slot => (c.surfaceToCache g id rect slot, [])
  | .cacheToSurface slot id dests => (c.cacheToSurface g slot id dests, [])
  | .evictCache slot => ({ c with cache := c.cache.erase slot }, [])
  | .endFrame frameId => c.endFrame g frameId presented
  | .setVisible visible => ({ c with visible := visible }, [])

/-- What happens to a compositor besides the calls. -/
inductive Input where
  | call (presented : Nat) (call : SinkCall Nv12Frame)
  | startRecording (slots : List Bool)
  | stopRecording
  | completed (index : Nat)
  | abandoned (index : Nat)

def step (g : Gpu) (c : Compositor) : Input → Compositor × List Signal
  | .call presented call => c.call g presented call
  | .startRecording slots => ({ c with recorder := some slots }, [])
  | .stopRecording => ({ c with recorder := none }, [])
  | .completed index =>
    let (device, signals) := c.device.complete index
    ({ c with device := device }, signals)
  | .abandoned index =>
    let (device, signals) := c.device.abandon index
    ({ c with device := device }, signals)

/-- The compositor is dropped: what was recorded is committed. -/
def drop (g : Gpu) (c : Compositor) : Compositor × List Signal :=
  let (device, signals) := c.device.commit g none
  ({ c with device := device }, signals)

/-! ### Reading back -/

/-- The pixels of a surface; one without a texture has none. -/
def readSurface (g : Gpu) (c : Compositor) (id : UInt16) : Option BgraImage :=
  c.surfaces[id]?.map fun s =>
    match s.texture with
    | some t => c.device.contents g t
    | none => .filled s.size opaqueBlack

/-- The output that was composed last, unless it is empty. -/
def readOutput (g : Gpu) (c : Compositor) : Option BgraImage :=
  c.output.map (c.device.contents g)

def readSlot (g : Gpu) (c : Compositor) (slot : UInt16) : Option BgraImage :=
  c.cache[slot]?.map fun entry => c.device.contents g entry.2

end Compositor

end Drift.Render
