import Drift.Codec.Progressive
import Drift.Gfx.Ack
import Drift.Gfx.Sink
import Drift.Gfx.State

/-!
# The graphics client

`GfxClient` applies decoded graphics PDUs: it checks them against its surfaces and cache slots, runs
the codecs and calls the sink. Every function returns the calls it makes in order. The ClearCodec,
planar and H.264 decoders and the parsers of their payloads are parameters (`Decoders`).
-/

namespace Drift.Gfx

open Std Drift.Codec

inductive Codec1Type where
  | uncompressed
  | remoteFx
  | clearCodec
  | planar
  | avc420
  | alpha
  | avc444
  | avc444v2
  deriving DecidableEq

def Codec1Type.name : Codec1Type → String
  | uncompressed => "Uncompressed"
  | remoteFx => "RemoteFx"
  | clearCodec => "ClearCodec"
  | planar => "Planar"
  | avc420 => "Avc420"
  | alpha => "Alpha"
  | avc444 => "Avc444"
  | avc444v2 => "Avc444v2"

structure Color where
  b : UInt8
  g : UInt8
  r : UInt8
  xa : UInt8

structure SolidFillPdu where
  surfaceId : UInt16
  fillPixel : Color
  rectangles : List ExclusiveRectangle

structure SurfaceToSurfacePdu where
  sourceSurfaceId : UInt16
  destinationSurfaceId : UInt16
  sourceRectangle : ExclusiveRectangle
  destinationPoints : List Point

structure SurfaceToCachePdu where
  surfaceId : UInt16
  cacheSlot : UInt16
  sourceRectangle : ExclusiveRectangle

structure CacheToSurfacePdu where
  cacheSlot : UInt16
  surfaceId : UInt16
  destinationPoints : List Point

structure WireToSurface1Pdu where
  surfaceId : UInt16
  codecId : Codec1Type
  pixelFormat : PixelFormat
  destinationRectangle : ExclusiveRectangle
  bitmapData : Bytes

structure WireToSurface2Pdu where
  surfaceId : UInt16
  codecContextId : UInt32
  bitmapData : Bytes

/-- The decoded PDUs, each with the fields that are read. -/
inductive GfxPdu where
  | capabilitiesConfirm (caps : Bytes)
  | resetGraphics (width height : Nat)
  | createSurface (surfaceId width height : UInt16) (pixelFormat : PixelFormat)
  | deleteSurface (surfaceId : UInt16)
  | mapSurfaceToOutput (surfaceId : UInt16) (outputOriginX outputOriginY : Nat)
  | mapSurfaceToScaledOutput (surfaceId : UInt16) (outputOriginX outputOriginY : Nat)
  | mapSurfaceToWindow
  | mapSurfaceToScaledWindow
  | startFrame
  | endFrame (frameId : UInt32)
  | solidFill (pdu : SolidFillPdu)
  | surfaceToSurface (pdu : SurfaceToSurfacePdu)
  | surfaceToCache (pdu : SurfaceToCachePdu)
  | cacheToSurface (pdu : CacheToSurfacePdu)
  | evictCacheEntry (cacheSlot : UInt16)
  | cacheImportReply
  | deleteEncodingContext (surfaceId : UInt16) (codecContextId : UInt32)
  | wireToSurface1 (pdu : WireToSurface1Pdu)
  | wireToSurface2 (pdu : WireToSurface2Pdu)
  | capabilitiesAdvertise
  | frameAcknowledge
  | qoeFrameAcknowledge
  | cacheImportOffer

/-- The decoders the client calls without looking into them; those of ClearCodec and H.264 have a
state. -/
structure Decoders (Clear H264 Frame Caps : Type) where
  progressive : Transforms
  newClear : Clear
  decodeClear : Clear → Rect → Bytes → Clear × Except CodecError BgraTile
  decodePlanar : Rect → Bytes → Except CodecError BgraTile
  resetH264 : H264 → H264
  decodeH264 : H264 → Bytes → H264 × Except String (Option Frame)
  decodeAvc420 : Bytes → Except String (List ExclusiveRectangle × Bytes)
  parsedCaps : Bytes → Except String (Option Caps)

structure GfxClient (Clear H264 Caps : Type) where
  h264 : H264
  progressive : ProgressiveCodec
  clear : Clear
  state : GfxState
  acks : AckState
  confirmed : Option Caps
  output : Size

namespace GfxClient

variable {Clear H264 Frame Caps : Type}

/-- The client after a call, what it called on the sink, and whether it failed. -/
abbrev Outcome (Clear H264 Frame Caps : Type) :=
  GfxClient Clear H264 Caps × List (SinkCall Frame) × Except GfxError Unit

def new (d : Decoders Clear H264 Frame Caps) (h264 : H264) : GfxClient Clear H264 Caps where
  h264 := h264
  progressive := .new
  clear := d.newClear
  state := .empty
  acks := .new
  confirmed := none
  output := ⟨0, 0⟩

/-- A failure that leaves the client alone. -/
def fail (c : GfxClient Clear H264 Caps) (e : GfxError) : Outcome Clear H264 Frame Caps :=
  (c, [], .error e)

def done (c : GfxClient Clear H264 Caps) (calls : List (SinkCall Frame)) :
    Outcome Clear H264 Frame Caps :=
  (c, calls, .ok ())

/-- Sends what a check produced, or fails with its error. -/
def check {α : Type} (c : GfxClient Clear H264 Caps) (x : Except GfxError α)
    (next : α → Outcome Clear H264 Frame Caps) : Outcome Clear H264 Frame Caps :=
  match x with
  | .ok a => next a
  | .error e => c.fail e

/-- The parts of the rectangles of the wire that lie in a surface. -/
def clipAll (rectangles : List ExclusiveRectangle) (bounds : Size) :
    Except GfxError (List Rect) :=
  match rectangles with
  | [] => .ok []
  | r :: rs => do
    let r ← rect r
    let rects ← clipAll rs bounds
    return (clip r bounds).toList ++ rects

/-- The destination points, when an image of the given size fits at each. -/
def destinations (surface : UInt16) (bounds size : Size) (points : List Point) :
    Except GfxError (List Point) :=
  match points with
  | [] => .ok []
  | p :: ps => do
    ensureWithin surface bounds ⟨p.x, p.y, size.width, size.height⟩ "destination"
    let ps ← destinations surface bounds size ps
    return p :: ps

/-- The writes of a tile; the check repeats what the codecs promise. -/
def blit (id : UInt16) (bounds : Size) (tile : BgraTile) : List (SinkCall Frame) :=
  (tile.blits.filter fun b => b.rect.fitsWithin bounds).map fun b =>
    .blitBgra id b.rect b.stride b.data

def resetGraphics (d : Decoders Clear H264 Frame Caps) (c : GfxClient Clear H264 Caps)
    (output : Size) : Outcome Clear H264 Frame Caps :=
  let (state, ids) := c.state.reset
  let progressive := (ids.foldl ProgressiveCodec.deleteSurface c.progressive).reset
  { c with
    state := state
    progressive := progressive
    clear := d.newClear
    h264 := d.resetH264 c.h264
    output := output }.done [.reset output]

def solidFill (c : GfxClient Clear H264 Caps) (f : SolidFillPdu) :
    Outcome Clear H264 Frame Caps :=
  c.check (c.state.surface f.surfaceId) fun surface =>
  c.check (clipAll f.rectangles surface.size) fun rects =>
    let a := if surface.format = .aRgb then f.fillPixel.xa else 0xFF
    let color : Bgra := ⟨f.fillPixel.b, f.fillPixel.g, f.fillPixel.r, a⟩
    c.done (if rects.isEmpty then [] else [.solidFill f.surfaceId color rects])

def surfaceToSurface (c : GfxClient Clear H264 Caps) (s : SurfaceToSurfacePdu) :
    Outcome Clear H264 Frame Caps :=
  c.check (c.state.surface s.sourceSurfaceId) fun src =>
  c.check (c.state.surface s.destinationSurfaceId) fun dst =>
  c.check (rect s.sourceRectangle) fun r =>
  c.check (ensureWithin s.sourceSurfaceId src.size r "source") fun _ =>
  c.check (destinations s.destinationSurfaceId dst.size r.size s.destinationPoints) fun dests =>
    c.done [.surfaceToSurface s.sourceSurfaceId s.destinationSurfaceId r dests]

def surfaceToCache (c : GfxClient Clear H264 Caps) (s : SurfaceToCachePdu) :
    Outcome Clear H264 Frame Caps :=
  c.check (c.state.surface s.surfaceId) fun surface =>
  c.check (rect s.sourceRectangle) fun r =>
  c.check (ensureWithin s.surfaceId surface.size r "source") fun _ =>
  c.check (c.state.cacheStore s.cacheSlot r.size) fun state =>
    { c with state := state }.done [.surfaceToCache s.surfaceId r s.cacheSlot]

def cacheToSurface (c : GfxClient Clear H264 Caps) (p : CacheToSurfacePdu) :
    Outcome Clear H264 Frame Caps :=
  c.check (c.state.cacheEntry p.cacheSlot) fun size =>
  c.check (c.state.surface p.surfaceId) fun surface =>
  c.check (destinations p.surfaceId surface.size size p.destinationPoints) fun dests =>
    c.done [.cacheToSurface p.cacheSlot p.surfaceId dests]

/-- The regions of the metablock that lie in the surface are drawn. The picture is decoded even
without any, as later pictures refer to it. -/
def avc420 (d : Decoders Clear H264 Frame Caps) (c : GfxClient Clear H264 Caps) (id : UInt16)
    (bounds : Size) (data : Bytes) : Outcome Clear H264 Frame Caps :=
  c.check ((d.decodeAvc420 data).mapError .decode) fun stream =>
  c.check (clipAll stream.1 bounds) fun regions =>
    let (h264, decoded) := d.decodeH264 c.h264 stream.2
    let c := { c with h264 := h264 }
    c.check (decoded.mapError .h264) fun frame =>
      c.done (match frame with
        | some frame => if regions.isEmpty then [] else [.blitNv12 id frame regions]
        | none => [])

def wireToSurface1 (d : Decoders Clear H264 Frame Caps) (c : GfxClient Clear H264 Caps)
    (w : WireToSurface1Pdu) : Outcome Clear H264 Frame Caps :=
  c.check (c.state.surface w.surfaceId) fun surface =>
  c.check (rect w.destinationRectangle) fun dest =>
    match w.codecId with
    | .avc420 => c.avc420 d w.surfaceId surface.size w.bitmapData
    | .uncompressed =>
      c.check (ensureWithin w.surfaceId surface.size dest "destination") fun _ =>
        let format := match w.pixelFormat with
          | .xRgb => UncompressedFormat.xrgb
          | .aRgb => UncompressedFormat.argb
        c.check ((decodeUncompressed dest format w.bitmapData).mapError .codec) fun tile =>
          c.done (blit w.surfaceId surface.size tile)
    | .planar =>
      c.check (ensureWithin w.surfaceId surface.size dest "destination") fun _ =>
      c.check ((d.decodePlanar dest w.bitmapData).mapError .codec) fun tile =>
        c.done (blit w.surfaceId surface.size tile)
    | .clearCodec =>
      c.check (ensureWithin w.surfaceId surface.size dest "destination") fun _ =>
        let (clear, decoded) := d.decodeClear c.clear dest w.bitmapData
        let c := { c with clear := clear }
        c.check (decoded.mapError .codec) fun tile =>
          c.done (blit w.surfaceId surface.size tile)
    | codec => c.fail (.unsupportedCodec codec.name)

def wireToSurface2 (d : Decoders Clear H264 Frame Caps) (c : GfxClient Clear H264 Caps)
    (w : WireToSurface2Pdu) : Outcome Clear H264 Frame Caps :=
  c.check (c.state.surface w.surfaceId) fun surface =>
    let (progressive, decoded) := c.progressive.decode d.progressive w.surfaceId w.codecContextId
      surface.size w.bitmapData
    let c := { c with progressive := progressive }
    c.check (decoded.mapError .codec) fun tiles =>
      c.done (tiles.flatMap (blit w.surfaceId surface.size))

def handlePdu (d : Decoders Clear H264 Frame Caps) (c : GfxClient Clear H264 Caps) :
    GfxPdu → Outcome Clear H264 Frame Caps
  | .capabilitiesConfirm caps =>
    c.check ((d.parsedCaps caps).mapError .decode) fun caps =>
      { c with confirmed := caps }.done []
  | .resetGraphics width height => c.resetGraphics d ⟨width, height⟩
  | .createSurface id width height format =>
    let size : Size := ⟨width.toNat, height.toNat⟩
    c.check (c.state.create id size format) fun state =>
      -- A reused id must not inherit progressive tiles from an earlier surface.
      { c with
        state := state
        progressive := c.progressive.deleteSurface id }.done [.createSurface id size]
  | .deleteSurface id =>
    match c.state.delete id with
    | (state, true) =>
      { c with
        state := state
        progressive := c.progressive.deleteSurface id }.done [.deleteSurface id]
    | (state, false) => { c with state := state }.done []
  | .mapSurfaceToOutput id x y =>
    c.check (c.state.surface id) fun _ => c.done [.mapSurfaceToOutput id ⟨x, y⟩]
  -- The placement is honoured, the scaling ignored.
  | .mapSurfaceToScaledOutput id x y =>
    c.check (c.state.surface id) fun _ => c.done [.mapSurfaceToOutput id ⟨x, y⟩]
  | .mapSurfaceToWindow => c.done []
  | .mapSurfaceToScaledWindow => c.done []
  | .startFrame => { c with progressive := c.progressive.beginFrame }.done []
  | .endFrame frameId =>
    { c with
      progressive := c.progressive.endFrame
      acks := c.acks.frameEnded }.done [.endFrame frameId]
  | .solidFill f => c.solidFill f
  | .surfaceToSurface s => c.surfaceToSurface s
  | .surfaceToCache s => c.surfaceToCache s
  | .cacheToSurface p => c.cacheToSurface p
  | .evictCacheEntry slot =>
    c.check (c.state.cacheEvict slot) fun r =>
      { c with state := r.1 }.done (if r.2 then [.evictCache slot] else [])
  | .cacheImportReply => c.done []
  | .deleteEncodingContext id codecContextId =>
    { c with progressive := c.progressive.deleteContext id codecContextId }.done []
  | .wireToSurface1 w => c.wireToSurface1 d w
  | .wireToSurface2 w => c.wireToSurface2 d w
  | .capabilitiesAdvertise => c.fail (.unexpectedPdu "CapabilitiesAdvertise")
  | .frameAcknowledge => c.fail (.unexpectedPdu "FrameAcknowledge")
  | .qoeFrameAcknowledge => c.fail (.unexpectedPdu "QoeFrameAcknowledge")
  | .cacheImportOffer => c.fail (.unexpectedPdu "CacheImportOffer")

def next (d : Decoders Clear H264 Frame Caps) (c : GfxClient Clear H264 Caps) (p : GfxPdu) :
    GfxClient Clear H264 Caps := (c.handlePdu d p).1

def Accepts (d : Decoders Clear H264 Frame Caps) (c : GfxClient Clear H264 Caps) (p : GfxPdu) :
    Prop := (c.handlePdu d p).2.2 = .ok ()

/-- A sequence of PDUs that is accepted from the first to the last. -/
def AcceptsAll (d : Decoders Clear H264 Frame Caps) : GfxClient Clear H264 Caps → List GfxPdu → Prop
  | _, [] => True
  | c, p :: ps => c.Accepts d p ∧ AcceptsAll d (c.next d p) ps

def setVisible (c : GfxClient Clear H264 Caps) (visible : Bool) :
    GfxClient Clear H264 Caps × List (SinkCall Frame) :=
  ({ c with acks := c.acks.setHidden (!visible) }, [.setVisible visible])

end GfxClient

/-- What the session feeds to a client: PDUs, failing or not, and changes of visibility. -/
inductive ClientInput where
  | pdu (p : GfxPdu)
  | setVisible (visible : Bool)

/-- One input and the calls it makes on the sink. -/
def GfxClient.step {Clear H264 Frame Caps : Type} (d : Decoders Clear H264 Frame Caps)
    (c : GfxClient Clear H264 Caps) :
    ClientInput → GfxClient Clear H264 Caps × List (SinkCall Frame)
  | .pdu p =>
    let (c, calls, _) := c.handlePdu d p
    (c, calls)
  | .setVisible visible => c.setVisible visible

/-- Decoders that refuse everything but a progressive stream, of which they take the given blocks. -/
def Decoders.refusing {Frame : Type} (blocks : Except String (List ProgressiveBlock)) :
    Decoders Unit Unit Frame Unit where
  progressive :=
    { decodeProgressiveStream := fun _ => blocks
      decodeFirstPassToDwtq := fun _ _ _ => .error "refused"
      decodeUpgradePass := fun _ _ _ _ _ _ _ => .error "refused"
      reconstructToRgba := fun _ => .replicate 16384 0 }
  newClear := ()
  decodeClear _ _ _ := ((), .error (.malformed .clearCodec "refused"))
  decodePlanar _ _ := .error (.malformed .planar "refused")
  resetH264 _ := ()
  decodeH264 _ _ := ((), .error "refused")
  decodeAvc420 _ := .error "refused"
  parsedCaps _ := .error "refused"

end Drift.Gfx
