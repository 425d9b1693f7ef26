import Drift.Egfx.Pdu
import Drift.Lib.Table
import Drift.Lib.Transition
import Drift.Zgfx.Wrapper
import Mathlib.Data.List.Sort

/-!
# The server of the graphics channel

It agrees on the capabilities, keeps the surfaces and the frames that were not acknowledged, and queues PDUs. What
its owner decides (`GraphicsPipelineHandler`) is a parameter, and so are the clocks and the statistics left out.
-/

namespace Drift.Egfx

open Pdu Table
open Gfx (Codec1Type PixelFormat)
open Zgfx (CompressionMode Compressor compressAndWrapEgfx)

/-! ### Capabilities -/

namespace CapabilityFlags

def thinClient : UInt32 := 0x1

def smallCache : UInt32 := 0x2

def avc420Enabled : UInt32 := 0x10

def avcDisabled : UInt32 := 0x20

def avcThinClient : UInt32 := 0x40

end CapabilityFlags

open CapabilityFlags

inductive CapabilitySet where
  | v8 (flags : UInt32)
  | v8_1 (flags : UInt32)
  | v10 (flags : UInt32)
  | v10_1
  | v10_2 (flags : UInt32)
  | v10_3 (flags : UInt32)
  | v10_4 (flags : UInt32)
  | v10_5 (flags : UInt32)
  | v10_6 (flags : UInt32)
  | v10_6Err (flags : UInt32)
  | v10_7 (flags : UInt32)
  deriving DecidableEq

/-- `flags.contains(flag)`. -/
def hasFlag (flags flag : UInt32) : Bool := flags &&& flag = flag

namespace CapabilitySet

def version : CapabilitySet → UInt32
  | v8 _ => 0x80004
  | v8_1 _ => 0x80105
  | v10 _ => 0xa0002
  | v10_1 => 0xa0100
  | v10_2 _ => 0xa0200
  | v10_3 _ => 0xa0301
  | v10_4 _ => 0xa0400
  | v10_5 _ => 0xa0502
  | v10_6 _ => 0xa0600
  | v10_6Err _ => 0xa0601
  | v10_7 _ => 0xa0701

/-- `write_body`. -/
def body : CapabilitySet → Bytes
  | v10_1 => List.replicate 16 0
  | v8 flags | v8_1 flags | v10 flags | v10_2 flags | v10_3 flags | v10_4 flags | v10_5 flags | v10_6 flags
  | v10_6Err flags | v10_7 flags => le32 flags

def toRaw (cap : CapabilitySet) : RawCapabilitySet := ⟨cap.version, cap.body⟩

/-- Highest to lowest. -/
def capabilityPriority : CapabilitySet → Nat
  | v10_7 _ => 12
  | v10_6Err _ => 11
  | v10_6 _ => 10
  | v10_5 _ => 9
  | v10_4 _ => 8
  | v10_3 _ => 7
  | v10_2 _ => 6
  | v10_1 => 5
  | v10 _ => 4
  | v8_1 _ => 3
  | v8 _ => 2

/-- The flags of both, but AVC stays disabled if the client disabled it. -/
def keepDisabled (cf sf : UInt32) : UInt32 := (cf &&& sf) ||| (cf &&& avcDisabled)

def intersectFlags : CapabilitySet → CapabilitySet → CapabilitySet
  | v8 cf, v8 sf => v8 (cf &&& sf)
  | v8_1 cf, v8_1 sf => v8_1 (cf &&& sf)
  | v10 cf, v10 sf => v10 (keepDisabled cf sf)
  | v10_2 cf, v10_2 sf => v10_2 (keepDisabled cf sf)
  | v10_3 cf, v10_3 sf => v10_3 (keepDisabled cf sf)
  | v10_4 cf, v10_4 sf => v10_4 (keepDisabled cf sf)
  | v10_5 cf, v10_5 sf => v10_5 (keepDisabled cf sf)
  | v10_6 cf, v10_6 sf => v10_6 (keepDisabled cf sf)
  | v10_6Err cf, v10_6Err sf => v10_6Err (keepDisabled cf sf)
  | v10_7 cf, v10_7 sf => v10_7 (keepDisabled cf sf)
  | _, server => server

/-- No thin client without AVC. -/
def removeThinClient (flags : UInt32) : UInt32 :=
  if hasFlag flags avcDisabled then flags &&& ~~~avcThinClient else flags

def sanitizeCapabilitiesForConfirm : CapabilitySet → CapabilitySet
  | v10_3 flags => v10_3 (removeThinClient flags)
  | v10_4 flags => v10_4 (removeThinClient flags)
  | v10_5 flags => v10_5 (removeThinClient flags)
  | v10_6 flags => v10_6 (removeThinClient flags)
  | v10_6Err flags => v10_6Err (removeThinClient flags)
  | v10_7 flags => v10_7 (removeThinClient flags)
  | cap => cap

/-- By priority, the highest first; the sort is stable. -/
def byPriority (caps : List CapabilitySet) : List CapabilitySet :=
  caps.insertionSort fun a b => b.capabilityPriority ≤ a.capabilityPriority

/-- What the first version of the server in the order of priority becomes that the client has too. The versions
stand for the discriminants of the sets. -/
def negotiateCapabilities (clientCaps serverCaps : List CapabilitySet) : Option CapabilitySet :=
  (byPriority serverCaps).findSome? fun serverCap =>
    (clientCaps.find? fun clientCap => clientCap.version = serverCap.version).map fun clientCap =>
      (intersectFlags clientCap serverCap).sanitizeCapabilitiesForConfirm

end CapabilitySet

namespace RawCapabilitySet

/-- A body that is just flags. -/
def readFlags (cap : UInt32 → CapabilitySet) : Reader (Option CapabilitySet) := do
  Reader.ensureSize 4
  return some (cap (← readLe32))

def readBody (version : UInt32) : Reader (Option CapabilitySet) :=
  if version = 0x80004 then readFlags .v8
  else if version = 0x80105 then readFlags .v8_1
  else if version = 0xa0002 then readFlags .v10
  else if version = 0xa0100 then do
    Reader.ensureSize 16
    let _reserved ← Reader.readSlice 16
    return some .v10_1
  else if version = 0xa0200 then readFlags .v10_2
  else if version = 0xa0301 then readFlags .v10_3
  else if version = 0xa0400 then readFlags .v10_4
  else if version = 0xa0502 then readFlags .v10_5
  else if version = 0xa0600 then readFlags .v10_6
  else if version = 0xa0601 then readFlags .v10_6Err
  else if version = 0xa0701 then readFlags .v10_7
  else return none

/-- `none` for a version that is not known. -/
def parsed (raw : RawCapabilitySet) : Except DecodeError (Option CapabilitySet) :=
  (readBody raw.version raw.data).map Prod.fst

end RawCapabilitySet

/-- What Drift offers. -/
def advertisedCaps : List CapabilitySet := [.v8_1 avc420Enabled, .v8 0]

def capsAdvertisePdu : GfxPdu := .capabilitiesAdvertise ⟨advertisedCaps.map CapabilitySet.toRaw⟩

structure CodecCapabilities where
  avc420 : Bool
  avc444 : Bool
  smallCache : Bool
  thinClient : Bool
  deriving DecidableEq

namespace CodecCapabilities

def default : CodecCapabilities := ⟨false, false, false, false⟩

def fromCapabilitySet : CapabilitySet → CodecCapabilities
  | .v8 flags =>
    ⟨false, false, hasFlag flags CapabilityFlags.smallCache,
      hasFlag flags CapabilityFlags.thinClient⟩
  | .v8_1 flags =>
    ⟨hasFlag flags avc420Enabled, false, hasFlag flags CapabilityFlags.smallCache,
      hasFlag flags CapabilityFlags.thinClient⟩
  | .v10 flags | .v10_2 flags =>
    ⟨!hasFlag flags avcDisabled, !hasFlag flags avcDisabled, hasFlag flags CapabilityFlags.smallCache, false⟩
  | .v10_1 => ⟨true, true, false, false⟩
  | .v10_3 flags => ⟨!hasFlag flags avcDisabled, !hasFlag flags avcDisabled, false, hasFlag flags avcThinClient⟩
  | .v10_4 flags | .v10_5 flags | .v10_6 flags | .v10_6Err flags | .v10_7 flags =>
    ⟨!hasFlag flags avcDisabled, !hasFlag flags avcDisabled, hasFlag flags CapabilityFlags.smallCache,
      hasFlag flags avcThinClient⟩

end CodecCapabilities

/-! ### Surfaces -/

structure Surface where
  id : UInt16
  width : UInt16
  height : UInt16
  pixelFormat : PixelFormat
  isMapped : Bool
  outputOriginX : UInt32
  outputOriginY : UInt32
  deriving DecidableEq

structure Surfaces where
  surfaces : List Surface
  nextSurfaceId : UInt16
  deriving DecidableEq

namespace Surfaces

def new : Surfaces := ⟨[], 0⟩

/-- That the number is free is only asserted in debug builds. -/
def allocateId (s : Surfaces) : UInt16 × Surfaces :=
  (s.nextSurfaceId, { s with nextSurfaceId := s.nextSurfaceId + 1 })

def insert (s : Surfaces) (surface : Surface) : Surfaces :=
  { s with surfaces := put Surface.id surface s.surfaces }

def get (s : Surfaces) (id : UInt16) : Option Surface := lookup Surface.id s.surfaces id

def remove (s : Surfaces) (id : UInt16) : Surfaces := { s with surfaces := erase Surface.id s.surfaces id }

def resetForReinit : Surfaces := ⟨[], 0⟩

end Surfaces

/-! ### Frames -/

def suspendFrameAckQueueDepth : UInt32 := 0xFFFFFFFF

structure FrameInfo where
  frameId : UInt32
  timestamp : Timestamp
  deriving DecidableEq

structure FrameTracker where
  unacknowledged : List FrameInfo
  clientQueueDepth : UInt32
  ackSuspended : Bool
  nextFrameId : UInt32
  maxInFlight : UInt32
  totalSent : Nat
  totalAcked : Nat
  deriving DecidableEq

namespace FrameTracker

def new : FrameTracker := ⟨[], 0, false, 0, 3, 0, 0⟩

/-- While the client is suspended, nothing would take the frame out again. -/
def beginFrame (t : FrameTracker) (timestamp : Timestamp) : UInt32 × FrameTracker :=
  let frameId := t.nextFrameId
  let unacknowledged :=
    if t.ackSuspended then t.unacknowledged else put FrameInfo.frameId ⟨frameId, timestamp⟩ t.unacknowledged
  (frameId,
    { t with nextFrameId := frameId + 1, unacknowledged := unacknowledged, totalSent := t.totalSent + 1 })

/-- The frame is taken out before the others are forgotten. -/
def acknowledge (t : FrameTracker) (frameId queueDepth : UInt32) : Option FrameInfo × FrameTracker :=
  let suspending := queueDepth = suspendFrameAckQueueDepth
  let info := lookup FrameInfo.frameId t.unacknowledged frameId
  (info,
    { t with
      ackSuspended := suspending
      clientQueueDepth := if suspending then 0 else queueDepth
      unacknowledged := if suspending then [] else erase FrameInfo.frameId t.unacknowledged frameId
      totalAcked := if info.isSome then t.totalAcked + 1 else t.totalAcked })

def inFlight (t : FrameTracker) : UInt32 := .ofNat t.unacknowledged.length

def shouldBackpressure (t : FrameTracker) : Bool := !t.ackSuspended && t.inFlight ≥ t.maxInFlight

def clear (t : FrameTracker) : FrameTracker :=
  { t with unacknowledged := [], clientQueueDepth := 0, ackSuspended := false }

end FrameTracker

/-! ### The server -/

inductive ServerState where
  | waitingForCapabilities
  | ready
  | resizing
  | closed
  deriving DecidableEq

structure Handler where
  preferredCapabilities : List CapabilitySet
  maxFramesInFlight : UInt32
  onCacheImportOffer : CacheImportOfferPdu → List UInt16

/-- A handler that decides nothing. -/
def Handler.default : Handler where
  preferredCapabilities :=
    [.v10_7 smallCache, .v10_6Err smallCache, .v10_6 smallCache, .v10_5 smallCache, .v10_4 smallCache, .v10_3 0,
      .v10_2 smallCache, .v10_1, .v10 smallCache, .v8_1 (avc420Enabled ||| smallCache), .v8 smallCache]
  maxFramesInFlight := 3
  onCacheImportOffer _ := []

/-- A region of an AVC420 picture. -/
structure Avc420Region where
  rectangle : ExclusiveRectangle
  quantizationParameter : UInt8
  quality : UInt8
  deriving DecidableEq

/-- `encode_avc420_bitmap_stream`; a quantization parameter of more than six bits panics. -/
def encodeAvc420BitmapStream (regions : List Avc420Region) (h264Data : Bytes) : Bytes :=
  [toLeBytes 4 regions.length, regions.flatMap fun r => r.rectangle.encode,
    regions.flatMap fun r => [r.quantizationParameter, r.quality], h264Data].flatten

/-- The values of `Encoding`, which takes any byte. -/
def Encoding.lumaAndChroma : UInt8 := 0x00

def Encoding.luma : UInt8 := 0x01

def Encoding.chroma : UInt8 := 0x02

structure Avc444BitmapStream where
  encoding : UInt8
  stream1 : Bytes
  stream2 : Option Bytes
  deriving DecidableEq

/-- `encode_avc444_bitmap_stream`, of encoded streams; a first stream of more than thirty bits of length panics. -/
def encodeAvc444BitmapStream (stream : Avc444BitmapStream) : Bytes :=
  let streamInfo : UInt32 := .ofNat stream.stream1.length ||| (stream.encoding.toUInt32 <<< 30)
  le32 streamInfo ++ stream.stream1 ++ stream.stream2.getD []

inductive MixedTilePayload where
  | clearCodec (destination : ExclusiveRectangle) (bitmapData : Bytes)
  | remoteFxProgressive (codecContextId : UInt32) (progressiveData : Bytes)
  | avc420 (regions : List Avc420Region) (h264Data : Bytes)
  deriving DecidableEq

structure GraphicsPipelineServer where
  state : ServerState
  negotiatedCaps : Option CapabilitySet
  codecCaps : CodecCapabilities
  surfaces : Surfaces
  frames : FrameTracker
  outputWidth : UInt16
  outputHeight : UInt16
  resetGraphicsSent : Bool
  outputQueue : List GfxPdu
  zgfxCompressor : Compressor
  compressionMode : CompressionMode

namespace GraphicsPipelineServer

def withCompression (h : Handler) (compressionMode : CompressionMode) : GraphicsPipelineServer where
  state := .waitingForCapabilities
  negotiatedCaps := none
  codecCaps := .default
  surfaces := .new
  frames := { FrameTracker.new with maxInFlight := h.maxFramesInFlight }
  outputWidth := 0
  outputHeight := 0
  resetGraphicsSent := false
  outputQueue := []
  zgfxCompressor := .new
  compressionMode := compressionMode

def push (s : GraphicsPipelineServer) (pdus : List GfxPdu) : GraphicsPipelineServer :=
  { s with outputQueue := s.outputQueue ++ pdus }

def setOutputDimensions (s : GraphicsPipelineServer) (width height : UInt16) : GraphicsPipelineServer :=
  { s with outputWidth := width, outputHeight := height }

/-- A ResetGraphics goes before the first surface. -/
def sendResetGraphics (s : GraphicsPipelineServer) (width height : UInt16) : GraphicsPipelineServer :=
  if s.resetGraphicsSent then s
  else
    let desktopWidth := if s.outputWidth > 0 then s.outputWidth else width
    let desktopHeight := if s.outputHeight > 0 then s.outputHeight else height
    { s with
      outputWidth := desktopWidth
      outputHeight := desktopHeight
      resetGraphicsSent := true }.push [.resetGraphics ⟨desktopWidth.toUInt32, desktopHeight.toUInt32, []⟩]

def createSurfaceWithFormat (s : GraphicsPipelineServer) (width height : UInt16) (pixelFormat : PixelFormat) :
    Option UInt16 × GraphicsPipelineServer :=
  if s.state ≠ .ready ∧ s.state ≠ .resizing then (none, s)
  else
    let s := s.sendResetGraphics width height
    let (surfaceId, surfaces) := s.surfaces.allocateId
    let surface : Surface := ⟨surfaceId, width, height, pixelFormat, false, 0, 0⟩
    (some surfaceId,
      { s with surfaces := surfaces.insert surface }.push
        [.createSurface ⟨surfaceId, width, height, pixelFormat⟩])

def deleteSurface (s : GraphicsPipelineServer) (surfaceId : UInt16) : Bool × GraphicsPipelineServer :=
  if (s.surfaces.get surfaceId).isNone then (false, s)
  else (true, { s with surfaces := s.surfaces.remove surfaceId }.push [.deleteSurface ⟨surfaceId⟩])

def mapSurfaceToOutput (s : GraphicsPipelineServer) (surfaceId : UInt16) (originX originY : UInt32) :
    Bool × GraphicsPipelineServer :=
  match s.surfaces.get surfaceId with
  | none => (false, s)
  | some surface =>
    let mapped := { surface with isMapped := true, outputOriginX := originX, outputOriginY := originY }
    (true,
      { s with surfaces := s.surfaces.insert mapped }.push [.mapSurfaceToOutput ⟨surfaceId, originX, originY⟩])

/-- The surfaces are deleted in the order of the table. -/
def resizeWithMonitors (s : GraphicsPipelineServer) (width height : UInt16) (monitors : List Monitor) :
    GraphicsPipelineServer :=
  if s.state ≠ .ready then s
  else if monitors.length > 16 then s
  else
    let s := { s with state := .resizing, outputWidth := width, outputHeight := height }
    let s := (s.surfaces.surfaces.map Surface.id).foldl (fun s id => (s.deleteSurface id).2) s
    { s with frames := s.frames.clear, resetGraphicsSent := true, state := .ready }.push
      [.resetGraphics ⟨width.toUInt32, height.toUInt32, monitors⟩]

def setMaxFramesInFlight (s : GraphicsPipelineServer) (max : UInt32) : GraphicsPipelineServer :=
  { s with frames := { s.frames with maxInFlight := max } }

def makeTimestamp (timestampMs : UInt32) : Timestamp where
  milliseconds := .ofNat (timestampMs.toNat % 1000)
  seconds := .ofNat (timestampMs.toNat / 1000 % 60)
  minutes := .ofNat (timestampMs.toNat / 60000 % 60)
  hours := .ofNat (timestampMs.toNat / 3600000 % 24)

/-- The smallest rectangle around the regions. -/
def computeDestRect (regions : List Avc420Region) (defaultWidth defaultHeight : UInt16) : ExclusiveRectangle :=
  match regions with
  | [] => ⟨0, 0, defaultWidth, defaultHeight⟩
  | first :: rest =>
    rest.foldl (fun r region =>
      ⟨min r.left region.rectangle.left, min r.top region.rectangle.top, max r.right region.rectangle.right,
        max r.bottom region.rectangle.bottom⟩) first.rectangle

/-- The smallest rectangle around both streams. -/
def computeDestRectForStreams (stream1Regions stream2Regions : List Avc420Region)
    (defaultWidth defaultHeight : UInt16) : ExclusiveRectangle :=
  let stream1 := computeDestRect stream1Regions defaultWidth defaultHeight
  let stream2 := computeDestRect stream2Regions defaultWidth defaultHeight
  ⟨min stream1.left stream2.left, min stream1.top stream2.top, max stream1.right stream2.right,
    max stream1.bottom stream2.bottom⟩

/-- What the `send_…_frame` functions share: the checks, and the PDUs of the surface between those of the frame. -/
def sendFrame (s : GraphicsPipelineServer) (accepts : Bool) (surfaceId : UInt16) (fits : Surface → Bool)
    (timestampMs : UInt32) (pictures : Surface → List GfxPdu) : Option UInt32 × GraphicsPipelineServer :=
  if s.state ≠ .ready ∨ !accepts ∨ s.frames.shouldBackpressure then (none, s)
  else
    match s.surfaces.get surfaceId with
    | none => (none, s)
    | some surface =>
      if !fits surface then (none, s)
      else
        let timestamp := makeTimestamp timestampMs
        let (frameId, frames) := s.frames.beginFrame timestamp
        (some frameId,
          { s with frames := frames }.push
            ([GfxPdu.startFrame ⟨timestamp, frameId⟩] ++ pictures surface ++ [GfxPdu.endFrame ⟨frameId⟩]))

def wireToSurface1 (surfaceId : UInt16) (surface : Surface) (codecId : Codec1Type)
    (destinationRectangle : ExclusiveRectangle) (bitmapData : Bytes) : GfxPdu :=
  .wireToSurface1 ⟨surfaceId, codecId, surface.pixelFormat, destinationRectangle, bitmapData⟩

def avc420Picture (surfaceId : UInt16) (surface : Surface) (regions : List Avc420Region) (h264Data : Bytes) :
    GfxPdu :=
  wireToSurface1 surfaceId surface .avc420 (computeDestRect regions surface.width surface.height)
    (encodeAvc420BitmapStream regions h264Data)

def avc444Picture (codecId : Codec1Type) (surfaceId : UInt16) (surface : Surface) (encoding : UInt8)
    (stream1Data : Bytes) (stream1Regions : List Avc420Region) (stream2Data : Option Bytes)
    (stream2Regions : Option (List Avc420Region)) : GfxPdu :=
  let stream2 :=
    if encoding = Encoding.lumaAndChroma then
      stream2Data.bind fun data => stream2Regions.map fun regions => encodeAvc420BitmapStream regions data
    else none
  let targetRect :=
    match stream2Regions with
    | some regions => computeDestRectForStreams stream1Regions regions surface.width surface.height
    | none => computeDestRect stream1Regions surface.width surface.height
  wireToSurface1 surfaceId surface codecId targetRect
    (encodeAvc444BitmapStream ⟨encoding, encodeAvc420BitmapStream stream1Regions stream1Data, stream2⟩)

def progressivePicture (surfaceId : UInt16) (surface : Surface) (codecContextId : UInt32)
    (progressiveData : Bytes) : GfxPdu :=
  .wireToSurface2 ⟨surfaceId, codecContextId, surface.pixelFormat, progressiveData⟩

def sendAvc420Frame (s : GraphicsPipelineServer) (surfaceId : UInt16) (h264Data : Bytes)
    (regions : List Avc420Region) (timestampMs : UInt32) : Option UInt32 × GraphicsPipelineServer :=
  s.sendFrame s.codecCaps.avc420 surfaceId (fun _ => true) timestampMs
    fun surface => [avc420Picture surfaceId surface regions h264Data]

/-- The second stream is there exactly for luma and chroma. -/
def validStreamShape (encoding : UInt8) (stream2Data : Option Bytes)
    (stream2Regions : Option (List Avc420Region)) : Bool :=
  if encoding = Encoding.lumaAndChroma then stream2Data.isSome && stream2Regions.isSome
  else if encoding = Encoding.luma ∨ encoding = Encoding.chroma then
    stream2Data.isNone && stream2Regions.isNone
  else false

def sendAvc444FrameWithEncoding (s : GraphicsPipelineServer) (codecId : Codec1Type) (surfaceId : UInt16)
    (encoding : UInt8) (stream1Data : Bytes) (stream1Regions : List Avc420Region) (stream2Data : Option Bytes)
    (stream2Regions : Option (List Avc420Region)) (timestampMs : UInt32) :
    Option UInt32 × GraphicsPipelineServer :=
  s.sendFrame (validStreamShape encoding stream2Data stream2Regions && s.codecCaps.avc444) surfaceId
    (fun _ => true) timestampMs fun surface =>
      [avc444Picture codecId surfaceId surface encoding stream1Data stream1Regions stream2Data stream2Regions]

def sendAvc444Frame (s : GraphicsPipelineServer) (surfaceId : UInt16) (lumaData : Bytes)
    (lumaRegions : List Avc420Region) (chromaData : Option Bytes) (chromaRegions : Option (List Avc420Region))
    (timestampMs : UInt32) : Option UInt32 × GraphicsPipelineServer :=
  match chromaData, chromaRegions with
  | some chromaData, some chromaRegions =>
    s.sendAvc444FrameWithEncoding .avc444 surfaceId Encoding.lumaAndChroma lumaData lumaRegions (some chromaData)
      (some chromaRegions) timestampMs
  | _, _ =>
    s.sendAvc444FrameWithEncoding .avc444 surfaceId Encoding.luma lumaData lumaRegions none none timestampMs

def sendAvc444v2Frame (s : GraphicsPipelineServer) (surfaceId : UInt16) (encoding : UInt8) (stream1Data : Bytes)
    (stream1Regions : List Avc420Region) (stream2Data : Option Bytes)
    (stream2Regions : Option (List Avc420Region)) (timestampMs : UInt32) :
    Option UInt32 × GraphicsPipelineServer :=
  s.sendAvc444FrameWithEncoding .avc444v2 surfaceId encoding stream1Data stream1Regions stream2Data stream2Regions
    timestampMs

def sendPlanarFrame (s : GraphicsPipelineServer) (surfaceId : UInt16) (planarData : Bytes)
    (destWidth destHeight : UInt16) (timestampMs : UInt32) : Option UInt32 × GraphicsPipelineServer :=
  s.sendFrame true surfaceId (fun surface => destWidth ≤ surface.width ∧ destHeight ≤ surface.height)
    timestampMs fun surface => [wireToSurface1 surfaceId surface .planar ⟨0, 0, destWidth, destHeight⟩ planarData]

def sendUncompressedFrame (s : GraphicsPipelineServer) (surfaceId : UInt16) (bitmapData : Bytes)
    (destWidth destHeight : UInt16) (timestampMs : UInt32) : Option UInt32 × GraphicsPipelineServer :=
  s.sendFrame true surfaceId (fun _ => true) timestampMs
    fun surface => [wireToSurface1 surfaceId surface .uncompressed ⟨0, 0, destWidth, destHeight⟩ bitmapData]

def sendRemotefxProgressiveFrame (s : GraphicsPipelineServer) (surfaceId : UInt16) (codecContextId : UInt32)
    (progressiveData : Bytes) (timestampMs : UInt32) : Option UInt32 × GraphicsPipelineServer :=
  s.sendFrame true surfaceId (fun _ => true) timestampMs
    fun surface => [progressivePicture surfaceId surface codecContextId progressiveData]

def sendClearcodecFrame (s : GraphicsPipelineServer) (surfaceId : UInt16)
    (destinationRectangle : ExclusiveRectangle) (bitmapData : Bytes) (timestampMs : UInt32) :
    Option UInt32 × GraphicsPipelineServer :=
  s.sendFrame true surfaceId (fun _ => true) timestampMs
    fun surface => [wireToSurface1 surfaceId surface .clearCodec destinationRectangle bitmapData]

def mixedTile (surfaceId : UInt16) (surface : Surface) : MixedTilePayload → GfxPdu
  | .clearCodec destination bitmapData => wireToSurface1 surfaceId surface .clearCodec destination bitmapData
  | .remoteFxProgressive codecContextId progressiveData =>
    progressivePicture surfaceId surface codecContextId progressiveData
  | .avc420 regions h264Data => avc420Picture surfaceId surface regions h264Data

def sendMixedFrame (s : GraphicsPipelineServer) (surfaceId : UInt16) (tiles : List MixedTilePayload)
    (timestampMs : UInt32) : Option UInt32 × GraphicsPipelineServer :=
  s.sendFrame (!tiles.isEmpty) surfaceId (fun _ => true) timestampMs
    fun surface => tiles.map (mixedTile surfaceId surface)

/-! ### Messages -/

/-- A client that advertises again has forgotten its surfaces. -/
def reinitialize (s : GraphicsPipelineServer) : GraphicsPipelineServer :=
  if s.state = .ready then
    { s with surfaces := .resetForReinit, frames := s.frames.clear, resetGraphicsSent := false }
  else s

/-- The set that is confirmed to a client. -/
def confirmedFor (h : Handler) (clientCaps : List CapabilitySet) : CapabilitySet :=
  ((CapabilitySet.negotiateCapabilities clientCaps h.preferredCapabilities).getD
    ((CapabilitySet.byPriority clientCaps).headD (.v8 0))).sanitizeCapabilitiesForConfirm

/-- Sets of unknown versions are passed over, and one that is malformed ends the negotiation. -/
def handleCapabilitiesAdvertise (h : Handler) (s : GraphicsPipelineServer) (pdu : CapabilitiesAdvertisePdu) :
    GraphicsPipelineServer :=
  let s := s.reinitialize
  match pdu.sets.mapM RawCapabilitySet.parsed with
  | .error _ => s
  | .ok parsed =>
    let negotiated := confirmedFor h (parsed.filterMap id)
    { s with
      codecCaps := .fromCapabilitySet negotiated
      state := .ready
      negotiatedCaps := some negotiated }.push [.capabilitiesConfirm negotiated.toRaw]

def handleFrameAcknowledge (s : GraphicsPipelineServer) (pdu : FrameAcknowledgePdu) : GraphicsPipelineServer :=
  { s with frames := (s.frames.acknowledge pdu.frameId pdu.queueDepth.toU32).2 }

def handleCacheImportOffer (h : Handler) (s : GraphicsPipelineServer) (pdu : CacheImportOfferPdu) :
    GraphicsPipelineServer :=
  s.push [.cacheImportReply ⟨h.onCacheImportOffer pdu⟩]

def handlePdu (h : Handler) (s : GraphicsPipelineServer) : GfxPdu → GraphicsPipelineServer
  | .capabilitiesAdvertise pdu => s.handleCapabilitiesAdvertise h pdu
  | .frameAcknowledge pdu => s.handleFrameAcknowledge pdu
  | .cacheImportOffer pdu => s.handleCacheImportOffer h pdu
  | _ => s

/-- The PDUs as messages, and the compressor after them. -/
def wrapAll (mode : CompressionMode) : List GfxPdu → Compressor → Option (List Bytes × Compressor)
  | [], c => some ([], c)
  | pdu :: pdus, c => do
    let pduBytes ← pdu.encode.toOption
    let (wrapped, c) := compressAndWrapEgfx pduBytes c mode
    let wrapped ← wrapped
    let (rest, c) ← wrapAll mode pdus c
    return (wrapped :: rest, c)

/-- `none` where a PDU is not encoded and the server panics. -/
def drainOutput (s : GraphicsPipelineServer) : Option (List Bytes × GraphicsPipelineServer) := do
  let (messages, c) ← wrapAll s.compressionMode s.outputQueue s.zgfxCompressor
  return (messages, { s with outputQueue := [], zgfxCompressor := c })

/-- What follows the PDU in the payload is not looked at. -/
def process (h : Handler) (s : GraphicsPipelineServer) (payload : Bytes) :
    Except DecodeError (Option (List Bytes × GraphicsPipelineServer)) := do
  let (pdu, _) ← GfxPdu.decode payload
  return (s.handlePdu h pdu).drainOutput

end GraphicsPipelineServer

end Drift.Egfx
