import Drift.Core.Reader
import Drift.Gfx.Client

/-!
# PDUs of the graphics channel

Every PDU is behind a header with its command and its length. The encoders and decoders of all of them, also of
those that the client never sends or never expects.
-/

namespace Drift.Egfx

open Pdu
open Gfx (Codec1Type PixelFormat)

/-! ### Fields -/

def le16 (value : UInt16) : Bytes := toLeBytes 2 value.toNat

def le32 (value : UInt32) : Bytes := toLeBytes 4 value.toNat

def le64 (value : UInt64) : Bytes := toLeBytes 8 value.toNat

def readLe16 : Reader UInt16 := do return .ofNat (← Reader.readU16)

def readLe32 : Reader UInt32 := do return .ofNat (← Reader.readU32)

def readLe64 : Reader UInt64 := do return .ofNat (ofLeBytes (← Reader.readSlice 8))

/-- `cast_length!`, and the length as it is written in `width` bytes. -/
def castLength (field : String) (width length : Nat) : Except EncodeError Bytes :=
  if length < 256 ^ width then .ok (toLeBytes width length)
  else .error (.invalidField field "out of range integral type conversion")

/-- `iter::repeat_with`, of a number of parts. -/
def repeatWith {α : Type} (part : Reader α) : Nat → Reader (List α)
  | 0 => return []
  | count + 1 => do
    let a ← part
    let as ← repeatWith part count
    return a :: as

def codec1ToU16 : Codec1Type → UInt16
  | .uncompressed => 0x0
  | .remoteFx => 0x3
  | .clearCodec => 0x8
  | .planar => 0xa
  | .avc420 => 0xb
  | .alpha => 0xc
  | .avc444 => 0xe
  | .avc444v2 => 0xf

def codec1Types : List Codec1Type :=
  [.uncompressed, .remoteFx, .clearCodec, .planar, .avc420, .alpha, .avc444, .avc444v2]

/-- `TryFrom<u16>`. -/
def codec1OfU16 (value : UInt16) : Except DecodeError Codec1Type :=
  match codec1Types.find? (codec1ToU16 · = value) with
  | some codec => .ok codec
  | none => .error (.invalidField "Codec1Type" "invalid codec type")

/-- `Codec2Type`, of which there is one. -/
def remoteFxProgressive : UInt16 := 0x9

/-- `TryFrom<u16>`. -/
def codec2OfU16 (value : UInt16) : Except DecodeError Unit :=
  if value = remoteFxProgressive then .ok () else .error (.invalidField "Codec2Type" "invalid codec type")

def pixelFormatToU8 : PixelFormat → UInt8
  | .xRgb => 0x20
  | .aRgb => 0x21

/-- `TryFrom<u8>`. -/
def pixelFormatOfU8 (value : UInt8) : Except DecodeError PixelFormat :=
  if value = 0x20 then .ok .xRgb else if value = 0x21 then .ok .aRgb
  else .error (.invalidField "PixelFormat" "invalid pixel format")

def readCodec1 : Reader Codec1Type := do StateT.lift (codec1OfU16 (← readLe16))

def readPixelFormat : Reader PixelFormat := do StateT.lift (pixelFormatOfU8 (← Reader.readU8))

/-- `RDPGFX_POINT16`. -/
structure Point where
  x : UInt16
  y : UInt16
  deriving DecidableEq

namespace Point

def encode (p : Point) : Bytes := [le16 p.x, le16 p.y].flatten

def decode : Reader Point := do
  Reader.ensureSize 4
  let x ← readLe16
  let y ← readLe16
  return ⟨x, y⟩

end Point

/-- `RDPGFX_COLOR32`. -/
structure Color where
  b : UInt8
  g : UInt8
  r : UInt8
  xa : UInt8
  deriving DecidableEq

namespace Color

def encode (c : Color) : Bytes := [[c.b], [c.g], [c.r], [c.xa]].flatten

def decode : Reader Color := do
  Reader.ensureSize 4
  let b ← Reader.readU8
  let g ← Reader.readU8
  let r ← Reader.readU8
  let xa ← Reader.readU8
  return ⟨b, g, r, xa⟩

end Color

structure ExclusiveRectangle where
  left : UInt16
  top : UInt16
  right : UInt16
  bottom : UInt16
  deriving DecidableEq

namespace ExclusiveRectangle

def encode (r : ExclusiveRectangle) : Bytes := [le16 r.left, le16 r.top, le16 r.right, le16 r.bottom].flatten

def decode : Reader ExclusiveRectangle := do
  Reader.ensureSize 8
  let left ← readLe16
  let top ← readLe16
  let right ← readLe16
  let bottom ← readLe16
  return ⟨left, top, right, bottom⟩

end ExclusiveRectangle

/-- `gcc::Monitor`; the edges are two's complement. -/
structure Monitor where
  left : Int32
  top : Int32
  right : Int32
  bottom : Int32
  flags : UInt32
  deriving DecidableEq

namespace Monitor

def encode (m : Monitor) : Bytes :=
  [le32 m.left.toUInt32, le32 m.top.toUInt32, le32 m.right.toUInt32, le32 m.bottom.toUInt32, le32 m.flags].flatten

def decode : Reader Monitor := do
  Reader.ensureSize 20
  let left ← readLe32
  let top ← readLe32
  let right ← readLe32
  let bottom ← readLe32
  let flags ← readLe32
  return ⟨left.toInt32, top.toInt32, right.toInt32, bottom.toInt32, flags⟩

end Monitor

/-! ### Pictures -/

structure WireToSurface1Pdu where
  surfaceId : UInt16
  codecId : Codec1Type
  pixelFormat : PixelFormat
  destinationRectangle : ExclusiveRectangle
  bitmapData : Bytes
  deriving DecidableEq

namespace WireToSurface1Pdu

def encode (pdu : WireToSurface1Pdu) : Except EncodeError Bytes := do
  let bitmapDataLen ← castLength "BitmapDataLen" 4 pdu.bitmapData.length
  return [le16 pdu.surfaceId, le16 (codec1ToU16 pdu.codecId), [pixelFormatToU8 pdu.pixelFormat],
    pdu.destinationRectangle.encode, bitmapDataLen, pdu.bitmapData].flatten

def decode : Reader WireToSurface1Pdu := do
  Reader.ensureSize 17
  let surfaceId ← readLe16
  let codecId ← readCodec1
  let pixelFormat ← readPixelFormat
  let destinationRectangle ← ExclusiveRectangle.decode
  let bitmapDataLength ← Reader.readU32
  Reader.ensureSize bitmapDataLength
  let bitmapData ← Reader.readSlice bitmapDataLength
  return ⟨surfaceId, codecId, pixelFormat, destinationRectangle, bitmapData⟩

end WireToSurface1Pdu

structure WireToSurface2Pdu where
  surfaceId : UInt16
  codecContextId : UInt32
  pixelFormat : PixelFormat
  bitmapData : Bytes
  deriving DecidableEq

namespace WireToSurface2Pdu

def encode (pdu : WireToSurface2Pdu) : Except EncodeError Bytes := do
  let bitmapDataLen ← castLength "BitmapDataLen" 4 pdu.bitmapData.length
  return [le16 pdu.surfaceId, le16 remoteFxProgressive, le32 pdu.codecContextId,
    [pixelFormatToU8 pdu.pixelFormat], bitmapDataLen, pdu.bitmapData].flatten

def decode : Reader WireToSurface2Pdu := do
  Reader.ensureSize 13
  let surfaceId ← readLe16
  let codecId ← readLe16
  StateT.lift (codec2OfU16 codecId)
  let codecContextId ← readLe32
  let pixelFormat ← readPixelFormat
  let bitmapDataLength ← Reader.readU32
  Reader.ensureSize bitmapDataLength
  let bitmapData ← Reader.readSlice bitmapDataLength
  return ⟨surfaceId, codecContextId, pixelFormat, bitmapData⟩

end WireToSurface2Pdu

structure DeleteEncodingContextPdu where
  surfaceId : UInt16
  codecContextId : UInt32
  deriving DecidableEq

namespace DeleteEncodingContextPdu

def encode (pdu : DeleteEncodingContextPdu) : Bytes := [le16 pdu.surfaceId, le32 pdu.codecContextId].flatten

def decode : Reader DeleteEncodingContextPdu := do
  Reader.ensureSize 6
  let surfaceId ← readLe16
  let codecContextId ← readLe32
  return ⟨surfaceId, codecContextId⟩

end DeleteEncodingContextPdu

structure SolidFillPdu where
  surfaceId : UInt16
  fillPixel : Color
  rectangles : List ExclusiveRectangle
  deriving DecidableEq

namespace SolidFillPdu

def encode (pdu : SolidFillPdu) : Except EncodeError Bytes := do
  let count ← castLength "nRect" 2 pdu.rectangles.length
  return [le16 pdu.surfaceId, pdu.fillPixel.encode, count,
    pdu.rectangles.flatMap ExclusiveRectangle.encode].flatten

def decode : Reader SolidFillPdu := do
  Reader.ensureSize 8
  let surfaceId ← readLe16
  let fillPixel ← Color.decode
  let count ← Reader.readU16
  Reader.ensureSize (count * 8)
  let rectangles ← repeatWith ExclusiveRectangle.decode count
  return ⟨surfaceId, fillPixel, rectangles⟩

end SolidFillPdu

structure SurfaceToSurfacePdu where
  sourceSurfaceId : UInt16
  destinationSurfaceId : UInt16
  sourceRectangle : ExclusiveRectangle
  destinationPoints : List Point
  deriving DecidableEq

namespace SurfaceToSurfacePdu

def encode (pdu : SurfaceToSurfacePdu) : Except EncodeError Bytes := do
  let count ← castLength "DestinationPoints" 2 pdu.destinationPoints.length
  return [le16 pdu.sourceSurfaceId, le16 pdu.destinationSurfaceId, pdu.sourceRectangle.encode, count,
    pdu.destinationPoints.flatMap Point.encode].flatten

def decode : Reader SurfaceToSurfacePdu := do
  Reader.ensureSize 14
  let sourceSurfaceId ← readLe16
  let destinationSurfaceId ← readLe16
  let sourceRectangle ← ExclusiveRectangle.decode
  let count ← Reader.readU16
  let destinationPoints ← repeatWith Point.decode count
  return ⟨sourceSurfaceId, destinationSurfaceId, sourceRectangle, destinationPoints⟩

end SurfaceToSurfacePdu

/-! ### The cache -/

structure SurfaceToCachePdu where
  surfaceId : UInt16
  cacheKey : UInt64
  cacheSlot : UInt16
  sourceRectangle : ExclusiveRectangle
  deriving DecidableEq

namespace SurfaceToCachePdu

def encode (pdu : SurfaceToCachePdu) : Bytes :=
  [le16 pdu.surfaceId, le64 pdu.cacheKey, le16 pdu.cacheSlot, pdu.sourceRectangle.encode].flatten

def decode : Reader SurfaceToCachePdu := do
  Reader.ensureSize 20
  let surfaceId ← readLe16
  let cacheKey ← readLe64
  let cacheSlot ← readLe16
  let sourceRectangle ← ExclusiveRectangle.decode
  return ⟨surfaceId, cacheKey, cacheSlot, sourceRectangle⟩

end SurfaceToCachePdu

structure CacheToSurfacePdu where
  cacheSlot : UInt16
  surfaceId : UInt16
  destinationPoints : List Point
  deriving DecidableEq

namespace CacheToSurfacePdu

def encode (pdu : CacheToSurfacePdu) : Except EncodeError Bytes := do
  let count ← castLength "npoints" 2 pdu.destinationPoints.length
  return [le16 pdu.cacheSlot, le16 pdu.surfaceId, count, pdu.destinationPoints.flatMap Point.encode].flatten

def decode : Reader CacheToSurfacePdu := do
  Reader.ensureSize 6
  let cacheSlot ← readLe16
  let surfaceId ← readLe16
  let count ← Reader.readU16
  let destinationPoints ← repeatWith Point.decode count
  return ⟨cacheSlot, surfaceId, destinationPoints⟩

end CacheToSurfacePdu

structure EvictCacheEntryPdu where
  cacheSlot : UInt16
  deriving DecidableEq

namespace EvictCacheEntryPdu

def encode (pdu : EvictCacheEntryPdu) : Bytes := [le16 pdu.cacheSlot].flatten

def decode : Reader EvictCacheEntryPdu := do
  Reader.ensureSize 2
  return ⟨← readLe16⟩

end EvictCacheEntryPdu

structure CacheEntryMetadata where
  cacheKey : UInt64
  bitmapLen : UInt32
  deriving DecidableEq

namespace CacheEntryMetadata

def encode (e : CacheEntryMetadata) : Bytes := [le64 e.cacheKey, le32 e.bitmapLen].flatten

def decode : Reader CacheEntryMetadata := do
  Reader.ensureSize 12
  let cacheKey ← readLe64
  let bitmapLen ← readLe32
  return ⟨cacheKey, bitmapLen⟩

end CacheEntryMetadata

structure CacheImportOfferPdu where
  cacheEntries : List CacheEntryMetadata
  deriving DecidableEq

namespace CacheImportOfferPdu

def encode (pdu : CacheImportOfferPdu) : Except EncodeError Bytes := do
  let count ← castLength "Count" 2 pdu.cacheEntries.length
  return [count, pdu.cacheEntries.flatMap CacheEntryMetadata.encode].flatten

def decode : Reader CacheImportOfferPdu := do
  Reader.ensureSize 2
  let count ← Reader.readU16
  let cacheEntries ← repeatWith CacheEntryMetadata.decode count
  return ⟨cacheEntries⟩

end CacheImportOfferPdu

structure CacheImportReplyPdu where
  cacheSlots : List UInt16
  deriving DecidableEq

namespace CacheImportReplyPdu

def encode (pdu : CacheImportReplyPdu) : Except EncodeError Bytes := do
  let count ← castLength "Count" 2 pdu.cacheSlots.length
  return [count, pdu.cacheSlots.flatMap le16].flatten

def decode : Reader CacheImportReplyPdu := do
  Reader.ensureSize 2
  let count ← Reader.readU16
  Reader.ensureSize (2 * count)
  let cacheSlots ← repeatWith readLe16 count
  return ⟨cacheSlots⟩

end CacheImportReplyPdu

/-! ### Surfaces -/

structure CreateSurfacePdu where
  surfaceId : UInt16
  width : UInt16
  height : UInt16
  pixelFormat : PixelFormat
  deriving DecidableEq

namespace CreateSurfacePdu

def encode (pdu : CreateSurfacePdu) : Bytes :=
  [le16 pdu.surfaceId, le16 pdu.width, le16 pdu.height, [pixelFormatToU8 pdu.pixelFormat]].flatten

def decode : Reader CreateSurfacePdu := do
  Reader.ensureSize 7
  let surfaceId ← readLe16
  let width ← readLe16
  let height ← readLe16
  let pixelFormat ← readPixelFormat
  return ⟨surfaceId, width, height, pixelFormat⟩

end CreateSurfacePdu

structure DeleteSurfacePdu where
  surfaceId : UInt16
  deriving DecidableEq

namespace DeleteSurfacePdu

def encode (pdu : DeleteSurfacePdu) : Bytes := [le16 pdu.surfaceId].flatten

def decode : Reader DeleteSurfacePdu := do
  Reader.ensureSize 2
  return ⟨← readLe16⟩

end DeleteSurfacePdu

structure ResetGraphicsPdu where
  width : UInt32
  height : UInt32
  monitors : List Monitor
  deriving DecidableEq

namespace ResetGraphicsPdu

def maxWidthHeight : Nat := 32766

def monitorCountMax : Nat := 16

def pduSize : Nat := 340 - 8

/-- Truncated, where the source would underflow. -/
def paddingSize (pdu : ResetGraphicsPdu) : Nat := pduSize - 12 - pdu.monitors.length * 20

def encode (pdu : ResetGraphicsPdu) : Except EncodeError Bytes := do
  let count ← castLength "nMonitors" 4 pdu.monitors.length
  return [le32 pdu.width, le32 pdu.height, count, pdu.monitors.flatMap Monitor.encode,
    List.replicate pdu.paddingSize 0].flatten

def decode : Reader ResetGraphicsPdu := do
  Reader.ensureSize 12
  let width ← readLe32
  if width.toNat > maxWidthHeight then Reader.fail (.invalidField "width" "invalid reset graphics width")
  else
    let height ← readLe32
    if height.toNat > maxWidthHeight then Reader.fail (.invalidField "height" "invalid reset graphics height")
    else
      let monitorCount ← Reader.readU32
      if monitorCount > monitorCountMax then
        Reader.fail (.invalidField "monitor_count" "invalid reset graphics monitor count")
      else
        let monitors ← repeatWith Monitor.decode monitorCount
        let pdu : ResetGraphicsPdu := ⟨width, height, monitors⟩
        let _padding ← Reader.readSlice pdu.paddingSize
        return pdu

end ResetGraphicsPdu

structure MapSurfaceToOutputPdu where
  surfaceId : UInt16
  outputOriginX : UInt32
  outputOriginY : UInt32
  deriving DecidableEq

namespace MapSurfaceToOutputPdu

def encode (pdu : MapSurfaceToOutputPdu) : Bytes :=
  [le16 pdu.surfaceId, le16 0, le32 pdu.outputOriginX, le32 pdu.outputOriginY].flatten

def decode : Reader MapSurfaceToOutputPdu := do
  Reader.ensureSize 12
  let surfaceId ← readLe16
  let _reserved ← readLe16
  let outputOriginX ← readLe32
  let outputOriginY ← readLe32
  return ⟨surfaceId, outputOriginX, outputOriginY⟩

end MapSurfaceToOutputPdu

structure MapSurfaceToWindowPdu where
  surfaceId : UInt16
  windowId : UInt64
  mappedWidth : UInt32
  mappedHeight : UInt32
  deriving DecidableEq

namespace MapSurfaceToWindowPdu

def encode (pdu : MapSurfaceToWindowPdu) : Bytes :=
  [le16 pdu.surfaceId, le64 pdu.windowId, le32 pdu.mappedWidth, le32 pdu.mappedHeight].flatten

def decode : Reader MapSurfaceToWindowPdu := do
  Reader.ensureSize 18
  let surfaceId ← readLe16
  let windowId ← readLe64
  let mappedWidth ← readLe32
  let mappedHeight ← readLe32
  return ⟨surfaceId, windowId, mappedWidth, mappedHeight⟩

end MapSurfaceToWindowPdu

structure MapSurfaceToScaledOutputPdu where
  surfaceId : UInt16
  outputOriginX : UInt32
  outputOriginY : UInt32
  targetWidth : UInt32
  targetHeight : UInt32
  deriving DecidableEq

namespace MapSurfaceToScaledOutputPdu

def encode (pdu : MapSurfaceToScaledOutputPdu) : Bytes :=
  [le16 pdu.surfaceId, le16 0, le32 pdu.outputOriginX, le32 pdu.outputOriginY, le32 pdu.targetWidth,
    le32 pdu.targetHeight].flatten

def decode : Reader MapSurfaceToScaledOutputPdu := do
  Reader.ensureSize 20
  let surfaceId ← readLe16
  let _reserved ← readLe16
  let outputOriginX ← readLe32
  let outputOriginY ← readLe32
  let targetWidth ← readLe32
  let targetHeight ← readLe32
  return ⟨surfaceId, outputOriginX, outputOriginY, targetWidth, targetHeight⟩

end MapSurfaceToScaledOutputPdu

structure MapSurfaceToScaledWindowPdu where
  surfaceId : UInt16
  windowId : UInt64
  mappedWidth : UInt32
  mappedHeight : UInt32
  targetWidth : UInt32
  targetHeight : UInt32
  deriving DecidableEq

namespace MapSurfaceToScaledWindowPdu

def encode (pdu : MapSurfaceToScaledWindowPdu) : Bytes :=
  [le16 pdu.surfaceId, le64 pdu.windowId, le32 pdu.mappedWidth, le32 pdu.mappedHeight, le32 pdu.targetWidth,
    le32 pdu.targetHeight].flatten

def decode : Reader MapSurfaceToScaledWindowPdu := do
  Reader.ensureSize 26
  let surfaceId ← readLe16
  let windowId ← readLe64
  let mappedWidth ← readLe32
  let mappedHeight ← readLe32
  let targetWidth ← readLe32
  let targetHeight ← readLe32
  return ⟨surfaceId, windowId, mappedWidth, mappedHeight, targetWidth, targetHeight⟩

end MapSurfaceToScaledWindowPdu

/-! ### Frames -/

structure Timestamp where
  milliseconds : UInt16
  seconds : UInt8
  minutes : UInt8
  hours : UInt16
  deriving DecidableEq

namespace Timestamp

/-- The four fields in one number; `set_bits` panics on a value that does not fit. -/
def toNat (t : Timestamp) : Nat :=
  t.milliseconds.toNat + t.seconds.toNat * 2 ^ 10 + t.minutes.toNat * 2 ^ 16 + t.hours.toNat * 2 ^ 22

def encode (t : Timestamp) : Bytes := toLeBytes 4 t.toNat

/-- `get_bits`. -/
def ofNatBits (timestamp : Nat) : Timestamp where
  milliseconds := .ofNat (timestamp % 2 ^ 10)
  seconds := .ofNat (timestamp / 2 ^ 10 % 2 ^ 6)
  minutes := .ofNat (timestamp / 2 ^ 16 % 2 ^ 6)
  hours := .ofNat (timestamp / 2 ^ 22 % 2 ^ 10)

def decode : Reader Timestamp := do
  Reader.ensureSize 4
  return ofNatBits (← Reader.readU32)

end Timestamp

structure StartFramePdu where
  timestamp : Timestamp
  frameId : UInt32
  deriving DecidableEq

namespace StartFramePdu

def encode (pdu : StartFramePdu) : Bytes := [pdu.timestamp.encode, le32 pdu.frameId].flatten

def decode : Reader StartFramePdu := do
  Reader.ensureSize 8
  let timestamp ← Timestamp.decode
  let frameId ← readLe32
  return ⟨timestamp, frameId⟩

end StartFramePdu

structure EndFramePdu where
  frameId : UInt32
  deriving DecidableEq

namespace EndFramePdu

def encode (pdu : EndFramePdu) : Bytes := [le32 pdu.frameId].flatten

def decode : Reader EndFramePdu := do
  Reader.ensureSize 4
  return ⟨← readLe32⟩

end EndFramePdu

inductive QueueDepth where
  | unavailable
  | availableBytes (bytes : UInt32)
  | suspend
  deriving DecidableEq

namespace QueueDepth

def fromU32 (v : UInt32) : QueueDepth :=
  if v = 0 then unavailable else if v = 0xFFFFFFFF then suspend else availableBytes v

def toU32 : QueueDepth → UInt32
  | unavailable => 0
  | availableBytes v => v
  | suspend => 0xFFFFFFFF

end QueueDepth

structure FrameAcknowledgePdu where
  queueDepth : QueueDepth
  frameId : UInt32
  totalFramesDecoded : UInt32
  deriving DecidableEq

namespace FrameAcknowledgePdu

def encode (pdu : FrameAcknowledgePdu) : Bytes :=
  [le32 pdu.queueDepth.toU32, le32 pdu.frameId, le32 pdu.totalFramesDecoded].flatten

def decode : Reader FrameAcknowledgePdu := do
  Reader.ensureSize 12
  let queueDepth ← readLe32
  let frameId ← readLe32
  let totalFramesDecoded ← readLe32
  return ⟨.fromU32 queueDepth, frameId, totalFramesDecoded⟩

end FrameAcknowledgePdu

structure QoeFrameAcknowledgePdu where
  frameId : UInt32
  timestamp : UInt32
  timeDiffSe : UInt16
  timeDiffDr : UInt16
  deriving DecidableEq

namespace QoeFrameAcknowledgePdu

def encode (pdu : QoeFrameAcknowledgePdu) : Bytes :=
  [le32 pdu.frameId, le32 pdu.timestamp, le16 pdu.timeDiffSe, le16 pdu.timeDiffDr].flatten

def decode : Reader QoeFrameAcknowledgePdu := do
  Reader.ensureSize 12
  let frameId ← readLe32
  let timestamp ← readLe32
  let timeDiffSe ← readLe16
  let timeDiffDr ← readLe16
  return ⟨frameId, timestamp, timeDiffSe, timeDiffDr⟩

end QoeFrameAcknowledgePdu

/-! ### Capabilities -/

structure RawCapabilitySet where
  version : UInt32
  data : Bytes
  deriving DecidableEq

namespace RawCapabilitySet

def encode (s : RawCapabilitySet) : Except EncodeError Bytes := do
  let dataLength ← castLength "dataLength" 4 s.data.length
  return [le32 s.version, dataLength, s.data].flatten

def decode : Reader RawCapabilitySet := do
  Reader.ensureSize 8
  let version ← readLe32
  let dataLength ← Reader.readU32
  Reader.ensureSize dataLength
  let data ← Reader.readSlice dataLength
  return ⟨version, data⟩

end RawCapabilitySet

structure CapabilitiesAdvertisePdu where
  sets : List RawCapabilitySet
  deriving DecidableEq

namespace CapabilitiesAdvertisePdu

def encode (pdu : CapabilitiesAdvertisePdu) : Except EncodeError Bytes := do
  let count ← castLength "Count" 2 pdu.sets.length
  let sets ← pdu.sets.mapM RawCapabilitySet.encode
  return [count, sets.flatten].flatten

def decode : Reader CapabilitiesAdvertisePdu := do
  Reader.ensureSize 2
  let count ← Reader.readU16
  Reader.ensureSize (count * 8)
  let sets ← repeatWith RawCapabilitySet.decode count
  return ⟨sets⟩

end CapabilitiesAdvertisePdu

/-! ### All PDUs -/

inductive GfxPdu where
  | wireToSurface1 (pdu : WireToSurface1Pdu)
  | wireToSurface2 (pdu : WireToSurface2Pdu)
  | deleteEncodingContext (pdu : DeleteEncodingContextPdu)
  | solidFill (pdu : SolidFillPdu)
  | surfaceToSurface (pdu : SurfaceToSurfacePdu)
  | surfaceToCache (pdu : SurfaceToCachePdu)
  | cacheToSurface (pdu : CacheToSurfacePdu)
  | evictCacheEntry (pdu : EvictCacheEntryPdu)
  | createSurface (pdu : CreateSurfacePdu)
  | deleteSurface (pdu : DeleteSurfacePdu)
  | startFrame (pdu : StartFramePdu)
  | endFrame (pdu : EndFramePdu)
  | frameAcknowledge (pdu : FrameAcknowledgePdu)
  | resetGraphics (pdu : ResetGraphicsPdu)
  | mapSurfaceToOutput (pdu : MapSurfaceToOutputPdu)
  | cacheImportOffer (pdu : CacheImportOfferPdu)
  | cacheImportReply (pdu : CacheImportReplyPdu)
  | capabilitiesAdvertise (pdu : CapabilitiesAdvertisePdu)
  | capabilitiesConfirm (pdu : RawCapabilitySet)
  | mapSurfaceToWindow (pdu : MapSurfaceToWindowPdu)
  | qoeFrameAcknowledge (pdu : QoeFrameAcknowledgePdu)
  | mapSurfaceToScaledOutput (pdu : MapSurfaceToScaledOutputPdu)
  | mapSurfaceToScaledWindow (pdu : MapSurfaceToScaledWindowPdu)
  deriving DecidableEq

namespace GfxPdu

/-- `RDPGFX_CMDID_*`. -/
def cmdid : GfxPdu → Nat
  | wireToSurface1 _ => 0x0001
  | wireToSurface2 _ => 0x0002
  | deleteEncodingContext _ => 0x0003
  | solidFill _ => 0x0004
  | surfaceToSurface _ => 0x0005
  | surfaceToCache _ => 0x0006
  | cacheToSurface _ => 0x0007
  | evictCacheEntry _ => 0x0008
  | createSurface _ => 0x0009
  | deleteSurface _ => 0x000a
  | startFrame _ => 0x000b
  | endFrame _ => 0x000c
  | frameAcknowledge _ => 0x000d
  | resetGraphics _ => 0x000e
  | mapSurfaceToOutput _ => 0x000f
  | cacheImportOffer _ => 0x0010
  | cacheImportReply _ => 0x0011
  | capabilitiesAdvertise _ => 0x0012
  | capabilitiesConfirm _ => 0x0013
  | mapSurfaceToWindow _ => 0x0015
  | qoeFrameAcknowledge _ => 0x0016
  | mapSurfaceToScaledOutput _ => 0x0017
  | mapSurfaceToScaledWindow _ => 0x0018

/-- What follows the header. -/
def encodeBody : GfxPdu → Except EncodeError Bytes
  | wireToSurface1 pdu => pdu.encode
  | wireToSurface2 pdu => pdu.encode
  | deleteEncodingContext pdu => .ok pdu.encode
  | solidFill pdu => pdu.encode
  | surfaceToSurface pdu => pdu.encode
  | surfaceToCache pdu => .ok pdu.encode
  | cacheToSurface pdu => pdu.encode
  | evictCacheEntry pdu => .ok pdu.encode
  | createSurface pdu => .ok pdu.encode
  | deleteSurface pdu => .ok pdu.encode
  | startFrame pdu => .ok pdu.encode
  | endFrame pdu => .ok pdu.encode
  | frameAcknowledge pdu => .ok pdu.encode
  | resetGraphics pdu => pdu.encode
  | mapSurfaceToOutput pdu => .ok pdu.encode
  | cacheImportOffer pdu => pdu.encode
  | cacheImportReply pdu => pdu.encode
  | capabilitiesAdvertise pdu => pdu.encode
  | capabilitiesConfirm pdu => pdu.encode
  | mapSurfaceToWindow pdu => .ok pdu.encode
  | qoeFrameAcknowledge pdu => .ok pdu.encode
  | mapSurfaceToScaledOutput pdu => .ok pdu.encode
  | mapSurfaceToScaledWindow pdu => .ok pdu.encode

/-- The size of a PDU that does not fit in its field panics. -/
def encode (pdu : GfxPdu) : Except EncodeError Bytes := do
  let body ← pdu.encodeBody
  let pduSize ← castLength "Length" 4 (body.length + 8)
  return [toLeBytes 2 pdu.cmdid, le16 0, pduSize, body].flatten

/-- The decoder of a command. -/
def decodeBody : Nat → Reader GfxPdu
  | 0x0001 => return wireToSurface1 (← WireToSurface1Pdu.decode)
  | 0x0002 => return wireToSurface2 (← WireToSurface2Pdu.decode)
  | 0x0003 => return deleteEncodingContext (← DeleteEncodingContextPdu.decode)
  | 0x0004 => return solidFill (← SolidFillPdu.decode)
  | 0x0005 => return surfaceToSurface (← SurfaceToSurfacePdu.decode)
  | 0x0006 => return surfaceToCache (← SurfaceToCachePdu.decode)
  | 0x0007 => return cacheToSurface (← CacheToSurfacePdu.decode)
  | 0x0008 => return evictCacheEntry (← EvictCacheEntryPdu.decode)
  | 0x0009 => return createSurface (← CreateSurfacePdu.decode)
  | 0x000a => return deleteSurface (← DeleteSurfacePdu.decode)
  | 0x000b => return startFrame (← StartFramePdu.decode)
  | 0x000c => return endFrame (← EndFramePdu.decode)
  | 0x000d => return frameAcknowledge (← FrameAcknowledgePdu.decode)
  | 0x000e => return resetGraphics (← ResetGraphicsPdu.decode)
  | 0x000f => return mapSurfaceToOutput (← MapSurfaceToOutputPdu.decode)
  | 0x0010 => return cacheImportOffer (← CacheImportOfferPdu.decode)
  | 0x0011 => return cacheImportReply (← CacheImportReplyPdu.decode)
  | 0x0012 => return capabilitiesAdvertise (← CapabilitiesAdvertisePdu.decode)
  | 0x0013 => return capabilitiesConfirm (← RawCapabilitySet.decode)
  | 0x0015 => return mapSurfaceToWindow (← MapSurfaceToWindowPdu.decode)
  | 0x0016 => return qoeFrameAcknowledge (← QoeFrameAcknowledgePdu.decode)
  | 0x0017 => return mapSurfaceToScaledOutput (← MapSurfaceToScaledOutputPdu.decode)
  | 0x0018 => return mapSurfaceToScaledWindow (← MapSurfaceToScaledWindowPdu.decode)
  | _ => Reader.fail (.invalidField "Type" "Unknown GFX PDU type")

/-- The flags are not looked at. -/
def decode : Reader GfxPdu := do
  Reader.ensureSize 8
  let cmdid ← Reader.readU16
  let _flags ← readLe16
  let pduLength ← Reader.readU32
  if pduLength < 8 then Reader.fail (.invalidField "Length" "GFX PDU length is too small")
  else decodeBody cmdid

end GfxPdu

end Drift.Egfx
