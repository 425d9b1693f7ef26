import Drift.Core.Wire
import Drift.Zgfx.CircularBuffer

/-!
# Segments

A message is one segment, or a count of segments with their lengths and the length of what they decompress
to. A segment starts with a byte for the type of the compression and its flags.
-/

namespace Drift.Zgfx

inductive ZgfxError where
  | ioError
  | invalidCompressionType
  | invalidSegmentedDescriptor
  | invalidDecompressedSize (decompressedSize uncompressedSize : Nat)
  | tokenBitsNotFound
  | invalidIntegralConversion (typeName : String)
  | invalidTrailingBitCount (count : Nat)
  | segmentSizeExceedsBuffer (size remaining : Nat)
  | incompleteBitStream (needed remaining : Nat)
  | matchDistanceOutOfRange (distance historySize : Nat)
  | lengthTokenSizeTooLarge (size : Nat)
  | segmentDecompressedSizeExceedsLimit (decompressed limit : Nat)
  | multipartTotalExceedsDeclared (written declared : Nat)
  | multipartTotalExceedsBudget (written budget : Nat)
  deriving DecidableEq

structure BulkEncodedData where
  compressionFlags : UInt8
  data : Bytes
  deriving DecidableEq

/-- `CompressionFlags::COMPRESSED`. -/
def compressedFlag : UInt8 := 0x2

/-- `CompressionType::Rdp8`. -/
def rdp8 : UInt8 := 0x4

inductive SegmentedDataPdu where
  | single (segment : BulkEncodedData)
  | multipart (uncompressedSize : Nat) (segments : List BulkEncodedData)
  deriving DecidableEq

/-- `read_u8`, `read_u16` and `read_u32` of a slice: its first bytes, and what follows them. -/
def readBytes (n : Nat) (buffer : Bytes) : Except ZgfxError (Bytes × Bytes) :=
  if n ≤ buffer.length then .ok (buffer.take n, buffer.drop n) else .error .ioError

namespace BulkEncodedData

def isCompressed (s : BulkEncodedData) : Bool := s.compressionFlags &&& compressedFlag = compressedFlag

def fromBuffer (buffer : Bytes) : Except ZgfxError BulkEncodedData := do
  let (header, data) ← readBytes 1 buffer
  let compressionTypeAndFlags := header.headD 0
  if compressionTypeAndFlags &&& 0x0f = rdp8 then return ⟨compressionTypeAndFlags >>> 4, data⟩
  else throw .invalidCompressionType

end BulkEncodedData

namespace SegmentedDataPdu

/-- The segments of a multipart message; bytes after the last of them are ignored. -/
def readSegments : Nat → Bytes → Except ZgfxError (List BulkEncodedData)
  | 0, _ => return []
  | count + 1, buffer => do
    let (size, buffer) ← readBytes 4 buffer
    let size := ofLeBytes size
    if size ≤ buffer.length then
      let segment ← BulkEncodedData.fromBuffer (buffer.take size)
      let segments ← readSegments count (buffer.drop size)
      return segment :: segments
    else throw (.segmentSizeExceedsBuffer size buffer.length)

def fromBuffer (buffer : Bytes) : Except ZgfxError SegmentedDataPdu := do
  let (descriptor, buffer) ← readBytes 1 buffer
  if descriptor = [0xe0] then return .single (← BulkEncodedData.fromBuffer buffer)
  else if descriptor = [0xe1] then
    let (segmentCount, buffer) ← readBytes 2 buffer
    let (uncompressedSize, buffer) ← readBytes 4 buffer
    return .multipart (ofLeBytes uncompressedSize) (← readSegments (ofLeBytes segmentCount) buffer)
  else throw .invalidSegmentedDescriptor

end SegmentedDataPdu

end Drift.Zgfx
