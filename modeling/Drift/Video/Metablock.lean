import Drift.Core.Wire

/-!
# The AVC420 metablock

The parser of the video crate for the same stream: it checks the size of the whole metablock first, and then
reads each field at its offset. Rectangles become an origin and a size.
-/

namespace Drift.Video

structure QuantQuality where
  qp : UInt8
  progressive : Bool
  quality : UInt8
  deriving DecidableEq

structure Avc420Metablock where
  regions : List Rect
  quantQuality : List QuantQuality
  deriving DecidableEq

inductive MetablockError where
  | truncated (needed available : Nat)
  | invertedRect (index : Nat)
  deriving DecidableEq

def MetablockError.toString : MetablockError → String
  | .truncated needed available =>
    s!"AVC420 metablock truncated: need {needed} bytes, have {available}"
  | .invertedRect index => s!"AVC420 region {index} is inverted"

def rect16Size : Nat := 8

def quantQualitySize : Nat := 2

/-- `data[off]`; the size that was checked lies after every offset that is read. -/
def byteAt (data : Bytes) (off : Nat) : UInt8 := data.getD off 0

def u16At (data : Bytes) (off : Nat) : Nat := ofLeBytes [byteAt data off, byteAt data (off + 1)]

def regionAt (data : Bytes) (index : Nat) : Except MetablockError Rect :=
  let off := 4 + index * rect16Size
  match Rect.fromLtrb (u16At data off) (u16At data (off + 2)) (u16At data (off + 4))
    (u16At data (off + 6)) with
  | some rect => .ok rect
  | none => .error (.invertedRect index)

def quantQualityAt (data : Bytes) (count index : Nat) : QuantQuality :=
  let off := 4 + count * rect16Size + index * quantQualitySize
  let qpVal := byteAt data off
  ⟨qpVal &&& 0x3F, qpVal &&& 0x80 ≠ 0, byteAt data (off + 1)⟩

/-- The metablock and the H.264 bytes after it. The size is computed in a `usize` of 64 bits. -/
def parseAvc420BitmapStream (data : Bytes) : Except MetablockError (Avc420Metablock × Bytes) := do
  if data.length < 4 then throw (.truncated 4 data.length)
  let count := ofLeBytes (data.take 4)
  let needed := count * (rect16Size + quantQualitySize) + 4
  if 2 ^ 64 ≤ needed then throw (.truncated (2 ^ 64 - 1) data.length)
  if data.length < needed then throw (.truncated needed data.length)
  let regions ← (List.range count).mapM (regionAt data)
  return (⟨regions, (List.range count).map (quantQualityAt data count)⟩, data.drop needed)

end Drift.Video
