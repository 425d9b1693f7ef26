import Drift.Core.Wire
import Drift.Zgfx.Compressor

/-!
# Wrapping

Bytes become a message of one segment, or of as many as they need when they are not compressed. What the
compressor makes of them is only sent if it fits one segment.
-/

namespace Drift.Zgfx

def zgfxSegmentedMaxsize : Nat := 65535

def wrapFlags (compressed : Bool) : UInt8 := if compressed then (0x04 : UInt8) ||| ((0x02 : UInt8) <<< 4) else 0x04

def wrapSingleSegment (data : Bytes) (compressed : Bool) : Bytes := 0xE0 :: wrapFlags compressed :: data

/-- `data.chunks(size)`. -/
def chunks (data : Bytes) (size : Nat) : List Bytes :=
  (List.range ((data.length + (size - 1)) / size)).map fun i => (data.drop (i * size)).take size

def wrapSegment (compressed : Bool) (segment : Bytes) : Bytes :=
  toLeBytes 4 (segment.length + 1) ++ wrapFlags compressed :: segment

/-- `none` where the count of the segments or the length of the data is not a number of its field. -/
def wrapMultipartSegments (data : Bytes) (compressed : Bool) : Option Bytes :=
  let segmentCount := (data.length + (zgfxSegmentedMaxsize - 1)) / zgfxSegmentedMaxsize
  if segmentCount ≤ u16Max ∧ data.length ≤ u32Max then
    some (0xE1 :: toLeBytes 2 segmentCount ++ toLeBytes 4 data.length ++
      (chunks data zgfxSegmentedMaxsize).flatMap (wrapSegment compressed))
  else none

def wrapUncompressed (data : Bytes) : Option Bytes :=
  if data.length ≤ zgfxSegmentedMaxsize then some (wrapSingleSegment data false)
  else wrapMultipartSegments data false

/-- `none` where the data does not fit one segment. -/
def wrapCompressed (compressedData : Bytes) : Option Bytes :=
  if compressedData.length ≤ zgfxSegmentedMaxsize then some (wrapSingleSegment compressedData true) else none

inductive CompressionMode where
  | never
  | auto
  | always
  deriving DecidableEq

/-- The message and the compressor after it; `none` where the wrapper panics. -/
def compressAndWrapEgfx (data : Bytes) (c : Compressor) : CompressionMode → Option Bytes × Compressor
  | .never => (wrapUncompressed data, c)
  | .auto =>
    let (c, compressed) := c.compress data
    if compressed.length ≤ zgfxSegmentedMaxsize then
      (do
        let wrappedCompressed ← wrapCompressed compressed
        let wrappedUncompressed ← wrapUncompressed data
        return if wrappedCompressed.length < wrappedUncompressed.length then wrappedCompressed
          else wrappedUncompressed, c)
    else (wrapUncompressed data, c)
  | .always =>
    let (c, compressed) := c.compress data
    if compressed.length ≤ zgfxSegmentedMaxsize then (wrapCompressed compressed, c)
    else (wrapUncompressed data, c)

end Drift.Zgfx
