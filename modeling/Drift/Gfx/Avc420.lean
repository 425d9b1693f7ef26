import Drift.Codec.Region
import Drift.Core.Wire

/-!
# The AVC420 bitmap stream

The decoder of the protocol crate for the bitmap data of an AVC420 command: a metablock with a rectangle and
quality values for each region, and the H.264 bytes after it.
-/

namespace Drift

open ReadCursor

def Codec.ExclusiveRectangle.fixedPartSize : Nat := 8

def Codec.ExclusiveRectangle.decode : Decoder Codec.ExclusiveRectangle := do
  ensureSize fixedPartSize
  let left ← readU16
  let top ← readU16
  let right ← readU16
  let bottom ← readU16
  return ⟨left, top, right, bottom⟩

namespace Gfx

open Drift.Codec

/-- The bits of a byte from `lo` up to `hi`, as the bit field crate takes them. -/
def getBits (v lo hi : UInt8) : UInt8 := ((v <<< (8 - hi)) >>> (8 - hi)) >>> lo

def getBit (v bit : UInt8) : Bool := v &&& (1 <<< bit) ≠ 0

structure QuantQuality where
  quantizationParameter : UInt8
  progressive : Bool
  quality : UInt8
  deriving DecidableEq

structure Avc420BitmapStream where
  rectangles : List ExclusiveRectangle
  quantQualVals : List QuantQuality
  data : Bytes
  deriving DecidableEq

namespace QuantQuality

def fixedPartSize : Nat := 2

def decode : Decoder QuantQuality := do
  ensureSize fixedPartSize
  let data ← readU8
  let quality ← readU8
  return ⟨getBits data 0 6, getBit data 7, quality⟩

end QuantQuality

namespace Avc420BitmapStream

def fixedPartSize : Nat := 4

def decode : Decoder Avc420BitmapStream := do
  ensureSize fixedPartSize
  let numRegions ← readU32
  let rectangles ← Prefix.times ExclusiveRectangle.decode numRegions
  let quantQualVals ← Prefix.times QuantQuality.decode numRegions
  let data ← remaining
  return ⟨rectangles, quantQualVals, data⟩

/-- The decoder on the bytes of a whole command. -/
def ofBytes (data : Bytes) : Except NotEnoughBytes Avc420BitmapStream :=
  (decode (.new data)).map Prod.fst

end Avc420BitmapStream

/-! ### Where the parts lie -/

def rectangleOf (s : Bytes) : ExclusiveRectangle :=
  ⟨ofLeBytes (s.take 2), ofLeBytes ((s.drop 2).take 2), ofLeBytes ((s.drop 4).take 2),
    ofLeBytes ((s.drop 6).take 2)⟩

def quantQualityOf (s : Bytes) : QuantQuality :=
  ⟨getBits (s.headD 0) 0 6, getBit (s.headD 0) 7, (s.drop 1).headD 0⟩

theorem fixed_rectangle : Prefix.Fixed source ExclusiveRectangle.decode 8 rectangleOf := by
  refine fixed_ensured fun c => ?_
  simp only [readU16, bind_assoc, pure_bind, bind_readArray, pure_apply]
  simp [ExclusiveRectangle.fixedPartSize, source, rectangleOf, List.take_take, List.drop_take]

theorem fixed_quantQuality : Prefix.Fixed source QuantQuality.decode 2 quantQualityOf := by
  refine fixed_ensured fun c => ?_
  have hfirst : (c.ahead.take 1).headD 0 = (c.ahead.take 2).headD 0 := by cases c.ahead <;> rfl
  simp only [QuantQuality.fixedPartSize, readU8, bind_assoc, pure_bind, bind_readArray, pure_apply,
    source, quantQualityOf, List.drop_take, List.drop_drop, hfirst]

theorem fixed_numRegions :
    Prefix.Fixed source (do ensureSize Avc420BitmapStream.fixedPartSize; readU32) 4 ofLeBytes := by
  refine fixed_ensured fun c => ?_
  simp [Avc420BitmapStream.fixedPartSize, readU32, source]

/-- The bytes of a stream with `count` regions, before those of H.264. -/
def metablockSize (count : Nat) : Nat := 4 + (count * 8 + count * 2)

/-- The rectangles and the quality values of `count` regions. -/
def partsOf (count : Nat) (s : Bytes) : List ExclusiveRectangle × List QuantQuality :=
  ((List.range count).map fun i => rectangleOf ((s.drop (i * 8)).take 8),
    (List.range count).map fun i => quantQualityOf ((s.drop (count * 8 + i * 2)).take 2))

/-- What a complete stream is decoded to. -/
def streamOf (data : Bytes) : Avc420BitmapStream :=
  let count := ofLeBytes (data.take 4)
  let parts := partsOf count (data.drop 4)
  ⟨parts.1, parts.2, data.drop (metablockSize count)⟩

theorem partsOf_take (count : Nat) (s : Bytes) :
    partsOf count (s.take (count * 8 + count * 2)) = partsOf count s := by
  unfold partsOf
  congr 1
  · refine List.map_congr_left fun i hi => ?_
    rw [Prefix.take_drop_take s (by have := List.mem_range.mp hi; omega)]
  · refine List.map_congr_left fun i hi => ?_
    rw [Prefix.take_drop_take s (by have := List.mem_range.mp hi; omega)]

theorem fixed_parts (count : Nat) :
    Prefix.Fixed source
      (Prefix.times ExclusiveRectangle.decode count >>= fun rectangles =>
        Prefix.times QuantQuality.decode count >>= fun quantQualVals => pure (rectangles, quantQualVals))
      (count * 8 + count * 2) (partsOf count) := by
  have hboth := (fixed_rectangle.times count).both (fixed_quantQuality.times count) Prod.mk
  convert hboth using 2 with s
  unfold partsOf
  congr 1
  · refine List.map_congr_left fun i hi => ?_
    rw [Prefix.take_drop_take s (by have := List.mem_range.mp hi; omega)]
  · refine List.map_congr_left fun i _ => ?_
    rw [List.drop_drop]

theorem decode_eq :
    Avc420BitmapStream.decode =
      (do ensureSize Avc420BitmapStream.fixedPartSize; readU32) >>= fun count =>
        (Prefix.times ExclusiveRectangle.decode count >>= fun rectangles =>
          Prefix.times QuantQuality.decode count >>= fun quantQualVals =>
          pure (rectangles, quantQualVals)) >>= fun parts =>
        remaining >>= fun data => pure ⟨parts.1, parts.2, data⟩ := by
  simp only [Avc420BitmapStream.decode, bind_assoc, pure_bind]

theorem ofBytes_ok {data : Bytes} (h : metablockSize (ofLeBytes (data.take 4)) ≤ data.length) :
    Avc420BitmapStream.ofBytes data = .ok (streamOf data) := by
  unfold metablockSize at h
  have hcount : (do ensureSize Avc420BitmapStream.fixedPartSize; readU32) (new data) =
      .ok (ofLeBytes (data.take 4), ⟨0 + 4, data.drop 4⟩) :=
    fixed_numRegions.ok (new data) (by simp only [source, new]; omega)
  have hparts := (fixed_parts (ofLeBytes (data.take 4))).ok ⟨0 + 4, data.drop 4⟩
    (by simp only [source, List.length_drop]; omega)
  rw [Avc420BitmapStream.ofBytes, decode_eq, Prefix.bind_of_ok hcount, Prefix.bind_of_ok hparts]
  dsimp only [source]
  rw [partsOf_take, List.drop_drop]
  rfl

theorem ofBytes_error {data : Bytes} (h : data.length < metablockSize (ofLeBytes (data.take 4))) :
    ∃ e, Avc420BitmapStream.ofBytes data = .error e := by
  rw [Avc420BitmapStream.ofBytes, decode_eq]
  by_cases hfirst : 4 ≤ data.length
  · have hcount : (do ensureSize Avc420BitmapStream.fixedPartSize; readU32) (new data) =
        .ok (ofLeBytes (data.take 4), ⟨0 + 4, data.drop 4⟩) := fixed_numRegions.ok (new data) hfirst
    obtain ⟨e, he⟩ := (fixed_parts (ofLeBytes (data.take 4))).error ⟨0 + 4, data.drop 4⟩
      (by simp only [source, List.length_drop]; unfold metablockSize at h; omega)
    rw [Prefix.bind_of_ok hcount, Prefix.bind_of_error he]
    exact ⟨e, rfl⟩
  · obtain ⟨e, he⟩ := fixed_numRegions.error (new data) (Nat.lt_of_not_le hfirst)
    rw [Prefix.bind_of_error he]
    exact ⟨e, rfl⟩

end Gfx

end Drift
