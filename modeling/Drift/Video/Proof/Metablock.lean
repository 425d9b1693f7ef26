import Drift.Gfx.Avc420
import Drift.Gfx.Client
import Drift.Lib.Lockstep
import Drift.Video.Metablock
import Mathlib.Data.List.GetD
import Mathlib.Data.Nat.Digits.Lemmas

/-!
# Two parsers of one metablock

The parser of the video crate reads at offsets, the decoder of the client part by part. Both need the same
bytes, and the fields that they read there are the same (`rectangleOf_eq`, `quantQualityOf_eq`).
-/

namespace Drift.Video

open Drift.Codec Gfx

variable {data : Bytes}

theorem ofLeBytes_lt (bytes : Bytes) : ofLeBytes bytes < 256 ^ bytes.length := by
  have hlt := Nat.ofDigits_lt_base_pow_length (b := 256) (l := bytes.map UInt8.toNat) (by decide)
    (by simpa using fun b _ => b.toNat_lt)
  rwa [List.length_map] at hlt

/-- The number of regions is too small for its bytes to overflow a `usize`. -/
theorem needed_lt (data : Bytes) : ofLeBytes (data.take 4) * (rect16Size + quantQualitySize) + 4 < 2 ^ 64 := by
  have hcount : ofLeBytes (data.take 4) < 2 ^ 32 := by
    calc ofLeBytes (data.take 4) < 256 ^ (data.take 4).length := ofLeBytes_lt _
      _ ≤ 256 ^ 4 := Nat.pow_le_pow_right (by decide) (List.length_take_le 4 data)
      _ = 2 ^ 32 := by decide
  unfold rect16Size quantQualitySize
  omega

/-! ### The fields -/

theorem take_two {off : Nat} (h : off + 2 ≤ data.length) :
    (data.drop off).take 2 = [byteAt data off, byteAt data (off + 1)] := by
  have hfirst : off < data.length := by omega
  have hsecond : off + 1 < data.length := by omega
  rw [List.drop_eq_getElem_cons hfirst, List.drop_eq_getElem_cons hsecond, byteAt, byteAt,
    List.getD_eq_getElem data 0 hfirst, List.getD_eq_getElem data 0 hsecond]
  rfl

theorem rectangleOf_eq {off : Nat} (h : off + 8 ≤ data.length) :
    rectangleOf ((data.drop off).take 8) =
      ⟨u16At data off, u16At data (off + 2), u16At data (off + 4), u16At data (off + 6)⟩ := by
  have hfield : ∀ d, d + 2 ≤ 8 →
      ofLeBytes ((((data.drop off).take 8).drop d).take 2) = u16At data (off + d) := by
    intro d hd
    rw [Prefix.take_drop_take _ hd, List.drop_drop, take_two (by omega), u16At]
  unfold rectangleOf
  rw [hfield 2 (by decide), hfield 4 (by decide), hfield 6 (by decide)]
  exact congrArg (ExclusiveRectangle.mk · _ _ _) (hfield 0 (by decide))

/-- The rectangle check of the client passes where the parser takes the region, with the same result. -/
theorem rect_eq_ok_iff {index : Nat} (h : 4 + index * 8 + 8 ≤ data.length) (r : Rect) :
    rect (rectangleOf ((data.drop (4 + index * 8)).take 8)) = .ok r ↔ regionAt data index = .ok r := by
  rw [rectangleOf_eq h]
  unfold rect regionAt rect16Size
  dsimp only
  cases Rect.fromLtrb (u16At data (4 + index * 8)) (u16At data (4 + index * 8 + 2))
    (u16At data (4 + index * 8 + 4)) (u16At data (4 + index * 8 + 6)) <;> simp

theorem getBits_low (v : UInt8) : getBits v 0 6 = v &&& 0x3F := by
  have hall : ∀ v : BitVec 8, v <<< 2 >>> 2 >>> 0 = v &&& 0x3F := by decide
  exact UInt8.eq_of_toBitVec_eq (hall v.toBitVec)

/-- The quality values of the protocol crate under the names of the video crate. -/
def QuantQuality.ofWire (q : Gfx.QuantQuality) : QuantQuality :=
  ⟨q.quantizationParameter, q.progressive, q.quality⟩

theorem quantQualityOf_eq {count index : Nat} (h : 4 + count * 8 + index * 2 + 2 ≤ data.length) :
    QuantQuality.ofWire (quantQualityOf ((data.drop (4 + count * 8 + index * 2)).take 2)) =
      quantQualityAt data count index := by
  rw [take_two h]
  unfold QuantQuality.ofWire quantQualityOf quantQualityAt rect16Size quantQualitySize
  dsimp only [List.headD_cons, List.drop_succ_cons, List.drop_zero]
  rw [getBits_low]
  rfl

/-! ### The whole stream -/

theorem needed_eq (count : Nat) : count * (rect16Size + quantQualitySize) + 4 = metablockSize count := by
  unfold rect16Size quantQualitySize metablockSize
  omega

/-- The parser takes a stream that has all its bytes and no inverted rectangle. -/
theorem parse_eq_ok_iff (metablock : Avc420Metablock) (rest : Bytes) :
    parseAvc420BitmapStream data = .ok (metablock, rest) ↔
      let count := ofLeBytes (data.take 4)
      metablockSize count ≤ data.length ∧
        (List.range count).mapM (regionAt data) = .ok metablock.regions ∧
        (List.range count).map (quantQualityAt data count) = metablock.quantQuality ∧
        data.drop (metablockSize count) = rest := by
  have hfits := needed_lt data
  rw [needed_eq] at hfits
  unfold parseAvc420BitmapStream
  simp only [needed_eq]
  set count := ofLeBytes (data.take 4)
  by_cases hsize : metablockSize count ≤ data.length
  · have hfirst : ¬ data.length < 4 := by unfold metablockSize at hsize; omega
    rw [if_neg hfirst, if_neg (Nat.not_le.mpr hfits), if_neg (Nat.not_lt.mpr hsize)]
    cases hregions : (List.range count).mapM (regionAt data) with
    | error e => simp [bind, Except.bind]
    | ok regions =>
        obtain ⟨regions', quantQuality⟩ := metablock
        simp [bind, Except.bind, pure, Except.pure, hsize, and_assoc]
  · refine iff_of_false (fun h => ?_) fun h => hsize h.1
    rw [if_neg (Nat.not_le.mpr hfits), if_pos (Nat.lt_of_not_le hsize)] at h
    split at h <;> cases h

/-- **The parsers agree.** -/
theorem parse_iff_decode (data : Bytes) (metablock : Avc420Metablock) (rest : Bytes) :
    parseAvc420BitmapStream data = .ok (metablock, rest) ↔
      ∃ stream, Avc420BitmapStream.ofBytes data = .ok stream ∧
        stream.rectangles.mapM rect = .ok metablock.regions ∧
        stream.quantQualVals.map QuantQuality.ofWire = metablock.quantQuality ∧ stream.data = rest := by
  rw [parse_eq_ok_iff]
  set count := ofLeBytes (data.take 4) with hcount
  by_cases hsize : metablockSize count ≤ data.length
  · have hroom : 4 + (count * 8 + count * 2) ≤ data.length := hsize
    have hrects : (streamOf data).rectangles.mapM rect = .ok metablock.regions ↔
        (List.range count).mapM (regionAt data) = .ok metablock.regions := by
      rw [streamOf, partsOf, List.mapM_map, ← hcount]
      refine Lockstep.mapM_eq_ok_congr (fun index hindex r => ?_) _
      have hlt := List.mem_range.mp hindex
      rw [Function.comp_apply, List.drop_drop]
      exact rect_eq_ok_iff (by omega) r
    have hquants : (streamOf data).quantQualVals.map QuantQuality.ofWire =
        (List.range count).map (quantQualityAt data count) := by
      rw [streamOf, partsOf, List.map_map, ← hcount]
      refine List.map_congr_left fun index hindex => ?_
      have hlt := List.mem_range.mp hindex
      rw [Function.comp_apply, List.drop_drop, ← Nat.add_assoc]
      exact quantQualityOf_eq (by omega)
    rw [ofBytes_ok hsize]
    simp only [Except.ok.injEq, exists_eq_left', hrects, hquants]
    exact ⟨fun h => h.2, fun h => ⟨hsize, h⟩⟩
  · obtain ⟨e, he⟩ := ofBytes_error (Nat.lt_of_not_le hsize)
    rw [he]
    refine iff_of_false (fun h => hsize h.1) ?_
    rintro ⟨stream, herror, -⟩
    cases herror

/-! ### The client -/

/-- What the client is given for its decoder of the stream. -/
def decodeAvc420 (text : NotEnoughBytes → String) (data : Bytes) :
    Except String (List ExclusiveRectangle × Bytes) :=
  ((Avc420BitmapStream.ofBytes data).mapError text).map fun stream => (stream.rectangles, stream.data)

theorem clipAll_eq (rectangles : List ExclusiveRectangle) (bounds : Size) :
    GfxClient.clipAll rectangles bounds =
      (rectangles.mapM rect).map fun rects => rects.filterMap (clip · bounds) := by
  induction rectangles with
  | nil => rfl
  | cons r rs ih =>
      rw [GfxClient.clipAll, ih, List.mapM_cons]
      cases rect r with
      | error e => rfl
      | ok r =>
          cases rs.mapM rect with
          | error e => rfl
          | ok rects =>
              change Except.ok ((clip r bounds).toList ++ _) = Except.ok ((r :: rects).filterMap _)
              rw [List.filterMap_cons]
              cases clip r bounds <;> rfl

/-- The client draws the regions that the parser finds, as far as they lie in the surface, and decodes the
bytes that it leaves. -/
theorem client_of_parse {text : NotEnoughBytes → String} {metablock : Avc420Metablock} {rest : Bytes}
    (h : parseAvc420BitmapStream data = .ok (metablock, rest)) (bounds : Size) :
    ∃ rectangles, decodeAvc420 text data = .ok (rectangles, rest) ∧
      GfxClient.clipAll rectangles bounds = .ok (metablock.regions.filterMap (clip · bounds)) := by
  obtain ⟨stream, hstream, hrects, -, rfl⟩ := (parse_iff_decode data metablock rest).mp h
  refine ⟨stream.rectangles, ?_, ?_⟩
  · rw [decodeAvc420, hstream]
    rfl
  · rw [clipAll_eq, hrects]
    rfl

end Drift.Video
