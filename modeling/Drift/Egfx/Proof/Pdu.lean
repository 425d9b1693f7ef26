import Drift.Egfx.Pdu
import Drift.Gfx.Payload

/-!
# Graphics PDUs are read back

Wherever the bytes of a PDU stand, they are decoded to the PDU, and just they are taken.
-/

namespace Drift.Egfx

open Pdu Reader
open Gfx (Codec1Type PixelFormat)

/-! ### Fields -/

theorem takes_le16 (value : UInt16) : Takes readLe16 (le16 value) value := by
  have hread : Takes readLe16 (le16 value) (.ofNat value.toNat) :=
    (takes_readU16 (UInt16.toNat_lt value)).bind_nil (.pure _)
  rwa [UInt16.ofNat_toNat] at hread

theorem takes_le32 (value : UInt32) : Takes readLe32 (le32 value) value := by
  have hread : Takes readLe32 (le32 value) (.ofNat value.toNat) :=
    (takes_readU32 (UInt32.toNat_lt value)).bind_nil (.pure _)
  rwa [UInt32.ofNat_toNat] at hread

theorem takes_le64 (value : UInt64) : Takes readLe64 (le64 value) value := by
  have hvalue : ofLeBytes (le64 value) = value.toNat := ofLeBytes_toLeBytes (UInt64.toNat_lt value)
  have hread : Takes readLe64 (le64 value) (.ofNat (ofLeBytes (le64 value))) :=
    (takes_readSlice (length_toLeBytes 8 value.toNat)).bind_nil (.pure _)
  rwa [hvalue, UInt64.ofNat_toNat] at hread

theorem takes_repeatWith_map {α β : Type} {part : Reader β} {encode : α → Bytes} {f : α → β} {as : List α}
    (h : ∀ a ∈ as, Takes part (encode a) (f a)) :
    Takes (repeatWith part as.length) (as.flatMap encode) (as.map f) := by
  induction as with
  | nil => exact .pure []
  | cons a as ih =>
      rw [List.flatMap_cons]
      exact (h a List.mem_cons_self).bind ((ih fun b hb => h b (List.mem_cons_of_mem a hb)).bind_nil (.pure _))

theorem takes_repeatWith {α : Type} {part : Reader α} {encode : α → Bytes} {as : List α}
    (h : ∀ a ∈ as, Takes part (encode a) a) : Takes (repeatWith part as.length) (as.flatMap encode) as := by
  have hmap := takes_repeatWith_map (f := id) h
  rwa [List.map_id] at hmap

theorem length_flatMap_of_length {α : Type} (encode : α → Bytes) (size : Nat)
    (h : ∀ a, (encode a).length = size) (as : List α) : (as.flatMap encode).length = as.length * size := by
  induction as with
  | nil => rw [List.flatMap_nil, List.length_nil, List.length_nil, Nat.zero_mul]
  | cons a as ih => rw [List.flatMap_cons, List.length_append, h, ih, List.length_cons, Nat.succ_mul, Nat.add_comm]

theorem castLength_eq_ok {field : String} {width length : Nat} {bytes : Bytes}
    (h : castLength field width length = .ok bytes) : length < 256 ^ width ∧ bytes = toLeBytes width length := by
  unfold castLength at h
  by_cases hfits : length < 256 ^ width
  · rw [if_pos hfits] at h
    exact ⟨hfits, (Except.ok.inj h).symm⟩
  · rw [if_neg hfits] at h
    cases h

theorem takes_codec1 (codec : Codec1Type) : Takes readCodec1 (le16 (codec1ToU16 codec)) codec := by
  apply (takes_le16 (codec1ToU16 codec)).bind_nil
  apply takes_lift
  cases codec <;> rfl

theorem takes_pixelFormat (format : PixelFormat) : Takes readPixelFormat [pixelFormatToU8 format] format := by
  apply (takes_readU8 (pixelFormatToU8 format)).bind_nil
  apply takes_lift
  cases format <;> rfl

theorem takes_point (p : Point) : Takes Point.decode p.encode p := by
  apply Takes.ensured _ (Nat.le_refl 4)
  apply takes_field (takes_le16 p.x)
  apply takes_field (takes_le16 p.y)
  exact takes_done _

theorem takes_color (c : Color) : Takes Color.decode c.encode c := by
  apply Takes.ensured _ (Nat.le_refl 4)
  apply takes_field (takes_readU8 c.b)
  apply takes_field (takes_readU8 c.g)
  apply takes_field (takes_readU8 c.r)
  apply takes_field (takes_readU8 c.xa)
  exact takes_done _

theorem takes_rectangle (r : ExclusiveRectangle) : Takes ExclusiveRectangle.decode r.encode r := by
  apply Takes.ensured _ (Nat.le_refl 8)
  apply takes_field (takes_le16 r.left)
  apply takes_field (takes_le16 r.top)
  apply takes_field (takes_le16 r.right)
  apply takes_field (takes_le16 r.bottom)
  exact takes_done _

theorem takes_monitor (m : Monitor) : Takes Monitor.decode m.encode m := by
  apply Takes.ensured _ (Nat.le_refl 20)
  apply takes_field (takes_le32 m.left.toUInt32)
  apply takes_field (takes_le32 m.top.toUInt32)
  apply takes_field (takes_le32 m.right.toUInt32)
  apply takes_field (takes_le32 m.bottom.toUInt32)
  apply takes_field (takes_le32 m.flags)
  exact takes_done _

/-! ### PDUs of a fixed size -/

theorem takes_deleteEncodingContext (pdu : DeleteEncodingContextPdu) :
    Takes DeleteEncodingContextPdu.decode pdu.encode pdu := by
  apply Takes.ensured _ (Nat.le_refl 6)
  apply takes_field (takes_le16 pdu.surfaceId)
  apply takes_field (takes_le32 pdu.codecContextId)
  exact takes_done _

theorem takes_surfaceToCache (pdu : SurfaceToCachePdu) : Takes SurfaceToCachePdu.decode pdu.encode pdu := by
  apply Takes.ensured _ (Nat.le_refl 20)
  apply takes_field (takes_le16 pdu.surfaceId)
  apply takes_field (takes_le64 pdu.cacheKey)
  apply takes_field (takes_le16 pdu.cacheSlot)
  apply takes_field (takes_rectangle pdu.sourceRectangle)
  exact takes_done _

theorem takes_evictCacheEntry (pdu : EvictCacheEntryPdu) : Takes EvictCacheEntryPdu.decode pdu.encode pdu := by
  apply Takes.ensured _ (Nat.le_refl 2)
  apply takes_field (takes_le16 pdu.cacheSlot)
  exact takes_done _

theorem takes_cacheEntryMetadata (e : CacheEntryMetadata) : Takes CacheEntryMetadata.decode e.encode e := by
  apply Takes.ensured _ (Nat.le_refl 12)
  apply takes_field (takes_le64 e.cacheKey)
  apply takes_field (takes_le32 e.bitmapLen)
  exact takes_done _

theorem takes_createSurface (pdu : CreateSurfacePdu) : Takes CreateSurfacePdu.decode pdu.encode pdu := by
  apply Takes.ensured _ (Nat.le_refl 7)
  apply takes_field (takes_le16 pdu.surfaceId)
  apply takes_field (takes_le16 pdu.width)
  apply takes_field (takes_le16 pdu.height)
  apply takes_field (takes_pixelFormat pdu.pixelFormat)
  exact takes_done _

theorem takes_deleteSurface (pdu : DeleteSurfacePdu) : Takes DeleteSurfacePdu.decode pdu.encode pdu := by
  apply Takes.ensured _ (Nat.le_refl 2)
  apply takes_field (takes_le16 pdu.surfaceId)
  exact takes_done _

theorem takes_mapSurfaceToOutput (pdu : MapSurfaceToOutputPdu) :
    Takes MapSurfaceToOutputPdu.decode pdu.encode pdu := by
  apply Takes.ensured _ (Nat.le_refl 12)
  apply takes_field (takes_le16 pdu.surfaceId)
  apply takes_field (takes_le16 0)
  apply takes_field (takes_le32 pdu.outputOriginX)
  apply takes_field (takes_le32 pdu.outputOriginY)
  exact takes_done _

theorem takes_mapSurfaceToWindow (pdu : MapSurfaceToWindowPdu) :
    Takes MapSurfaceToWindowPdu.decode pdu.encode pdu := by
  apply Takes.ensured _ (Nat.le_refl 18)
  apply takes_field (takes_le16 pdu.surfaceId)
  apply takes_field (takes_le64 pdu.windowId)
  apply takes_field (takes_le32 pdu.mappedWidth)
  apply takes_field (takes_le32 pdu.mappedHeight)
  exact takes_done _

theorem takes_mapSurfaceToScaledOutput (pdu : MapSurfaceToScaledOutputPdu) :
    Takes MapSurfaceToScaledOutputPdu.decode pdu.encode pdu := by
  apply Takes.ensured _ (Nat.le_refl 20)
  apply takes_field (takes_le16 pdu.surfaceId)
  apply takes_field (takes_le16 0)
  apply takes_field (takes_le32 pdu.outputOriginX)
  apply takes_field (takes_le32 pdu.outputOriginY)
  apply takes_field (takes_le32 pdu.targetWidth)
  apply takes_field (takes_le32 pdu.targetHeight)
  exact takes_done _

theorem takes_mapSurfaceToScaledWindow (pdu : MapSurfaceToScaledWindowPdu) :
    Takes MapSurfaceToScaledWindowPdu.decode pdu.encode pdu := by
  apply Takes.ensured _ (Nat.le_refl 26)
  apply takes_field (takes_le16 pdu.surfaceId)
  apply takes_field (takes_le64 pdu.windowId)
  apply takes_field (takes_le32 pdu.mappedWidth)
  apply takes_field (takes_le32 pdu.mappedHeight)
  apply takes_field (takes_le32 pdu.targetWidth)
  apply takes_field (takes_le32 pdu.targetHeight)
  exact takes_done _

theorem takes_endFrame (pdu : EndFramePdu) : Takes EndFramePdu.decode pdu.encode pdu := by
  apply Takes.ensured _ (Nat.le_refl 4)
  apply takes_field (takes_le32 pdu.frameId)
  exact takes_done _

theorem takes_qoeFrameAcknowledge (pdu : QoeFrameAcknowledgePdu) :
    Takes QoeFrameAcknowledgePdu.decode pdu.encode pdu := by
  apply Takes.ensured _ (Nat.le_refl 12)
  apply takes_field (takes_le32 pdu.frameId)
  apply takes_field (takes_le32 pdu.timestamp)
  apply takes_field (takes_le16 pdu.timeDiffSe)
  apply takes_field (takes_le16 pdu.timeDiffDr)
  exact takes_done _

/-- Each field fits in its bits. -/
structure Timestamp.Fits (t : Timestamp) : Prop where
  milliseconds : t.milliseconds.toNat < 2 ^ 10
  seconds : t.seconds.toNat < 2 ^ 6
  minutes : t.minutes.toNat < 2 ^ 6
  hours : t.hours.toNat < 2 ^ 10

theorem ofNatBits_toNat {t : Timestamp} (h : t.Fits) : Timestamp.ofNatBits t.toNat = t := by
  obtain ⟨hmilliseconds, hseconds, hminutes, hhours⟩ := h
  have h1 : t.toNat % 2 ^ 10 = t.milliseconds.toNat := by
    unfold Timestamp.toNat
    omega
  have h2 : t.toNat / 2 ^ 10 % 2 ^ 6 = t.seconds.toNat := by
    unfold Timestamp.toNat
    omega
  have h3 : t.toNat / 2 ^ 16 % 2 ^ 6 = t.minutes.toNat := by
    unfold Timestamp.toNat
    omega
  have h4 : t.toNat / 2 ^ 22 % 2 ^ 10 = t.hours.toNat := by
    unfold Timestamp.toNat
    omega
  unfold Timestamp.ofNatBits
  rw [h1, h2, h3, h4, UInt16.ofNat_toNat, UInt8.ofNat_toNat, UInt8.ofNat_toNat, UInt16.ofNat_toNat]

theorem takes_timestamp {t : Timestamp} (h : t.Fits) : Takes Timestamp.decode t.encode t := by
  have hlt : t.toNat < 2 ^ 32 := by
    obtain ⟨hmilliseconds, hseconds, hminutes, hhours⟩ := h
    unfold Timestamp.toNat
    omega
  have hread : Takes (do return Timestamp.ofNatBits (← readU32)) t.encode (.ofNatBits t.toNat) :=
    (takes_readU32 hlt).bind_nil (.pure _)
  rw [ofNatBits_toNat h] at hread
  exact hread.ensured (Nat.le_refl 4)

theorem takes_startFrame {pdu : StartFramePdu} (h : pdu.timestamp.Fits) :
    Takes StartFramePdu.decode pdu.encode pdu := by
  apply Takes.ensured _ (Nat.le_refl 8)
  apply takes_field (takes_timestamp h)
  apply takes_field (takes_le32 pdu.frameId)
  exact takes_done _

/-- The bytes that are available are none of the two special values. -/
def QueueDepth.Proper : QueueDepth → Prop
  | availableBytes v => v ≠ 0 ∧ v ≠ 0xFFFFFFFF
  | _ => True

theorem fromU32_toU32 {d : QueueDepth} (h : d.Proper) : QueueDepth.fromU32 d.toU32 = d := by
  cases d with
  | unavailable => rfl
  | availableBytes v =>
      unfold QueueDepth.fromU32 QueueDepth.toU32
      rw [if_neg h.1, if_neg h.2]
  | suspend => rfl

theorem takes_frameAcknowledge {pdu : FrameAcknowledgePdu} (h : pdu.queueDepth.Proper) :
    Takes FrameAcknowledgePdu.decode pdu.encode pdu := by
  apply Takes.ensured _ (Nat.le_refl 12)
  apply takes_field (takes_le32 pdu.queueDepth.toU32)
  apply takes_field (takes_le32 pdu.frameId)
  apply takes_field (takes_le32 pdu.totalFramesDecoded)
  rw [fromU32_toU32 h]
  exact takes_done pdu

/-! ### PDUs with lists and data -/

theorem takes_wireToSurface1 {pdu : WireToSurface1Pdu} {bytes : Bytes} (h : pdu.encode = .ok bytes) :
    Takes WireToSurface1Pdu.decode bytes pdu := by
  obtain ⟨count, hcount, h⟩ := bind_eq_ok h
  obtain ⟨hfits, rfl⟩ := castLength_eq_ok hcount
  rw [← Except.ok.inj h]
  apply Takes.ensured
  · apply takes_field (takes_le16 pdu.surfaceId)
    apply takes_field (takes_codec1 pdu.codecId)
    apply takes_field (takes_pixelFormat pdu.pixelFormat)
    apply takes_field (takes_rectangle pdu.destinationRectangle)
    apply takes_field (takes_readU32 hfits)
    apply Takes.ensured
    · apply takes_field (takes_readSlice rfl)
      exact takes_done pdu
    · rw [List.flatten_singleton]
  · exact Nat.le_add_left 17 (pdu.bitmapData ++ []).length

theorem takes_wireToSurface2 {pdu : WireToSurface2Pdu} {bytes : Bytes} (h : pdu.encode = .ok bytes) :
    Takes WireToSurface2Pdu.decode bytes pdu := by
  obtain ⟨count, hcount, h⟩ := bind_eq_ok h
  obtain ⟨hfits, rfl⟩ := castLength_eq_ok hcount
  rw [← Except.ok.inj h]
  apply Takes.ensured
  · apply takes_field (takes_le16 pdu.surfaceId)
    apply takes_field (takes_le16 remoteFxProgressive)
    apply (takes_lift rfl).bind
    apply takes_field (takes_le32 pdu.codecContextId)
    apply takes_field (takes_pixelFormat pdu.pixelFormat)
    apply takes_field (takes_readU32 hfits)
    apply Takes.ensured
    · apply takes_field (takes_readSlice rfl)
      exact takes_done pdu
    · rw [List.flatten_singleton]
  · exact Nat.le_add_left 13 (pdu.bitmapData ++ []).length

theorem takes_solidFill {pdu : SolidFillPdu} {bytes : Bytes} (h : pdu.encode = .ok bytes) :
    Takes SolidFillPdu.decode bytes pdu := by
  obtain ⟨count, hcount, h⟩ := bind_eq_ok h
  obtain ⟨hfits, rfl⟩ := castLength_eq_ok hcount
  rw [← Except.ok.inj h]
  apply Takes.ensured
  · apply takes_field (takes_le16 pdu.surfaceId)
    apply takes_field (takes_color pdu.fillPixel)
    apply takes_field (takes_readU16 hfits)
    apply Takes.ensured
    · apply takes_field (takes_repeatWith fun r _ => takes_rectangle r)
      exact takes_done pdu
    · rw [List.flatten_singleton, length_flatMap_of_length ExclusiveRectangle.encode 8 fun _ => rfl]
  · exact Nat.le_add_left 8 (pdu.rectangles.flatMap ExclusiveRectangle.encode ++ []).length

theorem takes_surfaceToSurface {pdu : SurfaceToSurfacePdu} {bytes : Bytes} (h : pdu.encode = .ok bytes) :
    Takes SurfaceToSurfacePdu.decode bytes pdu := by
  obtain ⟨count, hcount, h⟩ := bind_eq_ok h
  obtain ⟨hfits, rfl⟩ := castLength_eq_ok hcount
  rw [← Except.ok.inj h]
  apply Takes.ensured
  · apply takes_field (takes_le16 pdu.sourceSurfaceId)
    apply takes_field (takes_le16 pdu.destinationSurfaceId)
    apply takes_field (takes_rectangle pdu.sourceRectangle)
    apply takes_field (takes_readU16 hfits)
    apply takes_field (takes_repeatWith fun p _ => takes_point p)
    exact takes_done pdu
  · exact Nat.le_add_left 14 (pdu.destinationPoints.flatMap Point.encode ++ []).length

theorem takes_cacheToSurface {pdu : CacheToSurfacePdu} {bytes : Bytes} (h : pdu.encode = .ok bytes) :
    Takes CacheToSurfacePdu.decode bytes pdu := by
  obtain ⟨count, hcount, h⟩ := bind_eq_ok h
  obtain ⟨hfits, rfl⟩ := castLength_eq_ok hcount
  rw [← Except.ok.inj h]
  apply Takes.ensured
  · apply takes_field (takes_le16 pdu.cacheSlot)
    apply takes_field (takes_le16 pdu.surfaceId)
    apply takes_field (takes_readU16 hfits)
    apply takes_field (takes_repeatWith fun p _ => takes_point p)
    exact takes_done pdu
  · exact Nat.le_add_left 6 (pdu.destinationPoints.flatMap Point.encode ++ []).length

theorem takes_cacheImportOffer {pdu : CacheImportOfferPdu} {bytes : Bytes} (h : pdu.encode = .ok bytes) :
    Takes CacheImportOfferPdu.decode bytes pdu := by
  obtain ⟨count, hcount, h⟩ := bind_eq_ok h
  obtain ⟨hfits, rfl⟩ := castLength_eq_ok hcount
  rw [← Except.ok.inj h]
  apply Takes.ensured
  · apply takes_field (takes_readU16 hfits)
    apply takes_field (takes_repeatWith fun e _ => takes_cacheEntryMetadata e)
    exact takes_done pdu
  · exact Nat.le_add_left 2 (pdu.cacheEntries.flatMap CacheEntryMetadata.encode ++ []).length

theorem takes_cacheImportReply {pdu : CacheImportReplyPdu} {bytes : Bytes} (h : pdu.encode = .ok bytes) :
    Takes CacheImportReplyPdu.decode bytes pdu := by
  obtain ⟨count, hcount, h⟩ := bind_eq_ok h
  obtain ⟨hfits, rfl⟩ := castLength_eq_ok hcount
  rw [← Except.ok.inj h]
  apply Takes.ensured
  · apply takes_field (takes_readU16 hfits)
    apply Takes.ensured
    · apply takes_field (takes_repeatWith fun slot _ => takes_le16 slot)
      exact takes_done pdu
    · rw [List.flatten_singleton, length_flatMap_of_length le16 2 fun _ => rfl, Nat.mul_comm]
  · exact Nat.le_add_left 2 (pdu.cacheSlots.flatMap le16 ++ []).length

/-- What the decoder accepts. -/
structure ResetGraphicsPdu.WellFormed (pdu : ResetGraphicsPdu) : Prop where
  width : pdu.width.toNat ≤ maxWidthHeight
  height : pdu.height.toNat ≤ maxWidthHeight
  monitors : pdu.monitors.length ≤ monitorCountMax

theorem takes_resetGraphics {pdu : ResetGraphicsPdu} {bytes : Bytes} (hpdu : pdu.WellFormed)
    (h : pdu.encode = .ok bytes) : Takes ResetGraphicsPdu.decode bytes pdu := by
  obtain ⟨hwidth, hheight, hmonitors⟩ := hpdu
  obtain ⟨count, hcount, h⟩ := bind_eq_ok h
  obtain ⟨hfits, rfl⟩ := castLength_eq_ok hcount
  rw [← Except.ok.inj h]
  apply Takes.ensured
  · apply takes_field (takes_le32 pdu.width)
    rw [if_neg (Nat.not_lt.mpr hwidth)]
    apply takes_field (takes_le32 pdu.height)
    rw [if_neg (Nat.not_lt.mpr hheight)]
    apply takes_field (takes_readU32 hfits)
    rw [if_neg (Nat.not_lt.mpr hmonitors)]
    apply takes_field (takes_repeatWith fun m _ => takes_monitor m)
    apply takes_field (takes_readSlice List.length_replicate)
    exact takes_done pdu
  · exact Nat.le_add_left 12
      (pdu.monitors.flatMap Monitor.encode ++ (List.replicate pdu.paddingSize 0 ++ [])).length

theorem takes_rawCapabilitySet {s : RawCapabilitySet} {bytes : Bytes} (h : s.encode = .ok bytes) :
    Takes RawCapabilitySet.decode bytes s := by
  obtain ⟨count, hcount, h⟩ := bind_eq_ok h
  obtain ⟨hfits, rfl⟩ := castLength_eq_ok hcount
  rw [← Except.ok.inj h]
  apply Takes.ensured
  · apply takes_field (takes_le32 s.version)
    apply takes_field (takes_readU32 hfits)
    apply Takes.ensured
    · apply takes_field (takes_readSlice rfl)
      exact takes_done s
    · rw [List.flatten_singleton]
  · exact Nat.le_add_left 8 (s.data ++ []).length

theorem length_rawCapabilitySet {s : RawCapabilitySet} {bytes : Bytes} (h : s.encode = .ok bytes) :
    8 ≤ bytes.length := by
  obtain ⟨count, hcount, h⟩ := bind_eq_ok h
  obtain ⟨_, rfl⟩ := castLength_eq_ok hcount
  rw [← Except.ok.inj h]
  exact Nat.le_add_left 8 (s.data ++ []).length

/-- Sets that were all encoded are decoded one after the other, and none has fewer than eight bytes. -/
theorem takes_rawCapabilitySets {sets : List RawCapabilitySet} {parts : List Bytes}
    (h : sets.mapM RawCapabilitySet.encode = .ok parts) :
    Takes (repeatWith RawCapabilitySet.decode sets.length) parts.flatten sets ∧
      sets.length * 8 ≤ parts.flatten.length := by
  induction sets generalizing parts with
  | nil =>
      rw [← Except.ok.inj h]
      exact ⟨.pure [], Nat.zero_le _⟩
  | cons s sets ih =>
      rw [List.mapM_cons] at h
      obtain ⟨bytes, hbytes, h⟩ := bind_eq_ok h
      obtain ⟨rest, hrest, h⟩ := bind_eq_ok h
      obtain ⟨htakes, hlength⟩ := ih hrest
      have hlong := length_rawCapabilitySet hbytes
      rw [← Except.ok.inj h, List.flatten_cons, List.length_append, List.length_cons]
      constructor
      · exact (takes_rawCapabilitySet hbytes).bind (htakes.bind_nil (.pure _))
      · omega

theorem takes_capabilitiesAdvertise {pdu : CapabilitiesAdvertisePdu} {bytes : Bytes} (h : pdu.encode = .ok bytes) :
    Takes CapabilitiesAdvertisePdu.decode bytes pdu := by
  obtain ⟨count, hcount, h⟩ := bind_eq_ok h
  obtain ⟨parts, hparts, h⟩ := bind_eq_ok h
  obtain ⟨hfits, rfl⟩ := castLength_eq_ok hcount
  obtain ⟨htakes, hlength⟩ := takes_rawCapabilitySets hparts
  rw [← Except.ok.inj h]
  apply Takes.ensured
  · apply takes_field (takes_readU16 hfits)
    apply Takes.ensured
    · apply takes_field htakes
      exact takes_done pdu
    · rw [List.flatten_singleton]
      exact hlength
  · exact Nat.le_add_left 2 (parts.flatten ++ []).length

/-! ### All PDUs -/

namespace GfxPdu

/-- No field is out of its range. -/
def WellFormed : GfxPdu → Prop
  | startFrame pdu => pdu.timestamp.Fits
  | frameAcknowledge pdu => pdu.queueDepth.Proper
  | resetGraphics pdu => pdu.WellFormed
  | _ => True

theorem takes_body {pdu : GfxPdu} {body : Bytes} (hpdu : pdu.WellFormed) (h : pdu.encodeBody = .ok body) :
    Takes (decodeBody pdu.cmdid) body pdu := by
  cases pdu with
  | wireToSurface1 pdu => exact (takes_wireToSurface1 h).bind_nil (.pure _)
  | wireToSurface2 pdu => exact (takes_wireToSurface2 h).bind_nil (.pure _)
  | deleteEncodingContext pdu => cases h; exact (takes_deleteEncodingContext pdu).bind_nil (.pure _)
  | solidFill pdu => exact (takes_solidFill h).bind_nil (.pure _)
  | surfaceToSurface pdu => exact (takes_surfaceToSurface h).bind_nil (.pure _)
  | surfaceToCache pdu => cases h; exact (takes_surfaceToCache pdu).bind_nil (.pure _)
  | cacheToSurface pdu => exact (takes_cacheToSurface h).bind_nil (.pure _)
  | evictCacheEntry pdu => cases h; exact (takes_evictCacheEntry pdu).bind_nil (.pure _)
  | createSurface pdu => cases h; exact (takes_createSurface pdu).bind_nil (.pure _)
  | deleteSurface pdu => cases h; exact (takes_deleteSurface pdu).bind_nil (.pure _)
  | startFrame pdu => cases h; exact (takes_startFrame hpdu).bind_nil (.pure _)
  | endFrame pdu => cases h; exact (takes_endFrame pdu).bind_nil (.pure _)
  | frameAcknowledge pdu => cases h; exact (takes_frameAcknowledge hpdu).bind_nil (.pure _)
  | resetGraphics pdu => exact (takes_resetGraphics hpdu h).bind_nil (.pure _)
  | mapSurfaceToOutput pdu => cases h; exact (takes_mapSurfaceToOutput pdu).bind_nil (.pure _)
  | cacheImportOffer pdu => exact (takes_cacheImportOffer h).bind_nil (.pure _)
  | cacheImportReply pdu => exact (takes_cacheImportReply h).bind_nil (.pure _)
  | capabilitiesAdvertise pdu => exact (takes_capabilitiesAdvertise h).bind_nil (.pure _)
  | capabilitiesConfirm pdu => exact (takes_rawCapabilitySet h).bind_nil (.pure _)
  | mapSurfaceToWindow pdu => cases h; exact (takes_mapSurfaceToWindow pdu).bind_nil (.pure _)
  | qoeFrameAcknowledge pdu => cases h; exact (takes_qoeFrameAcknowledge pdu).bind_nil (.pure _)
  | mapSurfaceToScaledOutput pdu => cases h; exact (takes_mapSurfaceToScaledOutput pdu).bind_nil (.pure _)
  | mapSurfaceToScaledWindow pdu => cases h; exact (takes_mapSurfaceToScaledWindow pdu).bind_nil (.pure _)

theorem cmdid_lt (pdu : GfxPdu) : pdu.cmdid < 2 ^ 16 := by
  cases pdu <;> simp only [cmdid] <;> omega

theorem takes_encode {pdu : GfxPdu} {bytes : Bytes} (hpdu : pdu.WellFormed) (h : pdu.encode = .ok bytes) :
    Takes decode bytes pdu := by
  obtain ⟨body, hbody, h⟩ := bind_eq_ok h
  obtain ⟨pduSize, hsize, h⟩ := bind_eq_ok h
  obtain ⟨hfits, rfl⟩ := castLength_eq_ok hsize
  rw [← Except.ok.inj h]
  apply Takes.ensured
  · apply takes_field (takes_readU16 pdu.cmdid_lt)
    apply takes_field (takes_le16 0)
    apply takes_field (takes_readU32 hfits)
    rw [if_neg (Nat.not_lt.mpr (Nat.le_add_left 8 body.length)), List.flatten_singleton]
    exact takes_body hpdu hbody
  · exact Nat.le_add_left 8 (body ++ []).length

theorem fromLeBytes_eq (b₀ b₁ b₂ b₃ : UInt8) : Gfx.fromLeBytes b₀ b₁ b₂ b₃ = ofLeBytes [b₀, b₁, b₂, b₃] := by
  unfold Gfx.fromLeBytes ofLeBytes
  simp only [List.map_cons, List.map_nil, Nat.ofDigits_cons, Nat.ofDigits_nil]
  omega

/-- The length in the header is that of the PDU. -/
theorem pduLength_encode {pdu : GfxPdu} {bytes : Bytes} (h : pdu.encode = .ok bytes) :
    Gfx.pduLength bytes = some bytes.length := by
  obtain ⟨body, hbody, h⟩ := bind_eq_ok h
  obtain ⟨pduSize, hsize, h⟩ := bind_eq_ok h
  obtain ⟨hfits, rfl⟩ := castLength_eq_ok hsize
  rw [← Except.ok.inj h]
  calc Gfx.pduLength [toLeBytes 2 pdu.cmdid, le16 0, toLeBytes 4 (body.length + 8), body].flatten
      = some (ofLeBytes (toLeBytes 4 (body.length + 8))) := congrArg some (fromLeBytes_eq _ _ _ _)
    _ = some (body.length + 8) := by rw [ofLeBytes_toLeBytes hfits]
    _ = some ((body ++ []).length + 8) := by rw [List.append_nil]
    _ = some [toLeBytes 2 pdu.cmdid, le16 0, toLeBytes 4 (body.length + 8), body].flatten.length := rfl

theorem header_le_encode {pdu : GfxPdu} {bytes : Bytes} (h : pdu.encode = .ok bytes) : 8 ≤ bytes.length := by
  obtain ⟨body, hbody, h⟩ := bind_eq_ok h
  obtain ⟨pduSize, hsize, h⟩ := bind_eq_ok h
  obtain ⟨_, rfl⟩ := castLength_eq_ok hsize
  rw [← Except.ok.inj h]
  exact Nat.le_add_left 8 (body ++ []).length

theorem gfx_pdu_round_trip {pdu : GfxPdu} {bytes : Bytes} (hpdu : pdu.WellFormed) (h : pdu.encode = .ok bytes) :
    (∀ rest, decode (bytes ++ rest) = .ok (pdu, rest)) ∧ Gfx.pduLength bytes = some bytes.length :=
  ⟨(takes_encode hpdu h).run, pduLength_encode h⟩

theorem gfx_pdu_round_trip_frame :
    (∀ rest, decode ([11, 0, 0, 0, 16, 0, 0, 0, 231, 239, 251, 5, 7, 0, 0, 0] ++ rest) =
        .ok (startFrame ⟨⟨999, 59, 59, 23⟩, 7⟩, rest)) ∧
      Gfx.pduLength [11, 0, 0, 0, 16, 0, 0, 0, 231, 239, 251, 5, 7, 0, 0, 0] = some 16 :=
  have hpdu : (startFrame ⟨⟨999, 59, 59, 23⟩, 7⟩).WellFormed := ⟨by decide, by decide, by decide, by decide⟩
  gfx_pdu_round_trip hpdu rfl

end GfxPdu

end Drift.Egfx
