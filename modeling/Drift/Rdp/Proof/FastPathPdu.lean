import Drift.Egfx.Proof.Pdu
import Drift.Lib.Chunks
import Drift.Rdp.FastPathPdu
import Drift.Rdp.Greeter

/-!
# Input reaches the server

What a server reads of a frame is what the encoder meant, and a frame is refused for exactly one size, which no
frame of a typed password has.
-/

namespace Drift

open Reader

/-! ### Lengths -/

namespace Per

theorem short_length : ∀ n : Fin 128, (UInt16.ofNat n).toUInt8 &&& 0x80 = 0 ∧
    (UInt16.ofNat n).toUInt8.toUInt16 = UInt16.ofNat n := by decide

theorem long_length : ∀ high : Fin 128, UInt8.ofNat (high + 128) &&& 0x80 ≠ 0 ∧
    ((UInt8.ofNat (high + 128)).toUInt16 &&& 0xFF7F) <<< 8 = UInt16.ofNat (high * 256) := by decide

theorem takes_short {length : UInt16} (h : length.toNat ≤ 0x7f) :
    Takes readLength [length.toUInt8] (length, 1) := by
  obtain ⟨hbit, hsame⟩ := short_length ⟨length.toNat, by omega⟩
  rw [UInt16.ofNat_toNat] at hbit hsame
  apply Takes.ensured _ (Nat.le_refl 1)
  apply (takes_readU8 _).bind_nil
  rw [if_neg (not_not_intro hbit), hsame]
  exact .pure _

theorem toNat_long {length : UInt16} (h : length.toNat < 0x8000) :
    (length ||| 0x8000).toNat = length.toNat + 0x8000 := by
  have hor := Nat.two_pow_add_eq_or_of_lt (a := 1) (show length.toNat < 2 ^ 15 from h)
  rw [UInt16.toNat_or, Nat.or_comm]
  change 2 ^ 15 * 1 ||| length.toNat = _
  rw [← hor]
  omega

theorem takes_long {length : UInt16} (h : length.toNat < 0x8000) :
    Takes readLength [((length ||| 0x8000) >>> 8).toUInt8, (length ||| 0x8000).toUInt8] (length, 2) := by
  have hhigh : length.toNat / 256 < 128 := by omega
  obtain ⟨hbit, hshift⟩ := long_length ⟨length.toNat / 256, hhigh⟩
  have hfirst : ((length ||| 0x8000) >>> 8).toUInt8 = UInt8.ofNat (length.toNat / 256 + 128) := by
    apply UInt8.toNat_inj.mp
    rw [UInt16.toNat_toUInt8, UInt16.toNat_shiftRight, toNat_long h, UInt8.toNat_ofNat']
    change (length.toNat + 0x8000) >>> 8 % 256 = (length.toNat / 256 + 128) % 256
    rw [Nat.shiftRight_eq_div_pow]
    omega
  have hlast : ((length ||| 0x8000).toUInt8).toUInt16 = UInt16.ofNat (length.toNat % 256) := by
    apply UInt16.toNat_inj.mp
    rw [UInt8.toNat_toUInt16, UInt16.toNat_toUInt8, toNat_long h, UInt16.toNat_ofNat']
    omega
  have hsum : UInt16.ofNat (length.toNat / 256 * 256) + UInt16.ofNat (length.toNat % 256) = length := by
    rw [← UInt16.ofNat_add, Nat.div_add_mod', UInt16.ofNat_toNat]
  apply Takes.ensured _ (Nat.le_succ 1)
  apply (takes_readU8 _).bind (v := [_])
  rw [hfirst, if_pos hbit]
  apply Takes.ensured _ (Nat.le_refl 1)
  apply (takes_readU8 _).bind_nil
  rw [hshift, hlast, hsum]
  exact .pure _

theorem takes_readLength {length : UInt16} (h : length.toNat < 0x8000) :
    Takes readLength (writeLength length) (length, sizeofLength length.toNat) := by
  unfold writeLength sizeofLength
  by_cases hlong : length > 0x7f
  · have hnat : length.toNat > 0x7f := UInt16.lt_iff_toNat_lt.mp hlong
    rw [if_pos hlong, if_pos hnat]
    exact takes_long h
  · have hnat : length.toNat ≤ 0x7f := UInt16.le_iff_toNat_le.mp (UInt16.not_lt.mp hlong)
    rw [if_neg hlong, if_neg (Nat.not_lt.mpr hnat)]
    exact takes_short hnat

theorem length_writeLength (length : UInt16) : (writeLength length).length = sizeofLength length.toNat := by
  unfold writeLength sizeofLength
  by_cases hlong : length > 0x7f
  · have hnat : length.toNat > 0x7f := UInt16.lt_iff_toNat_lt.mp hlong
    rw [if_pos hlong, if_pos hnat]
    rfl
  · have hnat : length.toNat ≤ 0x7f := UInt16.le_iff_toNat_le.mp (UInt16.not_lt.mp hlong)
    rw [if_neg hlong, if_neg (Nat.not_lt.mpr hnat)]
    rfl

end Per

namespace Rdp

open Egfx (le16 le32 readLe16 readLe32 takes_le16 takes_le32)
open Gfx (getBits)

/-! ### Events -/

namespace FastPathInputEventPdu

/-- Five bits for the flags, and no relative movement. -/
def WellFormed : FastPathInputEventPdu → Prop
  | mouseEventRel _ => False
  | e => e.flags < 32

/-- What is read of an event: the units of a wheel stay in the flags. -/
def seen : FastPathInputEventPdu → FastPathInputEventPdu
  | mouseEvent pdu =>
    mouseEvent { pdu with flags := pdu.bits, numberOfWheelRotationUnits := MousePdu.unitsOf pdu.bits }
  | e => e

theorem header_bits : ∀ (flags : Fin 32) (code : Fin 7),
    getBits (setBits (setBits 0 0 5 (.ofNat flags)) 5 8 (.ofNat code)) 0 5 = .ofNat flags ∧
      getBits (setBits (setBits 0 0 5 (.ofNat flags)) 5 8 (.ofNat code)) 5 8 = .ofNat code := by decide

theorem code_lt (e : FastPathInputEventPdu) : e.code.toNat < 7 := by
  cases e <;> exact Nat.le_of_ble_eq_true rfl

theorem getBits_header {e : FastPathInputEventPdu} (h : e.flags < 32) :
    getBits e.header 0 5 = e.flags ∧ getBits e.header 5 8 = e.code := by
  have hbits := header_bits ⟨e.flags.toNat, UInt8.lt_iff_toNat_lt.mp h⟩ ⟨e.code.toNat, e.code_lt⟩
  rwa [UInt8.ofNat_toNat, UInt8.ofNat_toNat] at hbits

theorem takes_mousePdu (pdu : MousePdu) :
    Takes MousePdu.decode pdu.encode
      { pdu with flags := pdu.bits, numberOfWheelRotationUnits := MousePdu.unitsOf pdu.bits } := by
  apply Takes.ensured
  · apply takes_field (takes_le16 pdu.bits)
    apply takes_field (takes_le16 pdu.xPosition)
    apply takes_field (takes_le16 pdu.yPosition)
    exact takes_done _
  · exact Nat.le_refl 6

theorem takes_mouseXPdu (pdu : MouseXPdu) : Takes MouseXPdu.decode pdu.encode pdu := by
  apply Takes.ensured
  · apply takes_field (takes_le16 pdu.flags)
    apply takes_field (takes_le16 pdu.xPosition)
    apply takes_field (takes_le16 pdu.yPosition)
    exact takes_done _
  · exact Nat.le_refl 6

theorem takes_decodeBody {e : FastPathInputEventPdu} (h : e.WellFormed) :
    Takes (decodeBody e.flags e.code) e.body e.seen := by
  cases e with
  | keyboardEvent flags code =>
      exact Takes.ensured ((takes_readU8 code).bind_nil (.pure (keyboardEvent flags code))) (Nat.le_refl 1)
  | unicodeKeyboardEvent flags code =>
      exact Takes.ensured ((takes_le16 code).bind_nil (.pure (unicodeKeyboardEvent flags code))) (Nat.le_refl 2)
  | mouseEvent pdu => exact (takes_mousePdu pdu).bind_nil (.pure _)
  | mouseEventEx pdu => exact (takes_mouseXPdu pdu).bind_nil (.pure _)
  | mouseEventRel pdu => exact h.elim
  | qoeEvent stamp => exact Takes.ensured ((takes_le32 stamp).bind_nil (.pure (qoeEvent stamp))) (Nat.le_refl 4)
  | syncEvent flags => exact .pure _

theorem WellFormed.flags {e : FastPathInputEventPdu} (h : e.WellFormed) : e.flags < 32 := by
  cases e with
  | mouseEventRel pdu => exact h.elim
  | _ => exact h

theorem takes_decode {e : FastPathInputEventPdu} (h : e.WellFormed) : Takes decode e.encode e.seen := by
  obtain ⟨hflags, hcode⟩ := getBits_header h.flags
  apply Takes.ensured
  · apply (takes_readU8 e.header).bind (v := e.body)
    rw [hflags, hcode]
    exact takes_decodeBody h
  · exact Nat.succ_le_succ (Nat.zero_le _)

theorem length_encode {e : FastPathInputEventPdu} (h : e.WellFormed) : e.encode.length = e.size := by
  cases e with
  | mouseEventRel pdu => exact h.elim
  | _ => rfl

theorem size_pos (e : FastPathInputEventPdu) : 0 < e.size := by
  cases e <;> exact Nat.le_of_ble_eq_true rfl

theorem size_le (e : FastPathInputEventPdu) : e.size ≤ 7 := by
  cases e <;> exact Nat.le_of_ble_eq_true rfl

end FastPathInputEventPdu

/-! ### Frames -/

namespace FastPathInput

variable {events : List FastPathInputEventPdu}

theorem dataLength_cons (e : FastPathInputEventPdu) (events : List FastPathInputEventPdu) :
    dataLength (e :: events) = e.size + dataLength events := List.sum_cons

theorem dataLength_bounds (events : List FastPathInputEventPdu) :
    events.length ≤ dataLength events ∧ dataLength events ≤ events.length * 7 := by
  induction events with
  | nil => exact ⟨Nat.le_refl 0, Nat.le_refl 0⟩
  | cons e events ih =>
      have hpos := e.size_pos
      have hle := e.size_le
      rw [dataLength_cons, List.length_cons]
      omega

theorem encodeEvents_ok {room : Nat} (h : ∀ e ∈ events, e.WellFormed) (hroom : dataLength events ≤ room) :
    encodeEvents events room = .ok (events.flatMap FastPathInputEventPdu.encode) := by
  induction events generalizing room with
  | nil => rfl
  | cons e events ih =>
      obtain ⟨he, hevents⟩ := List.forall_mem_cons.mp h
      rw [dataLength_cons] at hroom
      have hlength := FastPathInputEventPdu.length_encode he
      have hrest : encodeEvents events (room - e.encode.length) = _ := ih hevents (by omega)
      unfold encodeEvents
      rw [if_neg (by omega), hrest]
      rfl

theorem encodeEvents_error {room : Nat} (h : ∀ e ∈ events, e.WellFormed) (hroom : room < dataLength events) :
    ∃ error, encodeEvents events room = .error error := by
  induction events generalizing room with
  | nil => exact absurd hroom (Nat.not_lt_zero _)
  | cons e events ih =>
      obtain ⟨he, hevents⟩ := List.forall_mem_cons.mp h
      rw [dataLength_cons] at hroom
      unfold encodeEvents
      by_cases hfirst : room < e.size
      · rw [if_pos hfirst]
        exact ⟨_, rfl⟩
      · have hlength := FastPathInputEventPdu.length_encode he
        have hless : room - e.encode.length < dataLength events := by omega
        obtain ⟨error, herror⟩ := ih hevents hless
        rw [if_neg hfirst, herror]
        exact ⟨error, rfl⟩

theorem length_flatMap_encode (h : ∀ e ∈ events, e.WellFormed) :
    (events.flatMap FastPathInputEventPdu.encode).length = dataLength events := by
  induction events with
  | nil => rfl
  | cons e events ih =>
      obtain ⟨he, hevents⟩ := List.forall_mem_cons.mp h
      rw [List.flatMap_cons, List.length_append, FastPathInputEventPdu.length_encode he, ih hevents, dataLength_cons]

/-- The size for which the header takes more room than it says. -/
def Misfit (events : List FastPathInputEventPdu) : Prop :=
  dataLength events + (header events).numEventsLength + 1 = 0x7f

/-- The length of the frame as its header tells it. -/
def total (events : List FastPathInputEventPdu) : Nat := dataLength events + (header events).size

theorem total_eq (events : List FastPathInputEventPdu) : total events = dataLength events +
    (1 + Per.sizeofLength (dataLength events + (header events).numEventsLength + 1) +
      (header events).numEventsLength) := rfl

theorem numEventsLength_le (h : FastPathInputHeader) : h.numEventsLength ≤ 1 := by
  unfold FastPathInputHeader.numEventsLength
  by_cases hfew : h.numEvents < 16
  · rw [if_pos hfew]
    exact Nat.zero_le 1
  · rw [if_neg hfew]

theorem sizeofLength_le (length : Nat) : Per.sizeofLength length ≤ 2 := by
  unfold Per.sizeofLength
  by_cases hlong : length > 0x7f
  · rw [if_pos hlong]
  · rw [if_neg hlong]
    exact Nat.le_succ 1

theorem total_lt (hcount : events.length ≤ maxEvents) : total events < 0x8000 := by
  have hdata := (dataLength_bounds events).2
  have hevents := numEventsLength_le (header events)
  have hlength := sizeofLength_le (dataLength events + (header events).numEventsLength + 1)
  have hmax : maxEvents = 255 := rfl
  rw [total_eq]
  omega

/-- The header takes the room it says, but for one size, where it takes a byte more. -/
theorem sizeofLength_total (events : List FastPathInputEventPdu) :
    (¬ Misfit events →
      1 + Per.sizeofLength (total events) + (header events).numEventsLength = (header events).size) ∧
    (Misfit events →
      1 + Per.sizeofLength (total events) + (header events).numEventsLength = (header events).size + 1) := by
  have hsize : (header events).size = 1 + Per.sizeofLength (dataLength events +
      (header events).numEventsLength + 1) + (header events).numEventsLength := rfl
  rw [total_eq, hsize]
  unfold Misfit
  generalize (header events).numEventsLength = extra
  generalize dataLength events = data
  unfold Per.sizeofLength
  by_cases hlong : data + extra + 1 > 0x7f
  · rw [if_pos hlong, if_pos (by omega)]
    omega
  · rw [if_neg hlong]
    constructor
    · intro hfits
      rw [if_neg (by omega)]
    · intro hmisfit
      rw [if_pos (by omega)]
      omega

/-- The bytes of the header. -/
def headerBytes (events : List FastPathInputEventPdu) : Bytes :=
  [setBits (if (header events).numEvents < 16 then setBits 0 2 7 (header events).numEvents else 0) 6 8 0] ++
    Per.writeLength (.ofNat (total events)) ++
      if (header events).numEvents > 15 then [(header events).numEvents] else []

theorem header_encode (hcount : events.length ≤ maxEvents) :
    (header events).encode = .ok (headerBytes events) := by
  have htotal := total_lt hcount
  have hmax : u16Max = 65535 := rfl
  have hfits : ¬ (header events).dataLength + (header events).size > u16Max := by
    change ¬ total events > u16Max
    omega
  unfold FastPathInputHeader.encode
  simp only [if_neg hfits]
  rfl

theorem few_iff {numEvents : UInt8} : numEvents < 16 ↔ ¬ numEvents > 15 := by
  change numEvents < 16 ↔ ¬ 15 < numEvents
  rw [UInt8.lt_iff_toNat_lt, UInt8.lt_iff_toNat_lt]
  change numEvents.toNat < 16 ↔ ¬ 15 < numEvents.toNat
  omega

theorem few_headerBytes (hfew : (header events).numEvents < 16) : headerBytes events =
    [setBits (setBits 0 2 7 (header events).numEvents) 6 8 0] ++ Per.writeLength (.ofNat (total events)) := by
  unfold headerBytes
  rw [if_pos hfew, if_neg (few_iff.mp hfew), List.append_nil]

theorem many_headerBytes (hmany : ¬ (header events).numEvents < 16) : headerBytes events =
    [setBits 0 6 8 0] ++ (Per.writeLength (.ofNat (total events)) ++ [(header events).numEvents]) := by
  unfold headerBytes
  rw [if_neg hmany, if_pos (not_not.mp (mt few_iff.mpr hmany)), List.append_assoc]

theorem toNat_total (hcount : events.length ≤ maxEvents) : (UInt16.ofNat (total events)).toNat = total events :=
  UInt16.toNat_ofNat_of_lt' (Nat.lt_trans (total_lt hcount) (by decide))

theorem length_headerBytes (hcount : events.length ≤ maxEvents) : (headerBytes events).length =
    1 + Per.sizeofLength (total events) + (header events).numEventsLength := by
  unfold FastPathInputHeader.numEventsLength
  by_cases hfew : (header events).numEvents < 16
  · rw [few_headerBytes hfew, if_pos hfew, List.length_append, Per.length_writeLength, toNat_total hcount]
    rfl
  · rw [many_headerBytes hfew, if_neg hfew, List.length_append, List.length_append, Per.length_writeLength,
      toNat_total hcount, Nat.add_assoc]
    rfl

theorem few_bits : ∀ numEvents : Fin 16,
    getBits (setBits (setBits 0 2 7 (.ofNat numEvents)) 6 8 0) 6 8 = 0 ∧
      getBits (setBits (setBits 0 2 7 (.ofNat numEvents)) 6 8 0) 2 6 = .ofNat numEvents := by decide

theorem toNat_numEvents (hcount : events.length ≤ maxEvents) : (header events).numEvents.toNat = events.length :=
  UInt8.toNat_ofNat_of_lt' (Nat.lt_succ_of_le hcount)

theorem numEvents_ne_zero (hsome : events ≠ []) (hcount : events.length ≤ maxEvents) :
    (header events).numEvents ≠ 0 := by
  intro hzero
  have hlength := toNat_numEvents hcount
  rw [hzero] at hlength
  exact hsome (List.eq_nil_of_length_eq_zero hlength.symm)

theorem takes_header (hsome : events ≠ []) (hcount : events.length ≤ maxEvents) (hfits : ¬ Misfit events) :
    Takes FastPathInputHeader.decode (headerBytes events) (header events) := by
  have hnonzero := numEvents_ne_zero hsome hcount
  have hroom := (sizeofLength_total events).1 hfits
  have htotal : total events = dataLength events + (header events).size := rfl
  have hlt := total_lt hcount
  have hwritten : (UInt16.ofNat (total events)).toNat < 0x8000 := by rwa [toNat_total hcount]
  have htaken := Per.takes_readLength hwritten
  rw [toNat_total hcount] at htaken
  by_cases hfew : (header events).numEvents < 16
  · obtain ⟨hflags, hnum⟩ := few_bits ⟨(header events).numEvents.toNat, UInt8.lt_iff_toNat_lt.mp hfew⟩
    rw [UInt8.ofNat_toNat] at hflags hnum
    have hextra : (header events).numEventsLength = 0 := if_pos hfew
    have hdata : (total events + 2 ^ 64 - Per.sizeofLength (total events) - 1) % 2 ^ 64 = dataLength events := by
      omega
    rw [few_headerBytes hfew]
    apply Takes.ensured
    · apply (takes_readU8 _).bind
      apply htaken.bind_nil
      rw [hflags, hnum]
      unfold FastPathInputHeader.decodeRest
      rw [if_neg (not_not_intro rfl), if_neg hnonzero, toNat_total hcount, hdata]
      exact .pure _
    · exact Nat.succ_le_succ (Nat.zero_le _)
  · have hextra : (header events).numEventsLength = 1 := if_neg hfew
    have hdata : (total events + 2 ^ 64 - Per.sizeofLength (total events) - 1 - 1) % 2 ^ 64 = dataLength events := by
      omega
    rw [many_headerBytes hfew]
    apply Takes.ensured
    · apply (takes_readU8 _).bind
      apply htaken.bind
      have hflags : getBits (setBits 0 6 8 0) 6 8 = 0 := by decide
      have hnum : getBits (setBits 0 6 8 0) 2 6 = 0 := by decide
      rw [hflags, hnum]
      unfold FastPathInputHeader.decodeRest
      rw [if_neg (not_not_intro rfl), if_pos rfl, toNat_total hcount, hdata]
      apply Takes.ensured _ (Nat.le_refl 1)
      exact (takes_readU8 _).bind_nil (.pure _)
    · exact Nat.succ_le_succ (Nat.zero_le _)

/-- A chunk as it is cut from a batch. -/
structure Chunk (events : List FastPathInputEventPdu) : Prop where
  nonempty : events ≠ []
  count : events.length ≤ maxEvents
  wellFormed : ∀ e ∈ events, e.WellFormed

theorem Chunk.new (h : Chunk events) : new events = .ok events :=
  if_pos ⟨List.length_pos_iff.mpr h.nonempty, h.count⟩

/-- The bytes of a frame that fits. -/
def frameBytes (events : List FastPathInputEventPdu) : Bytes :=
  headerBytes events ++ events.flatMap FastPathInputEventPdu.encode

/-- A frame that fits is read as its events. -/
theorem takes_frame (h : Chunk events) (hfits : ¬ Misfit events) :
    Takes decode (frameBytes events) (events.map FastPathInputEventPdu.seen) := by
  have hevents : Takes (Egfx.repeatWith FastPathInputEventPdu.decode events.length)
      (events.flatMap FastPathInputEventPdu.encode) (events.map FastPathInputEventPdu.seen) :=
    Egfx.takes_repeatWith_map fun e he => FastPathInputEventPdu.takes_decode (h.wellFormed e he)
  have hnew : FastPathInput.new (events.map FastPathInputEventPdu.seen) =
      .ok (events.map FastPathInputEventPdu.seen) := by
    apply if_pos
    rw [List.length_map]
    exact ⟨List.length_pos_iff.mpr h.nonempty, h.count⟩
  apply (takes_header h.nonempty h.count hfits).bind
  rw [toNat_numEvents h.count]
  apply hevents.bind_nil
  exact takes_lift hnew

theorem encode_eq (h : Chunk events) : encode events =
    (encodeEvents events (size events - (headerBytes events).length)).map fun body =>
      headerBytes events ++ body ++ List.replicate (size events - (headerBytes events ++ body).length) 0 := by
  have hempty : ¬ events.isEmpty = true := mt List.isEmpty_iff.mp h.nonempty
  unfold encode
  rw [if_neg hempty, header_encode h.count]
  rfl

theorem size_eq (events : List FastPathInputEventPdu) :
    size events = (header events).size + dataLength events := rfl

theorem encode_ok (h : Chunk events) (hfits : ¬ Misfit events) : encode events = .ok (frameBytes events) := by
  have hroom : dataLength events = size events - (headerBytes events).length := by
    rw [length_headerBytes h.count, (sizeofLength_total events).1 hfits, size_eq, Nat.add_sub_cancel_left]
  have hrest : size events - (frameBytes events).length = 0 := by
    unfold frameBytes
    rw [List.length_append, length_flatMap_encode h.wellFormed]
    omega
  rw [encode_eq h, encodeEvents_ok h.wellFormed (Nat.le_of_eq hroom)]
  apply congrArg Except.ok
  change frameBytes events ++ List.replicate (size events - (frameBytes events).length) 0 = _
  rw [hrest, List.replicate_zero, List.append_nil]

theorem encode_misfit (h : Chunk events) (hmisfit : Misfit events) : ∃ error, encode events = .error error := by
  have hpos : 0 < dataLength events :=
    Nat.lt_of_lt_of_le (List.length_pos_iff.mpr h.nonempty) (dataLength_bounds events).1
  have hroom : size events - (headerBytes events).length < dataLength events := by
    rw [length_headerBytes h.count, (sizeofLength_total events).2 hmisfit, size_eq]
    omega
  obtain ⟨error, herror⟩ := encodeEvents_error h.wellFormed hroom
  rw [encode_eq h, herror]
  exact ⟨error, rfl⟩

/-- With few events there is not enough data for it. -/
theorem misfit_iff (hcount : events.length ≤ maxEvents) :
    Misfit events ↔ dataLength events = 125 ∧ 16 ≤ events.length := by
  have hdata := (dataLength_bounds events).2
  have hnum := toNat_numEvents hcount
  unfold Misfit FastPathInputHeader.numEventsLength
  by_cases hfew : (header events).numEvents < 16
  · have hlength : events.length < 16 := hnum ▸ UInt8.lt_iff_toNat_lt.mp hfew
    rw [if_pos hfew]
    omega
  · have hlength : 16 ≤ events.length := hnum ▸ UInt8.le_iff_toNat_le.mp (UInt8.not_lt.mp hfew)
    rw [if_neg hfew]
    omega

end FastPathInput

/-! ### The events of the encoder -/

namespace FastPathInputEvent

open Input

/-- The event can be read back from its PDU. -/
structure Legible (e : FastPathInputEvent) : Prop where
  wellFormed : e.toPdu.WellFormed
  read : ofPdu e.toPdu.seen = some e

theorem legible_keyboard (release extended : Bool) (scancode : UInt8) :
    (keyboardEvent release extended scancode).Legible := by
  constructor
  · cases release <;> cases extended <;> exact Nat.le_of_ble_eq_true rfl
  · cases release <;> cases extended <;> rfl

theorem legible_unicode (release : Bool) (ch : UInt16) : (unicodeKeyboardEvent release ch).Legible := by
  constructor
  · cases release <;> exact Nat.le_of_ble_eq_true rfl
  · cases release <;> rfl

theorem legible_sync (capsLock numLock : Bool) : (syncEvent capsLock numLock).Legible := by
  constructor
  · cases capsLock <;> cases numLock <;> exact Nat.le_of_ble_eq_true rfl
  · cases capsLock <;> cases numLock <;> rfl

theorem legible_extended (flags x y : UInt16) : (mouseEventEx flags x y).Legible where
  wellFormed := Nat.le_of_ble_eq_true rfl
  read := rfl

/-- The flags stay apart from the units. -/
def Apart (flags : UInt16) (units : Int16) : Prop :=
  (⟨flags, units, 0, 0⟩ : MousePdu).bits &&& 0xFE00 = flags ∧
    MousePdu.unitsOf (⟨flags, units, 0, 0⟩ : MousePdu).bits = units

instance decidableApart (flags : UInt16) (units : Int16) : Decidable (Apart flags units) := instDecidableAnd

theorem legible_mouse {flags : UInt16} {units : Int16} (h : Apart flags units) (x y : UInt16) :
    (mouseEvent flags units x y).Legible where
  wellFormed := Nat.le_of_ble_eq_true rfl
  read := by
    change some (mouseEvent ((⟨flags, units, 0, 0⟩ : MousePdu).bits &&& 0xFE00)
      (MousePdu.unitsOf (⟨flags, units, 0, 0⟩ : MousePdu).bits) x y) = _
    rw [h.1, h.2]

theorem legible_button (id : MouseButton) (down : Bool) (x y : UInt16) : (button id down x y).Legible := by
  cases id with
  | left => cases down <;> exact legible_mouse (by decide) x y
  | right => cases down <;> exact legible_mouse (by decide) x y
  | middle => cases down <;> exact legible_mouse (by decide) x y
  | x1 => exact legible_extended _ x y
  | x2 => exact legible_extended _ x y

theorem apart_wheel : ∀ (horizontal : Bool) (units : Fin 511),
    Apart (if horizontal then PointerFlags.horizontalWheel else PointerFlags.verticalWheel)
      (Int16.ofInt (units - 255)) := by decide +kernel

theorem clamp_bounds (units : Int16) :
    -255 ≤ (max (-255) (min 255 units)).toInt ∧ (max (-255) (min 255 units)).toInt ≤ 255 := by
  have hmin : min 255 units = if 255 ≤ units then 255 else units := rfl
  have hmax (x : Int16) : max (-255) x = if -255 ≤ x then x else -255 := rfl
  rw [hmax, hmin]
  by_cases hhigh : 255 ≤ units
  · rw [if_pos hhigh, if_pos (by decide)]
    decide
  · have hlt : units.toInt < 255 := Int16.lt_iff_toInt_lt.mp (Int16.not_le.mp hhigh)
    rw [if_neg hhigh]
    by_cases hlow : -255 ≤ units
    · rw [if_pos hlow]
      exact ⟨Int16.le_iff_toInt_le.mp hlow, Int.le_of_lt hlt⟩
    · rw [if_neg hlow]
      decide

theorem clamped (units : Int16) : ∃ n : Fin 511, max (-255) (min 255 units) = Int16.ofInt (n - 255) := by
  have hbounds := clamp_bounds units
  refine ⟨⟨((max (-255) (min 255 units)).toInt + 255).toNat, by omega⟩, ?_⟩
  change _ = Int16.ofInt (((((max (-255) (min 255 units)).toInt + 255).toNat : Nat) : Int) - 255)
  rw [Int.toNat_of_nonneg (by omega), Int.add_sub_cancel, Int16.ofInt_toInt]

end FastPathInputEvent

namespace InputEncoder

open FastPathInputEvent Input

theorem legible_encode (e : InputEncoder) (event : InputEvent) : ∀ out ∈ (e.encode event).2, out.Legible := by
  intro out hout
  cases event with
  | key scancode extended down =>
      rw [List.eq_of_mem_singleton hout]
      exact legible_keyboard _ _ _
  | unicode ch down =>
      rw [List.eq_of_mem_singleton hout]
      exact legible_unicode _ _
  | mouseMove x y =>
      rw [List.eq_of_mem_singleton hout]
      exact legible_mouse (by decide) x y
  | mouseButton id down x y =>
      rw [List.eq_of_mem_singleton hout]
      exact legible_button id down x y
  | wheel horizontal units =>
      rw [List.eq_of_mem_singleton hout]
      obtain ⟨n, hn⟩ := clamped units
      rw [hn]
      exact legible_mouse (apart_wheel horizontal n) _ _
  | syncToggles caps num =>
      rw [List.eq_of_mem_singleton hout]
      exact legible_sync caps num
  | releaseAll =>
      obtain hkey | hbutton := List.mem_append.mp hout
      · obtain ⟨sc, -, rfl⟩ := List.mem_map.mp hkey
        exact legible_keyboard _ _ _
      · obtain ⟨id, -, rfl⟩ := List.mem_map.mp hbutton
        exact legible_button id false _ _

theorem legible_encodeAll (e : InputEncoder) (inputs : List InputEvent) :
    ∀ out ∈ (e.encodeAll inputs).2, out.Legible := by
  induction inputs generalizing e with
  | nil => exact fun out hout => absurd hout List.not_mem_nil
  | cons event inputs ih =>
      intro out hout
      obtain hfirst | hrest := List.mem_append.mp hout
      · exact e.legible_encode event out hfirst
      · exact ih _ out hrest

end InputEncoder

/-! ### Batches -/

namespace FastPathInput

theorem frames_cons {chunk : List FastPathInputEventPdu} (h : Chunk chunk)
    (chunks : List (List FastPathInputEventPdu)) : ActiveStage.frames (chunk :: chunks) = (do
      let frame ← encode chunk
      let rest ← ActiveStage.frames chunks
      return frame :: rest) := by
  rw [ActiveStage.frames, h.new]
  rfl

theorem frames_ok {chunks : List (List FastPathInputEventPdu)} (h : ∀ chunk ∈ chunks, Chunk chunk)
    (hfits : ∀ chunk ∈ chunks, ¬ Misfit chunk) : ActiveStage.frames chunks = .ok (chunks.map frameBytes) := by
  induction chunks with
  | nil => rfl
  | cons chunk chunks ih =>
      obtain ⟨hchunk, hchunks⟩ := List.forall_mem_cons.mp h
      obtain ⟨hfit, hrest⟩ := List.forall_mem_cons.mp hfits
      rw [frames_cons hchunk, encode_ok hchunk hfit, ih hchunks hrest]
      rfl

theorem takes_frames {chunks : List (List FastPathInputEventPdu)} (h : ∀ chunk ∈ chunks, Chunk chunk)
    (hfits : ∀ chunk ∈ chunks, ¬ Misfit chunk) :
    Takes (Egfx.repeatWith decode chunks.length) (chunks.flatMap frameBytes)
      (chunks.map (List.map FastPathInputEventPdu.seen)) :=
  Egfx.takes_repeatWith_map fun chunk hchunk => takes_frame (h chunk hchunk) (hfits chunk hchunk)

theorem frames_error {chunks : List (List FastPathInputEventPdu)} (h : ∀ chunk ∈ chunks, Chunk chunk)
    (hmisfit : ∃ chunk ∈ chunks, Misfit chunk) : ∃ error, ActiveStage.frames chunks = .error error := by
  obtain ⟨misfit, hmem, hsize⟩ := hmisfit
  induction chunks with
  | nil => exact absurd hmem List.not_mem_nil
  | cons chunk chunks ih =>
      obtain ⟨hchunk, hchunks⟩ := List.forall_mem_cons.mp h
      rw [frames_cons hchunk]
      by_cases hfit : Misfit chunk
      · obtain ⟨error, herror⟩ := encode_misfit hchunk hfit
        rw [herror]
        exact ⟨_, rfl⟩
      · have hlater : misfit ∈ chunks := (List.mem_cons.mp hmem).resolve_left (by rintro rfl; exact hfit hsize)
        obtain ⟨error, herror⟩ := ih hchunks hlater
        rw [encode_ok hchunk hfit, herror]
        exact ⟨_, rfl⟩

theorem chunk_of_legible {events : List FastPathInputEvent} (h : ∀ e ∈ events, e.Legible)
    {chunk : List FastPathInputEventPdu}
    (hchunk : chunk ∈ (events.map FastPathInputEvent.toPdu).toChunks maxEvents) : Chunk chunk := by
  obtain ⟨hall, hchunks⟩ := Chunks.toChunks_spec 254 (events.map FastPathInputEvent.toPdu)
  obtain ⟨hsome, hcount⟩ := hchunks chunk hchunk
  refine ⟨hsome, hcount, ?_⟩
  intro pdu hpdu
  have hmem : pdu ∈ events.map FastPathInputEvent.toPdu := hall ▸ List.mem_flatten.mpr ⟨chunk, hchunk, hpdu⟩
  obtain ⟨e, he, rfl⟩ := List.mem_map.mp hmem
  exact (h e he).wellFormed

theorem read_seen {events : List FastPathInputEvent} (h : ∀ e ∈ events, e.Legible) :
    ((events.map FastPathInputEvent.toPdu).map FastPathInputEventPdu.seen).map FastPathInputEvent.ofPdu =
      events.map some := by
  rw [List.map_map, List.map_map]
  exact List.map_congr_left fun e he => (h e he).read

theorem processFastpathInput_eq (events : List FastPathInputEventPdu) :
    ActiveStage.processFastpathInput events = ActiveStage.frames (events.toChunks maxEvents) := by
  cases events <;> rfl

/-- A batch without the size that cannot be written is read as its events. -/
theorem arrives {events : List FastPathInputEvent} (hlegible : ∀ e ∈ events, e.Legible)
    (hfits : ∀ chunk ∈ (events.map FastPathInputEvent.toPdu).toChunks maxEvents,
      ¬ (dataLength chunk = 125 ∧ 16 ≤ chunk.length)) :
    ∃ frames batches, ActiveStage.processFastpathInput (events.map FastPathInputEvent.toPdu) = .ok frames ∧
      (Egfx.repeatWith decode frames.length) frames.flatten = .ok (batches, []) ∧
      batches.flatten.map FastPathInputEvent.ofPdu = events.map some := by
  have hchunks : ∀ chunk ∈ (events.map FastPathInputEvent.toPdu).toChunks maxEvents, Chunk chunk :=
    fun _ => chunk_of_legible hlegible
  have hmisfits : ∀ chunk ∈ (events.map FastPathInputEvent.toPdu).toChunks maxEvents, ¬ Misfit chunk :=
    fun chunk hchunk => mt (misfit_iff (hchunks chunk hchunk).count).mp (hfits chunk hchunk)
  have hall : ((events.map FastPathInputEvent.toPdu).toChunks maxEvents).flatten =
      events.map FastPathInputEvent.toPdu := (Chunks.toChunks_spec 254 _).1
  rw [processFastpathInput_eq]
  refine ⟨_, ((events.map FastPathInputEvent.toPdu).toChunks maxEvents).map (List.map FastPathInputEventPdu.seen),
    frames_ok hchunks hmisfits, ?_, ?_⟩
  · rw [List.length_map, ← List.flatMap_def]
    exact (takes_frames hchunks hmisfits).run_all
  · rw [← List.map_flatten, hall]
    exact read_seen hlegible

/-- What the encoder makes of a batch reaches the server as these events, in this order. Or one of its frames has
the size that cannot be written, and no frame of the batch is sent. -/
theorem input_arrives (e : InputEncoder) (inputs : List Input.InputEvent) :
    (∃ chunk ∈ ((e.encodeAll inputs).2.map FastPathInputEvent.toPdu).toChunks maxEvents,
        dataLength chunk = 125 ∧ 16 ≤ chunk.length) ∧
      (∃ error, ActiveStage.processFastpathInput ((e.encodeAll inputs).2.map FastPathInputEvent.toPdu) =
        .error error) ∨
    (∀ chunk ∈ ((e.encodeAll inputs).2.map FastPathInputEvent.toPdu).toChunks maxEvents,
        ¬ (dataLength chunk = 125 ∧ 16 ≤ chunk.length)) ∧
      ∃ frames batches,
        ActiveStage.processFastpathInput ((e.encodeAll inputs).2.map FastPathInputEvent.toPdu) = .ok frames ∧
        (Egfx.repeatWith decode frames.length) frames.flatten = .ok (batches, []) ∧
        batches.flatten.map FastPathInputEvent.ofPdu = (e.encodeAll inputs).2.map some := by
  have hlegible := e.legible_encodeAll inputs
  generalize (e.encodeAll inputs).2 = events at hlegible ⊢
  by_cases hsize : ∃ chunk ∈ (events.map FastPathInputEvent.toPdu).toChunks maxEvents,
      dataLength chunk = 125 ∧ 16 ≤ chunk.length
  · left
    obtain ⟨chunk, hchunk, hbad⟩ := hsize
    have hmisfit : Misfit chunk := (misfit_iff (chunk_of_legible hlegible hchunk).count).mpr hbad
    refine ⟨⟨chunk, hchunk, hbad⟩, ?_⟩
    rw [processFastpathInput_eq]
    exact frames_error (fun _ => chunk_of_legible hlegible) ⟨chunk, hchunk, hmisfit⟩
  · right
    have hfits : ∀ chunk ∈ (events.map FastPathInputEvent.toPdu).toChunks maxEvents,
        ¬ (dataLength chunk = 125 ∧ 16 ≤ chunk.length) :=
      fun chunk hchunk hbad => hsize ⟨chunk, hchunk, hbad⟩
    exact ⟨hfits, arrives hlegible hfits⟩

/-- Seventeen movements and two characters are such a batch. -/
example : ActiveStage.processFastpathInput ((InputEncoder.default.encodeAll
    (List.replicate 17 (.mouseMove 5 5) ++ List.replicate 2 (.unicode 65 true))).2.map FastPathInputEvent.toPdu) =
      .error (.notEnoughBytes 2 3) := by rfl

/-! ### The password of the greeter -/

/-- The presses and releases of characters. -/
def typed (units : List UInt16) : List FastPathInputEvent :=
  units.flatMap fun ch => [.unicodeKeyboardEvent false ch, .unicodeKeyboardEvent true ch]

def enterKey : List FastPathInputEvent := [.key ⟨enterScancode, false⟩ true, .key ⟨enterScancode, false⟩ false]

theorem encodeAll_unicode (e : InputEncoder) (units : List UInt16) (rest : List Input.InputEvent) :
    (e.encodeAll ((units.flatMap fun ch => [.unicode ch true, .unicode ch false]) ++ rest)).2 =
      typed units ++ (e.encodeAll rest).2 := by
  induction units with
  | nil => rfl
  | cons ch units ih =>
      exact congrArg ([.unicodeKeyboardEvent false ch, .unicodeKeyboardEvent true ch] ++ ·) ih

theorem size_typed {units : List UInt16} {pdu : FastPathInputEventPdu}
    (h : pdu ∈ (typed units).map FastPathInputEvent.toPdu) : pdu.size = 3 := by
  obtain ⟨event, hevent, rfl⟩ := List.mem_map.mp h
  obtain ⟨ch, -, hch⟩ := List.mem_flatMap.mp hevent
  obtain rfl | rfl := List.mem_pair.mp hch
  · rfl
  · rfl

theorem dataLength_append (events events' : List FastPathInputEventPdu) :
    dataLength (events ++ events') = dataLength events + dataLength events' := by
  unfold dataLength
  rw [List.map_append, List.sum_append]

theorem dataLength_of_size {size : Nat} {events : List FastPathInputEventPdu} (h : ∀ e ∈ events, e.size = size) :
    dataLength events = events.length * size := by
  induction events with
  | nil => exact (Nat.zero_mul size).symm
  | cons e events ih =>
      obtain ⟨he, hevents⟩ := List.forall_mem_cons.mp h
      rw [dataLength_cons, he, ih hevents, List.length_cons, Nat.succ_mul, Nat.add_comm]

/-- A frame of characters, with the Enter key behind them or without it, has another size. -/
theorem typed_fits {text enter chunk : List FastPathInputEventPdu} (htext : ∀ pdu ∈ text, pdu.size = 3)
    (hlength : enter.length = 2) (henter : dataLength enter = 4)
    (hchunk : chunk ∈ (text ++ enter).toChunks maxEvents) : ¬ (dataLength chunk = 125 ∧ 16 ≤ chunk.length) := by
  rintro ⟨hdata, hmany⟩
  have hbound := (dataLength_bounds chunk).1
  obtain hfull | hsuffix := Chunks.full_or_suffix (n := 254) hchunk
  · omega
  · obtain ⟨before, hbefore⟩ := List.suffix_of_suffix_length_le (List.suffix_append text enter) hsuffix (by omega)
    obtain ⟨skipped, hskipped⟩ := hsuffix
    rw [← hbefore, ← List.append_assoc] at hskipped
    have hsame := List.append_cancel_right hskipped
    have hsizes : ∀ pdu ∈ before, pdu.size = 3 := by
      intro pdu hpdu
      apply htext
      rw [← hsame]
      exact List.mem_append_right skipped hpdu
    rw [← hbefore, dataLength_append, dataLength_of_size hsizes, henter] at hdata
    omega

/-- Whatever the password is, its frames can all be written, and the server reads its characters, each pressed and
released, and the Enter key. -/
theorem password_arrives (e : InputEncoder) (password : String) :
    ∃ frames batches,
      ActiveStage.processFastpathInput
        ((e.encodeAll (GreeterTypist.passwordEvents password)).2.map FastPathInputEvent.toPdu) = .ok frames ∧
      (Egfx.repeatWith decode frames.length) frames.flatten = .ok (batches, []) ∧
      batches.flatten.map FastPathInputEvent.ofPdu =
        (typed (password.toList.flatMap Input.encodeUtf16) ++ enterKey).map some := by
  have hlegible := e.legible_encodeAll (GreeterTypist.passwordEvents password)
  have hevents : (e.encodeAll (GreeterTypist.passwordEvents password)).2 =
      typed (password.toList.flatMap Input.encodeUtf16) ++ enterKey := encodeAll_unicode e _ _
  rw [hevents] at hlegible ⊢
  apply arrives hlegible
  intro chunk hchunk
  rw [List.map_append] at hchunk
  exact typed_fits (fun _ => size_typed) rfl rfl hchunk

end FastPathInput

end Rdp

end Drift
