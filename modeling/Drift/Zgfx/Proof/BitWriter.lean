import Drift.Lib.Bits
import Drift.Zgfx.Compressor

/-!
# The bits of a segment

The bit writer holds the bits that were written and zeros up to the end of a byte; the last byte of the
finished segment says how many those are.
-/

namespace Drift.Zgfx.BitWriter

open Bits (ofByte ofBytes)

/-- The writer holds just these bits. -/
structure Written (w : BitWriter) (bs : List Bool) : Prop where
  few : w.bitsInCurrent < 8
  padded : ofBytes w.bytes ++ ofByte w.currentByte = bs ++ List.replicate (8 - w.bitsInCurrent) false

theorem written_new : Written new [] where
  few := by decide
  padded := Bits.ofByte_zero

theorem shiftLeft_eq {n : Nat} (h : n < 8) :
    (1 : UInt8) <<< (7 - n).toUInt8 = (0x80 : UInt8) >>> n.toUInt8 := by
  have hall : ∀ n : Fin 8, (1 : UInt8) <<< (7 - (n : Nat)).toUInt8 = (0x80 : UInt8) >>> (n : Nat).toUInt8 := by
    decide
  exact hall ⟨n, h⟩

theorem Written.length {w : BitWriter} {bs : List Bool} (h : Written w bs) :
    bs.length = 8 * w.bytes.length + w.bitsInCurrent := by
  have hlength := congrArg List.length h.padded
  have hfew := h.few
  simp only [List.length_append, Bits.length_ofBytes, Bits.length_ofByte, List.length_replicate] at hlength
  omega

/-- The bits of the byte that is being filled. -/
theorem Written.current {w : BitWriter} {bs : List Bool} (h : Written w bs) :
    ∃ filled, bs = ofBytes w.bytes ++ filled ∧ filled.length = w.bitsInCurrent ∧
      ofByte w.currentByte = filled ++ List.replicate (8 - w.bitsInCurrent) false := by
  have hlength := h.length
  have hwhole : ofBytes w.bytes = bs.take (8 * w.bytes.length) := by
    have htake := congrArg (List.take (8 * w.bytes.length)) h.padded
    rwa [List.take_append_of_le_length (by rw [Bits.length_ofBytes]),
      List.take_of_length_le (by rw [Bits.length_ofBytes]), List.take_append_of_le_length (by omega)] at htake
  refine ⟨bs.drop (8 * w.bytes.length), ?_, ?_, ?_⟩
  · rw [hwhole, List.take_append_drop]
  · rw [List.length_drop]
    omega
  · have hdrop := congrArg (List.drop (8 * w.bytes.length)) h.padded
    rwa [List.drop_append_of_le_length (by rw [Bits.length_ofBytes]),
      List.drop_eq_nil_of_le (by rw [Bits.length_ofBytes]), List.nil_append,
      List.drop_append_of_le_length (by omega)] at hdrop

theorem Written.writeBit {w : BitWriter} {bs : List Bool} (h : Written w bs) (bit : Bool) :
    Written (w.writeBit bit) (bs ++ [bit]) := by
  obtain ⟨filled, hbs, hfilled, hcurrent⟩ := h.current
  have hfew := h.few
  have hzeros : List.replicate (8 - w.bitsInCurrent) false =
      false :: List.replicate (7 - w.bitsInCurrent) false := by
    have hcount : 8 - w.bitsInCurrent = 7 - w.bitsInCurrent + 1 := by omega
    rw [hcount, List.replicate_succ]
  have hbyte : ofByte (if bit then w.currentByte ||| ((1 : UInt8) <<< (7 - w.bitsInCurrent).toUInt8)
        else w.currentByte) =
      filled ++ bit :: List.replicate (7 - w.bitsInCurrent) false := by
    cases bit with
    | false =>
        rw [if_neg (by decide), hcurrent, hzeros]
    | true =>
        rw [if_pos rfl, shiftLeft_eq hfew, Bits.ofByte_or hfew, hcurrent, hzeros, ← hfilled,
          List.set_append_right _ _ (Nat.le_refl _), Nat.sub_self, List.set_cons_zero]
  unfold BitWriter.writeBit
  generalize (if bit then w.currentByte ||| ((1 : UInt8) <<< (7 - w.bitsInCurrent).toUInt8)
    else w.currentByte) = currentByte at hbyte ⊢
  simp only
  by_cases hfull : w.bitsInCurrent + 1 = 8
  · have hnone : 7 - w.bitsInCurrent = 0 := by omega
    rw [if_pos hfull]
    refine ⟨Nat.zero_lt_succ 7, ?_⟩
    change ofBytes (w.bytes ++ [currentByte]) ++ ofByte 0 = _ ++ List.replicate (8 - 0) false
    rw [Bits.ofBytes_append, Bits.ofBytes_cons, Bits.ofBytes_nil, List.append_nil, hbyte, hbs, hnone,
      Bits.ofByte_zero, List.replicate_zero, Nat.sub_zero]
    simp only [List.append_assoc]
  · have hrest : 8 - (w.bitsInCurrent + 1) = 7 - w.bitsInCurrent := by omega
    rw [if_neg hfull]
    refine ⟨Nat.lt_of_le_of_ne (Nat.succ_le_of_lt hfew) hfull, ?_⟩
    change ofBytes w.bytes ++ ofByte currentByte = _ ++ List.replicate (8 - (w.bitsInCurrent + 1)) false
    rw [hbyte, hbs, hrest, List.append_assoc, List.append_assoc]
    rfl

theorem Written.writeBitsFromSlice {w : BitWriter} {bs : List Bool} (h : Written w bs)
    (bits : List Bool) : Written (w.writeBitsFromSlice bits) (bs ++ bits) := by
  induction bits generalizing w bs with
  | nil => rwa [List.append_nil]
  | cons bit bits ih =>
      have hrest := ih (h.writeBit bit)
      rwa [List.append_assoc] at hrest

theorem Written.writeBits {w : BitWriter} {bs : List Bool} (h : Written w bs) (value numBits : Nat) :
    Written (w.writeBits value numBits) (bs ++ Bits.ofNat numBits value) := by
  induction numBits generalizing w bs with
  | zero => rwa [Bits.ofNat, List.append_nil]
  | succ numBits ih =>
      have hbit : decide ((value >>> numBits) &&& 1 = 1) = value.testBit numBits := by
        rw [Nat.testBit_eq_decide_div_mod_eq, Nat.shiftRight_eq_div_pow, Nat.and_one_is_mod]
      have hrest := ih (h.writeBit (decide ((value >>> numBits) &&& 1 = 1)))
      rw [List.append_assoc] at hrest
      rw [Bits.ofNat, ← hbit]
      exact hrest

/-- A finished segment is its bits, zeros, and the count of those. -/
theorem Written.finish {w : BitWriter} {bs : List Bool} (h : Written w bs) :
    ∃ data unused, w.finish = data ++ [Nat.toUInt8 unused] ∧ unused < 8 ∧
      ofBytes data = bs ++ List.replicate unused false := by
  obtain ⟨filled, hbs, hfilled, hcurrent⟩ := h.current
  have hfew := h.few
  unfold BitWriter.finish
  simp only
  by_cases hempty : w.bitsInCurrent = 0
  · refine ⟨w.bytes, 0, ?_, by decide, ?_⟩
    · rw [if_pos hempty, if_neg (by omega)]
    · have hnil : filled = [] := List.length_eq_zero_iff.mp (hfilled.trans hempty)
      rw [hbs, hnil, List.replicate_zero, List.append_nil, List.append_nil]
  · refine ⟨w.bytes ++ [w.currentByte], 8 - w.bitsInCurrent, ?_, by omega, ?_⟩
    · rw [if_neg hempty, if_pos (Nat.pos_of_ne_zero hempty)]
    · rw [Bits.ofBytes_append, Bits.ofBytes_cons, Bits.ofBytes_nil, List.append_nil, h.padded]

end Drift.Zgfx.BitWriter
