import Drift.Lib.Bits
import Drift.Lib.Prefix
import Drift.Video.Sps
import Mathlib.Data.List.Infix
import Mathlib.Data.List.ModifyLast

/-!
# The bits of an SPS

The readers of SPS elements are local: what they return only depends on the bits that they take. A writer
holds the bits that were written, and zeros up to the end of a byte. Escaping is undone by unescaping and
leaves no start code in the bytes.
-/

namespace Drift.Video

open Bits (ofBytes)
open Prefix (Local Reads)

/-! ### Escaping -/

theorem unescapeFrom_escapeFrom (zeros : Nat) (rbsp : List UInt8) :
    unescapeFrom zeros (escapeFrom zeros rbsp) = rbsp := by
  induction rbsp generalizing zeros with
  | nil => rfl
  | cons b rbsp ih =>
      unfold escapeFrom
      by_cases hescape : zeros ≥ 2 ∧ b ≤ 3
      · rw [if_pos hescape, unescapeFrom, if_pos ⟨hescape.1, rfl⟩, unescapeFrom, if_neg (by omega), ih]
      · have hkept : ¬ (zeros ≥ 2 ∧ b = 3) := fun h => hescape ⟨h.1, by rw [h.2]; decide⟩
        rw [if_neg hescape, unescapeFrom, if_neg hkept, ih]

theorem unescape_escape (rbsp : List UInt8) : unescape (escape rbsp) = rbsp :=
  unescapeFrom_escapeFrom 0 rbsp

/-- After `zeros` zero bytes, no two zeros are followed by a byte below 3. -/
def NoStartCode : Nat → List UInt8 → Prop
  | _, [] => True
  | zeros, b :: bytes => ¬ (zeros ≥ 2 ∧ b ≤ 2) ∧ NoStartCode (if b = 0 then zeros + 1 else 0) bytes

theorem noStartCode_escapeFrom (zeros : Nat) (rbsp : List UInt8) :
    NoStartCode zeros (escapeFrom zeros rbsp) := by
  induction rbsp generalizing zeros with
  | nil => trivial
  | cons b rbsp ih =>
      unfold escapeFrom
      by_cases hescape : zeros ≥ 2 ∧ b ≤ 3
      · rw [if_pos hescape]
        refine ⟨fun h => absurd h.2 (by decide), ?_⟩
        exact ⟨fun h => by simp at h, ih _⟩
      · rw [if_neg hescape]
        have hle : b ≤ 2 → b ≤ 3 := fun h => UInt8.le_trans h (by decide)
        exact ⟨fun h => hescape ⟨h.1, hle h.2⟩, ih _⟩

theorem NoStartCode.not_occurs {zeros : Nat} {bytes : List UInt8} (h : NoStartCode zeros bytes)
    {b : UInt8} (hb : b ≤ 2) : ¬ [0, 0, b] <:+: bytes := by
  induction bytes generalizing zeros with
  | nil => simp
  | cons a bytes ih =>
      intro hinfix
      rcases List.infix_cons_iff.mp hinfix with hprefix | htail
      · obtain ⟨rest, hrest⟩ := hprefix
        rw [← hrest] at h
        exact h.2.2.1 ⟨by simp, hb⟩
      · exact ih h.2 htail

/-! ### Readers -/

def ahead : Prefix.Source BitReader Bool where
  ahead r := (ofBytes r.data).drop r.pos
  skip r n := ⟨r.data, r.pos + n⟩
  skip_zero _ := rfl
  skip_skip r m n := by simp [Nat.add_assoc]
  ahead_skip r n := by simp [List.drop_drop]

theorem bit_eq (r : BitReader) : BitReader.bit r =
    match (ahead.ahead r).head? with
    | none => .error .malformed
    | some b => .ok (b, ahead.skip r 1) := by
  have hhead : (ahead.ahead r).head? =
      r.data[r.pos / 8]?.map (Bits.bitAt · (r.pos % 8)) := by
    change ((ofBytes r.data).drop r.pos).head? = _
    rw [List.head?_drop, Bits.getElem?_ofBytes]
  rw [hhead]
  unfold BitReader.bit
  cases r.data[r.pos / 8]? with
  | none => rfl
  | some byte => rfl

theorem reads_bit (b : Bool) : Reads ahead BitReader.bit [b] b := by
  intro r rest h
  rw [bit_eq, h]
  rfl

theorem bit_ok {r r' : BitReader} {b : Bool} (h : BitReader.bit r = .ok (b, r')) :
    ∃ rest, ahead.ahead r = b :: rest ∧ r' = ahead.skip r 1 := by
  rw [bit_eq] at h
  cases hahead : ahead.ahead r with
  | nil => simp [hahead] at h
  | cons c rest =>
      simp only [hahead, List.head?_cons, Except.ok.injEq, Prod.mk.injEq] at h
      obtain ⟨rfl, rfl⟩ := h
      exact ⟨rest, rfl, rfl⟩

theorem local_bit : Local ahead BitReader.bit := by
  intro r b r' h
  obtain ⟨rest, hahead, rfl⟩ := bit_ok h
  exact ⟨[b], rest, hahead, rfl, reads_bit b⟩

theorem local_bitsFrom (v : UInt32) (n : Nat) : Local ahead (BitReader.bitsFrom v n) := by
  induction n generalizing v with
  | zero => exact Local.pure v
  | succ n ih => exact local_bit.bind fun _ => ih _

theorem local_bits (n : Nat) : Local ahead (BitReader.bits n) := local_bitsFrom 0 n

theorem local_zerosFrom (zeros left : Nat) : Local ahead (BitReader.zerosFrom zeros left) := by
  induction left generalizing zeros with
  | zero => exact local_bit.bind fun _ => .ite (.pure _) (.error _)
  | succ left ih => exact local_bit.bind fun _ => .ite (.pure _) (ih _)

theorem local_ue : Local ahead BitReader.ue :=
  (local_zerosFrom 0 31).bind fun zeros => (local_bits zeros).bind fun _ => .lift _

theorem local_ueMax (max : UInt32) : Local ahead (BitReader.ueMax max) :=
  local_ue.bind fun _ => .ite (.error _) (.pure _)

theorem local_se : Local ahead BitReader.se := local_ue.bind fun _ => .lift _

theorem local_skipIf {α : Type} {p : Read α} (hp : Local ahead p) (cond : Bool) :
    Local ahead (skipIf cond p) :=
  .ite (hp.bind fun _ => .pure _) (.pure _)

theorem local_skipScalingListFrom (last next : Int) (size : Nat) :
    Local ahead (skipScalingListFrom last next size) := by
  have hscale : ∀ last next, Local ahead (readScale last next) :=
    fun _ _ => .ite (local_se.bind fun _ => .pure _) (.pure _)
  induction size generalizing last next with
  | zero => exact .pure _
  | succ size ih => exact (hscale last next).bind fun _ => ih _ _

theorem local_skipScalingLists (i n : Nat) : Local ahead (skipScalingLists i n) := by
  induction n generalizing i with
  | zero => exact .pure _
  | succ n ih =>
      exact local_bit.bind fun present =>
        (local_skipIf (local_skipScalingListFrom 8 8 _) present).bind fun _ => ih _

theorem local_skipSe (n : Nat) : Local ahead (skipSe n) := by
  induction n with
  | zero => exact .pure _
  | succ n ih => exact local_se.bind fun _ => ih

theorem local_readHighProfile : Local ahead readHighProfile := by
  apply (local_ueMax 3).bind
  intro chromaFormatIdc
  apply (local_skipIf local_bit _).bind
  intro _
  apply (local_ueMax 6).bind
  intro _
  apply (local_ueMax 6).bind
  intro _
  apply local_bit.bind
  intro _
  apply local_bit.bind
  intro matrices
  apply (local_skipIf (local_skipScalingLists _ _) _).bind
  intro _
  exact .pure _

theorem local_skipPicOrderCnt : Local ahead skipPicOrderCnt := by
  have hoffsets : Local ahead skipRefFrameOffsets :=
    local_bit.bind fun _ => local_se.bind fun _ => local_se.bind fun _ =>
      (local_ueMax 255).bind fun n => local_skipSe n.toNat
  exact (local_ueMax 2).bind fun _ =>
    .ite (local_skipIf (local_ueMax 12) true) (.ite hoffsets (.pure _))

theorem local_readU8 : Local ahead readU8 := (local_bits 8).bind fun _ => .lift _

theorem local_readHeaderFields : Local ahead readHeaderFields := by
  have hsize : Local ahead readSize := local_ue.bind fun _ => .lift _
  have hcrop : ∀ cropped, Local ahead (readCrop cropped) := fun _ =>
    .ite (local_ue.bind fun _ => local_ue.bind fun _ => local_ue.bind fun _ =>
      local_ue.bind fun _ => .pure _) (.pure _)
  apply local_readU8.bind
  intro profileIdc
  apply (local_bits 8).bind
  intro _
  apply local_readU8.bind
  intro levelIdc
  apply (local_ueMax 31).bind
  intro _
  apply (Local.ite local_readHighProfile (.pure _) : Local ahead (readChromaFormat profileIdc)).bind
  intro chromaFormatIdc
  apply (local_ueMax 12).bind
  intro _
  apply local_skipPicOrderCnt.bind
  intro _
  apply local_ue.bind
  intro _
  apply local_bit.bind
  intro _
  apply hsize.bind
  intro widthMbs
  apply hsize.bind
  intro heightMapUnits
  apply local_bit.bind
  intro frameMbsOnly
  apply (local_skipIf local_bit _).bind
  intro _
  apply local_bit.bind
  intro _
  apply local_bit.bind
  intro cropped
  apply (hcrop cropped).bind
  intro crop
  exact .pure _

theorem local_readSignalType : Local ahead readSignalType := by
  have hcolours : ∀ present, Local ahead (readColours present) := fun _ =>
    .ite ((local_bits 16).bind fun _ => local_readU8.bind fun _ => .pure _) (.pure _)
  refine local_bit.bind fun _ => .ite ?_ (.pure _)
  apply (local_bits 3).bind
  intro _
  apply local_bit.bind
  intro fullRange
  apply local_bit.bind
  intro colours
  apply (hcolours colours).bind
  intro _
  exact .pure _

/-! ### Values -/

/-- The number with these bits, the most significant one first. -/
def valueFrom (v : UInt32) (bs : List Bool) : UInt32 :=
  bs.foldl (fun v b => (v <<< 1) ||| (if b then 1 else 0)) v

/-- A loop that takes bits one after the other and pushes each onto a value. -/
structure Folds {α : Type} (loop : α → Nat → Read α) (push : α → Bool → α) : Prop where
  zero : ∀ a, loop a 0 = pure a
  succ : ∀ a n, loop a (n + 1) = BitReader.bit >>= fun b => loop (push a b) n

section

variable {α : Type} {loop : α → Nat → Read α} {push : α → Bool → α}

theorem Folds.reads (h : Folds loop push) (a : α) {n : Nat} {bs : List Bool} (hlength : bs.length = n) :
    Reads ahead (loop a n) bs (bs.foldl push a) := by
  subst hlength
  induction bs generalizing a with
  | nil =>
      rw [List.length_nil, h.zero]
      exact .pure a
  | cons b bs ih =>
      rw [List.length_cons, h.succ]
      exact (reads_bit b).bind (ih (push a b))

theorem Folds.ok (h : Folds loop push) {a a' : α} {n : Nat} {r r' : BitReader}
    (hok : loop a n r = .ok (a', r')) :
    ∃ used rest, used.length = n ∧ ahead.ahead r = used ++ rest ∧ r' = ahead.skip r used.length ∧
      a' = used.foldl push a := by
  induction n generalizing a r with
  | zero =>
      rw [h.zero] at hok
      cases hok
      exact ⟨[], _, rfl, rfl, rfl, rfl⟩
  | succ n ih =>
      rw [h.succ] at hok
      obtain ⟨b, r₁, hfirst, hsecond⟩ := Prefix.bind_eq_ok hok
      obtain ⟨after, hafter, rfl⟩ := bit_ok hfirst
      obtain ⟨used, rest, rfl, hused, rfl, rfl⟩ := ih hsecond
      rw [ahead.ahead_skip, hafter, List.drop_one, List.tail_cons] at hused
      refine ⟨b :: used, rest, rfl, by rw [hafter, hused]; rfl, ?_, rfl⟩
      rw [ahead.skip_skip, List.length_cons, Nat.add_comm]

end

theorem folds_bitsFrom :
    Folds BitReader.bitsFrom fun v b => (v <<< 1) ||| (if b then 1 else 0) :=
  ⟨fun _ => rfl, fun _ _ => rfl⟩

theorem reads_bits {n : Nat} {bs : List Bool} (h : bs.length = n) :
    Reads ahead (BitReader.bits n) bs (valueFrom 0 bs) :=
  folds_bitsFrom.reads 0 h

def lowBits (v : UInt32) : Nat → List Bool
  | 0 => []
  | n + 1 => ((v >>> n.toUInt32) &&& 1 = 1) :: lowBits v n

theorem lowBits_value {bs : List Bool} (h : bs.length = 8) : lowBits (valueFrom 0 bs) 8 = bs := by
  have hall : ∀ a b c d e f g h : Bool,
      lowBits (valueFrom 0 [a, b, c, d, e, f, g, h]) 8 = [a, b, c, d, e, f, g, h] := by
    decide +kernel
  match bs, h with
  | [a, b, c, d, e, f, g, h], _ => exact hall a b c d e f g h

/-! ### The writer -/

namespace BitWriter

def write (w : BitWriter) (bs : List Bool) : BitWriter := bs.foldl bit w

@[simp]
theorem write_nil (w : BitWriter) : w.write [] = w := rfl

theorem write_cons (w : BitWriter) (b : Bool) (bs : List Bool) :
    w.write (b :: bs) = (w.bit b).write bs := rfl

theorem write_append (w : BitWriter) (bs bs' : List Bool) :
    w.write (bs ++ bs') = (w.write bs).write bs' := List.foldl_append

theorem bits_eq_write (w : BitWriter) (v : UInt32) (n : Nat) : w.bits v n = w.write (lowBits v n) := by
  induction n generalizing w with
  | zero => rfl
  | succ n ih => exact ih _

/-- The writer holds these bits, and zeros to the byte boundary. -/
structure Contains (w : BitWriter) (bs : List Bool) : Prop where
  len_eq : w.len = bs.length
  bits_eq : ∃ k, k < 8 ∧ ofBytes w.bytes = bs ++ List.replicate k false

theorem contains_new : Contains new [] := ⟨rfl, 0, by decide, rfl⟩

theorem Contains.bit {w : BitWriter} {bs : List Bool} (h : Contains w bs) (b : Bool) :
    Contains (w.bit b) (bs ++ [b]) := by
  obtain ⟨hlen, k, hk, hbits⟩ := h
  have hcount : 8 * w.bytes.length = bs.length + k := by
    simpa using congrArg List.length hbits
  refine ⟨by simp [BitWriter.bit, hlen], ?_⟩
  -- With the new byte, if there is one, a zero stands where the bit goes.
  have hroom : ∃ init byte, (if w.len % 8 = 0 then w.bytes ++ [0] else w.bytes) = init ++ [byte] ∧
      8 * init.length + w.len % 8 = bs.length ∧
      ∃ j, j < 8 ∧ ofBytes init ++ Bits.ofByte byte = bs ++ false :: List.replicate j false := by
    by_cases hfull : w.len % 8 = 0
    · have hk0 : k = 0 := by omega
      subst hk0
      refine ⟨w.bytes, 0, if_pos hfull, by omega, 7, by decide, ?_⟩
      rw [hbits, Bits.ofByte_zero]
      simp [List.replicate_succ]
    · rw [if_neg hfull]
      have hne : w.bytes ≠ [] := by
        rintro hnil
        rw [hnil, List.length_nil] at hcount
        omega
      obtain ⟨init, byte, hsplit⟩ := List.eq_nil_or_concat' w.bytes |>.resolve_left hne
      rw [hsplit, List.length_append, List.length_singleton] at hcount
      obtain ⟨j, rfl⟩ : ∃ j, k = j + 1 := ⟨k - 1, by omega⟩
      refine ⟨init, byte, hsplit, by omega, j, by omega, ?_⟩
      rw [hsplit, Bits.ofBytes_append, Bits.ofBytes_cons, Bits.ofBytes_nil, List.append_nil] at hbits
      rw [hbits, List.replicate_succ]
  obtain ⟨init, byte, hbytes, hpos, j, hj, hzero⟩ := hroom
  refine ⟨j, hj, ?_⟩
  unfold BitWriter.bit
  simp only [hbytes]
  cases b with
  | false => simpa using hzero
  | true =>
      have hbyte : w.len % 8 < 8 := Nat.mod_lt _ (by decide)
      have hset : (ofBytes init ++ Bits.ofByte byte).set bs.length true =
          ofBytes init ++ (Bits.ofByte byte).set (w.len % 8) true := by
        rw [List.set_append_right _ _ (by simp; omega), Bits.length_ofBytes]
        congr 2
        omega
      have hplace : (bs ++ false :: List.replicate j false).set bs.length true =
          bs ++ true :: List.replicate j false := by
        rw [List.set_append_right _ _ (Nat.le_refl _), Nat.sub_self]
        rfl
      simp only [if_pos, List.modifyLast_concat, Bits.ofBytes_append, Bits.ofBytes_cons,
        Bits.ofBytes_nil, List.append_nil, Bits.ofByte_or hbyte]
      rw [← hset, hzero, hplace]
      simp

theorem Contains.write {w : BitWriter} {bs : List Bool} (h : Contains w bs) (bs' : List Bool) :
    Contains (w.write bs') (bs ++ bs') := by
  induction bs' generalizing w bs with
  | nil => simpa using h
  | cons b bs' ih =>
      rw [write_cons]
      simpa using ih (h.bit b)

theorem Contains.align {w : BitWriter} {bs : List Bool} (h : Contains w bs) (n : Nat) :
    ∃ k, Contains (w.align n) (bs ++ List.replicate k false) := by
  induction n generalizing w bs with
  | zero => exact ⟨0, by simpa [BitWriter.align] using h⟩
  | succ n ih =>
      unfold BitWriter.align
      by_cases hfull : w.len % 8 = 0
      · rw [if_pos hfull]
        exact ⟨0, by simpa using h⟩
      · rw [if_neg hfull]
        obtain ⟨k, hk⟩ := ih (h.bit false)
        refine ⟨k + 1, ?_⟩
        rw [List.replicate_succ]
        simpa using hk

theorem ofBytes_trailingBits (bs : List Bool) :
    ∃ k, ofBytes (new.write bs).trailingBits.bytes = bs ++ true :: List.replicate k false := by
  have hwritten : Contains (new.write bs) bs := by simpa using contains_new.write bs
  obtain ⟨k, hk⟩ := (hwritten.bit true).align 7
  obtain ⟨j, -, hbits⟩ := hk.bits_eq
  refine ⟨k + j, ?_⟩
  unfold trailingBits
  rw [hbits, List.append_assoc, List.append_assoc, List.singleton_append, List.replicate_add]

end BitWriter

/-! ### Copying -/

/-- `q` takes the bits that `p` takes, and writes them. -/
def Copies {α : Type} (p : Read α) (q : BitWriter → Read BitWriter) : Prop :=
  ∀ w r w' r', q w r = .ok (w', r') →
    ∃ used rest a, ahead.ahead r = used ++ rest ∧ r' = ahead.skip r used.length ∧
      w' = w.write used ∧ Reads ahead p used a ∧ ∀ w, Reads ahead (q w) used (w.write used)

theorem Copies.none {α : Type} (a : α) : Copies (pure a) pure := by
  intro w r w' r' h
  cases h
  exact ⟨[], ahead.ahead r, a, rfl, rfl, rfl, .pure a, fun w => .pure w⟩

theorem Copies.ite {α : Type} {P : Prop} [Decidable P] {p p' : Read α}
    {q q' : BitWriter → Read BitWriter} (h : Copies p q) (h' : Copies p' q') :
    Copies (if P then p else p') fun w => if P then q w else q' w := by
  by_cases hP : P
  · simpa only [if_pos hP] using h
  · simpa only [if_neg hP] using h'

theorem Copies.bind {α β : Type} {p : Read α} {p' : Read β} {q q' : BitWriter → Read BitWriter}
    (h : Copies p q) (h' : Copies p' q') :
    Copies (p >>= fun _ => p') fun w => q w >>= q' := by
  intro w r w'' r'' hok
  obtain ⟨w', r', hfirst, hsecond⟩ := Prefix.bind_eq_ok hok
  obtain ⟨u, rest, a, hu, rfl, rfl, hp, hq⟩ := h w r w' r' hfirst
  obtain ⟨v, rest', b, hv, rfl, rfl, hp', hq'⟩ := h' _ _ w'' r'' hsecond
  rw [ahead.ahead_skip_append hu] at hv
  refine ⟨u ++ v, rest', b, ?_, ?_, (w.write_append u v).symm, hp.bind hp', fun w => ?_⟩
  · rw [hu, hv, List.append_assoc]
  · rw [ahead.skip_skip, List.length_append]
  · rw [w.write_append]
    exact (hq w).bind (hq' _)

/-- What writes the bits that `p` took, from the value that it returned. -/
def Writes {α : Type} (p : Read α) (write : BitWriter → α → BitWriter) : Prop :=
  ∀ r a r', p r = .ok (a, r') →
    ∃ used rest, ahead.ahead r = used ++ rest ∧ r' = ahead.skip r used.length ∧
      Reads ahead p used a ∧ ∀ w, write w a = w.write used

/-- A value is read and its bits are written, and what follows may depend on it. -/
theorem Copies.value {α β : Type} {p : Read α} {write : BitWriter → α → BitWriter}
    (hp : Writes p write) {p' : α → Read β} {q' : α → BitWriter → Read BitWriter}
    (h' : ∀ a, Copies (p' a) (q' a)) :
    Copies (p >>= p') fun w => p >>= fun a => q' a (write w a) := by
  intro w r w'' r'' hok
  obtain ⟨a, r', hfirst, hsecond⟩ := Prefix.bind_eq_ok hok
  obtain ⟨u, rest, hu, rfl, hreads, hwrite⟩ := hp r a r' hfirst
  obtain ⟨v, rest', b, hv, rfl, rfl, hp', hq'⟩ := h' a _ _ w'' r'' hsecond
  rw [ahead.ahead_skip_append hu] at hv
  refine ⟨u ++ v, rest', b, ?_, ?_, ?_, hreads.bind hp', fun w => ?_⟩
  · rw [hu, hv, List.append_assoc]
  · rw [ahead.skip_skip, List.length_append]
  · rw [hwrite w, w.write_append]
  · have hrest := hq' (write w a)
    rw [hwrite w, ← w.write_append] at hrest
    refine hreads.bind ?_
    rw [hwrite w]
    exact hrest

theorem writes_bit : Writes BitReader.bit BitWriter.bit := by
  intro r b r' h
  obtain ⟨rest, hahead, rfl⟩ := bit_ok h
  exact ⟨[b], rest, hahead, rfl, reads_bit b, fun w => rfl⟩

theorem writes_bits : Writes (BitReader.bits 8) fun w v => w.bits v 8 := by
  intro r v r' h
  obtain ⟨used, rest, hlength, hused, hskip, rfl⟩ := folds_bitsFrom.ok h
  refine ⟨used, rest, hused, hskip, reads_bits hlength, fun w => ?_⟩
  calc w.bits (valueFrom 0 used) 8 = w.write (lowBits (valueFrom 0 used) 8) := w.bits_eq_write _ 8
    _ = w.write used := by rw [lowBits_value hlength]

theorem folds_copy : Folds BitWriter.copy BitWriter.bit := ⟨fun _ => rfl, fun _ _ => rfl⟩

theorem reads_copy (w : BitWriter) {n : Nat} {bs : List Bool} (h : bs.length = n) :
    Reads ahead (w.copy n) bs (w.write bs) :=
  folds_copy.reads w h

theorem copy_ok {w w' : BitWriter} {n : Nat} {r r' : BitReader}
    (h : w.copy n r = .ok (w', r')) :
    ∃ used rest, used.length = n ∧ ahead.ahead r = used ++ rest ∧ r' = ahead.skip r used.length ∧
      w' = w.write used :=
  folds_copy.ok h

theorem copies_bits (n : Nat) : Copies (BitReader.bits n) fun w => w.copy n := by
  intro w r w' r' h
  obtain ⟨used, rest, hlength, hused, hskip, rfl⟩ := copy_ok h
  exact ⟨used, rest, _, hused, hskip, rfl, reads_bits hlength, fun w => reads_copy w hlength⟩

theorem copies_bit : Copies BitReader.bit fun w => w.copy 1 := by
  intro w r w' r' h
  obtain ⟨used, rest, hlength, hused, hskip, rfl⟩ := copy_ok h
  obtain ⟨b, rfl⟩ := List.length_eq_one_iff.mp hlength
  exact ⟨[b], rest, b, hused, hskip, rfl, reads_bit b, fun w => reads_copy w rfl⟩

theorem Copies.skipIf {α : Type} {p : Read α} {q : BitWriter → Read BitWriter} (h : Copies p q)
    (cond : Bool) : Copies (skipIf cond p) fun w => if cond then q w else pure w := by
  refine Copies.ite ?_ (.none _)
  intro w r w' r' hok
  obtain ⟨used, rest, a, hused, hskip, hw, hp, hq⟩ := h w r w' r' hok
  exact ⟨used, rest, (), hused, hskip, hw, hp.bind_nil (.pure ()), hq⟩

theorem copies_aspectAndOverscan : Copies skipAspectAndOverscan copyAspectAndOverscan := by
  have hextended : ∀ idc, Copies (skipIf (idc = extendedSar) (BitReader.bits 32)) fun w =>
      if idc = extendedSar then w.copy 32 else pure w := by
    intro idc
    simpa only [decide_eq_true_eq] using (copies_bits 32).skipIf (idc = extendedSar)
  have haspect : ∀ aspect, Copies (skipIf aspect skipAspectRatio) fun w =>
      copyAspectRatio w aspect := fun aspect =>
    Copies.skipIf (Copies.value writes_bits hextended) aspect
  exact Copies.value writes_bit fun aspect => (haspect aspect).bind
    (Copies.value writes_bit fun overscan => copies_bit.skipIf overscan)

/-! ### The stop bit -/

theorem ofByte_stop (byte : UInt8) (h : byte ≠ 0) :
    ∃ bs, Bits.ofByte byte = bs ++ true :: List.replicate (trailingZeros byte) false ∧
      bs.length + trailingZeros byte = 7 := by
  have hall : ∀ n : Fin 256, UInt8.ofNat n ≠ 0 → trailingZeros (UInt8.ofNat n) ≤ 7 ∧
      Bits.ofByte (UInt8.ofNat n) = (Bits.ofByte (UInt8.ofNat n)).take
        (7 - trailingZeros (UInt8.ofNat n)) ++
          true :: List.replicate (trailingZeros (UInt8.ofNat n)) false := by
    decide +kernel
  have hbyte : UInt8.ofNat (⟨byte.toNat, byte.toNat_lt⟩ : Fin 256) = byte := by simp
  obtain ⟨hle, hbits⟩ := hall ⟨byte.toNat, byte.toNat_lt⟩ (by rwa [hbyte])
  rw [hbyte] at hle hbits
  refine ⟨_, hbits, ?_⟩
  rw [List.length_take, Bits.length_ofByte]
  omega

theorem ofBytes_stop (rbsp : List UInt8) :
    (∃ n, ofBytes rbsp = List.replicate n false) ∧ stopBitPosition rbsp = none ∨
      ∃ bs k, ofBytes rbsp = bs ++ true :: List.replicate k false ∧
        stopBitPosition rbsp = some bs.length := by
  induction rbsp using List.reverseRecOn with
  | nil => exact .inl ⟨⟨0, rfl⟩, rfl⟩
  | append_singleton rbsp byte ih =>
      have hzip : (rbsp ++ [byte]).zipIdx.reverse = (byte, rbsp.length) :: rbsp.zipIdx.reverse := by
        simp [List.zipIdx_append]
      have hbits : ofBytes (rbsp ++ [byte]) = ofBytes rbsp ++ Bits.ofByte byte := by simp
      by_cases hzero : byte = 0
      · subst hzero
        have hstop : stopBitPosition (rbsp ++ [0]) = stopBitPosition rbsp := by
          unfold stopBitPosition
          rw [hzip, List.find?_cons_of_neg (by simp)]
        rw [hstop, hbits, Bits.ofByte_zero]
        rcases ih with ⟨⟨n, hn⟩, hnone⟩ | ⟨bs, k, hk, hsome⟩
        · exact .inl ⟨⟨n + 8, by rw [hn, List.replicate_add]⟩, hnone⟩
        · refine .inr ⟨bs, k + 8, ?_, hsome⟩
          rw [hk, List.append_assoc, List.cons_append, List.replicate_add]
      · obtain ⟨bs, hbyte, hlength⟩ := ofByte_stop byte hzero
        refine .inr ⟨ofBytes rbsp ++ bs, trailingZeros byte, ?_, ?_⟩
        · rw [hbits, hbyte, List.append_assoc]
        · unfold stopBitPosition
          rw [hzip, List.find?_cons_of_pos (by simpa using hzero), Option.map_some]
          simp only [List.length_append, Bits.length_ofBytes, Option.some.injEq]
          omega

theorem stopBitPosition_eq {rbsp : List UInt8} {bs : List Bool} {k : Nat}
    (h : ofBytes rbsp = bs ++ true :: List.replicate k false) :
    stopBitPosition rbsp = some bs.length := by
  rcases ofBytes_stop rbsp with ⟨⟨n, hn⟩, -⟩ | ⟨bs', k', hbits, hstop⟩
  · exact absurd (h.symm.trans hn) (Bits.append_true_ne_replicate bs k n)
  · rw [hstop, (Bits.append_replicate_inj (hbits.symm.trans h)).1]

theorem stopBitPosition_some {rbsp : List UInt8} {n : Nat} (h : stopBitPosition rbsp = some n) :
    ∃ bs k, ofBytes rbsp = bs ++ true :: List.replicate k false ∧ bs.length = n := by
  rcases ofBytes_stop rbsp with ⟨-, hnone⟩ | ⟨bs, k, hbits, hstop⟩
  · rw [h] at hnone
    cases hnone
  · rw [h] at hstop
    exact ⟨bs, k, hbits, (Option.some.inj hstop).symm⟩

end Drift.Video
