import Mathlib.Algebra.Ring.Int.Defs
import Mathlib.Algebra.Ring.Nat
import Mathlib.Data.List.Basic
import Mathlib.Data.List.Defs

/-!
# Sequence parameter sets

An SPS is a stream of bits, most significant bit of each byte first, in which three byte values are
escaped. The rewrite copies it bit by bit up to the video signal type of its VUI, writes another signal
type, and copies the rest.
-/

namespace Drift.Video

inductive SpsError where
  | notSps
  | malformed
  deriving DecidableEq, Repr

structure SpsInfo where
  profileIdc : UInt8
  levelIdc : UInt8
  width : UInt32
  height : UInt32
  fullRange : Option Bool
  matrixCoefficients : Option UInt8
  deriving DecidableEq

/-! ### Bits -/

structure BitReader where
  data : List UInt8
  pos : Nat

abbrev Read := StateT BitReader (Except SpsError)

namespace BitReader

def «at» (data : List UInt8) (pos : Nat) : BitReader := ⟨data, pos⟩

def bit : Read Bool := fun r =>
  match r.data[r.pos / 8]? with
  | none => .error .malformed
  | some byte => .ok (byte &&& ((0x80 : UInt8) >>> (r.pos % 8).toUInt8) ≠ 0, { r with pos := r.pos + 1 })

/-- `n` bits that follow the bits of `v`. -/
def bitsFrom (v : UInt32) : Nat → Read UInt32
  | 0 => return v
  | n + 1 => do
    let b ← bit
    bitsFrom ((v <<< 1) ||| (if b then 1 else 0)) n

def bits (n : Nat) : Read UInt32 := bitsFrom 0 n

/-- The zero bits before the next one bit, after `zeros` of them and with `left` more allowed. -/
def zerosFrom (zeros : Nat) : Nat → Read Nat
  | 0 => do if ← bit then return zeros else throw .malformed
  | left + 1 => do if ← bit then return zeros else zerosFrom (zeros + 1) left

def u32FromU64 (v : UInt64) : Except SpsError UInt32 :=
  if v.toNat < 2 ^ 32 then .ok v.toUInt32 else .error .malformed

/-- An unsigned Exp-Golomb code of at most 31 leading zeros. -/
def ue : Read UInt32 := do
  let zeros ← zerosFrom 0 31
  let suffix ← bits zeros
  StateT.lift (u32FromU64 (((1 : UInt64) <<< zeros.toUInt64) - 1 + suffix.toUInt64))

def ueMax (max : UInt32) : Read UInt32 := do
  let v ← ue
  if v > max then throw .malformed else return v

def i32FromI64 (v : Int) : Except SpsError Int :=
  if -2 ^ 31 ≤ v ∧ v < 2 ^ 31 then .ok v else .error .malformed

def se : Read Int := do
  let v ← ue
  let k : Int := v.toNat
  StateT.lift (i32FromI64 (if k % 2 = 1 then (k + 1) / 2 else -(k / 2)))

end BitReader

structure BitWriter where
  bytes : List UInt8
  len : Nat

namespace BitWriter

def new : BitWriter := ⟨[], 0⟩

def bit (w : BitWriter) (b : Bool) : BitWriter :=
  let bytes := if w.len % 8 = 0 then w.bytes ++ [0] else w.bytes
  let bytes :=
    if b then bytes.modifyLast (· ||| ((0x80 : UInt8) >>> (w.len % 8).toUInt8)) else bytes
  ⟨bytes, w.len + 1⟩

/-- The low `n` bits of `v`. -/
def bits (w : BitWriter) (v : UInt32) : Nat → BitWriter
  | 0 => w
  | n + 1 => (w.bit ((v >>> n.toUInt32) &&& 1 = 1)).bits v n

/-- Copies `n` bits from the reader. -/
def copy (w : BitWriter) : Nat → Read BitWriter
  | 0 => return w
  | n + 1 => do
    let b ← BitReader.bit
    (w.bit b).copy n

/-- Zero bits to the byte boundary, at most `n`. -/
def align (w : BitWriter) : Nat → BitWriter
  | 0 => w
  | n + 1 => if w.len % 8 = 0 then w else (w.bit false).align n

/-- A one bit and zero bits to the byte boundary. -/
def trailingBits (w : BitWriter) : BitWriter := (w.bit true).align 7

end BitWriter

/-! ### Escaping -/

/-- Removes the third byte of `00 00 03`; `zeros` zero bytes came before. -/
def unescapeFrom (zeros : Nat) : List UInt8 → List UInt8
  | [] => []
  | b :: ebsp =>
    if zeros ≥ 2 ∧ b = 3 then unescapeFrom 0 ebsp
    else b :: unescapeFrom (if b = 0 then zeros + 1 else 0) ebsp

def unescape (ebsp : List UInt8) : List UInt8 := unescapeFrom 0 ebsp

/-- Inserts a byte 3 before a third byte of at most 3; `zeros` zero bytes came before. -/
def escapeFrom (zeros : Nat) : List UInt8 → List UInt8
  | [] => []
  | b :: rbsp =>
    if zeros ≥ 2 ∧ b ≤ 3 then 3 :: b :: escapeFrom (if b = 0 then 1 else 0) rbsp
    else b :: escapeFrom (if b = 0 then zeros + 1 else 0) rbsp

def escape (rbsp : List UInt8) : List UInt8 := escapeFrom 0 rbsp

/-! ### The header -/

namespace NalType

def sps : UInt8 := 7

end NalType

def rbspOf : List UInt8 → Except SpsError (List UInt8)
  | [] => .error .notSps
  | h :: ebsp => if h &&& 0x1F = NalType.sps then .ok (unescape ebsp) else .error .notSps

def toU8 (v : UInt32) : Except SpsError UInt8 :=
  if v.toNat < 256 then .ok v.toUInt8 else .error .malformed

def extendedSar : UInt32 := 255

def highProfiles : List UInt8 := [100, 110, 122, 244, 44, 83, 86, 118, 128, 138, 139, 134]

/-- The next entry of a scaling list, which is not coded after a zero. -/
def readScale (last next : Int) : Read Int :=
  if next ≠ 0 then do
    let delta ← BitReader.se
    return (last + delta) % 256
  else return next

/-- The `size` entries of a scaling list after `last` and `next`. -/
def skipScalingListFrom (last next : Int) : Nat → Read Unit
  | 0 => return ()
  | size + 1 => do
    let next ← readScale last next
    skipScalingListFrom (if next ≠ 0 then next else last) next size

def skipScalingList (size : Nat) : Read Unit := skipScalingListFrom 8 8 size

def skipIf {α : Type} (cond : Bool) (p : Read α) : Read Unit :=
  if cond then do
    let _ ← p
    return ()
  else return ()

/-- The scaling lists from the `i`-th, `n` of them. -/
def skipScalingLists (i : Nat) : Nat → Read Unit
  | 0 => return ()
  | n + 1 => do
    let present ← BitReader.bit
    skipIf present (skipScalingList (if i < 6 then 16 else 64))
    skipScalingLists (i + 1) n

def skipSe : Nat → Read Unit
  | 0 => return ()
  | n + 1 => do
    let _ ← BitReader.se
    skipSe n

/-- What only high profiles carry: chroma format, bit depths and scaling matrices. -/
def readHighProfile : Read UInt32 := do
  let chromaFormatIdc ← BitReader.ueMax 3
  skipIf (chromaFormatIdc = 3) BitReader.bit -- separate_colour_plane_flag
  let _ ← BitReader.ueMax 6 -- bit_depth_luma_minus8
  let _ ← BitReader.ueMax 6 -- bit_depth_chroma_minus8
  let _ ← BitReader.bit -- qpprime_y_zero_transform_bypass_flag
  let matrices ← BitReader.bit
  skipIf matrices (skipScalingLists 0 (if chromaFormatIdc = 3 then 12 else 8))
  return chromaFormatIdc

def readChromaFormat (profileIdc : UInt8) : Read UInt32 :=
  if profileIdc ∈ highProfiles then readHighProfile else return 1

def skipRefFrameOffsets : Read Unit := do
  let _ ← BitReader.bit -- delta_pic_order_always_zero_flag
  let _ ← BitReader.se -- offset_for_non_ref_pic
  let _ ← BitReader.se -- offset_for_top_to_bottom_field
  let n ← BitReader.ueMax 255
  skipSe n.toNat

def skipPicOrderCnt : Read Unit := do
  let kind ← BitReader.ueMax 2
  if kind = 0 then skipIf true (BitReader.ueMax 12) -- log2_max_pic_order_cnt_lsb_minus4
  else if kind = 1 then skipRefFrameOffsets
  else return ()

def checkedAdd (a b : UInt32) : Option UInt32 := if a.toNat + b.toNat < 2 ^ 32 then some (a + b) else none

def checkedSub (a b : UInt32) : Option UInt32 := if b ≤ a then some (a - b) else none

def checkedMul (a b : UInt32) : Option UInt32 := if a.toNat * b.toNat < 2 ^ 32 then some (a * b) else none

def okOr (v : Option UInt32) : Except SpsError UInt32 := v.elim (.error .malformed) .ok

/-- The frame cropping offsets. -/
structure Crop where
  left : UInt32
  right : UInt32
  top : UInt32
  bottom : UInt32

def readCrop (cropped : Bool) : Read Crop :=
  if cropped then do
    let left ← BitReader.ue
    let right ← BitReader.ue
    let top ← BitReader.ue
    let bottom ← BitReader.ue
    return ⟨left, right, top, bottom⟩
  else return ⟨0, 0, 0, 0⟩

/-- The elements before the VUI flag that the header is made of. -/
structure HeaderFields where
  profileIdc : UInt8
  levelIdc : UInt8
  chromaFormatIdc : UInt32
  widthMbs : UInt32
  heightMapUnits : UInt32
  frameMbsOnly : Bool
  crop : Crop

def readU8 : Read UInt8 := do
  let v ← BitReader.bits 8
  StateT.lift (toU8 v)

/-- A size in macroblocks or map units, coded less one. -/
def readSize : Read UInt32 := do
  let v ← BitReader.ue
  StateT.lift (okOr (checkedAdd v 1))

def readHeaderFields : Read HeaderFields := do
  let profileIdc ← readU8
  let _ ← BitReader.bits 8 -- constraint_set flags and reserved bits
  let levelIdc ← readU8
  let _ ← BitReader.ueMax 31 -- seq_parameter_set_id
  let chromaFormatIdc ← readChromaFormat profileIdc
  let _ ← BitReader.ueMax 12 -- log2_max_frame_num_minus4
  skipPicOrderCnt
  let _ ← BitReader.ue -- max_num_ref_frames
  let _ ← BitReader.bit -- gaps_in_frame_num_value_allowed_flag
  let widthMbs ← readSize
  let heightMapUnits ← readSize
  let frameMbsOnly ← BitReader.bit
  skipIf (!frameMbsOnly) BitReader.bit -- mb_adaptive_frame_field_flag
  let _ ← BitReader.bit -- direct_8x8_inference_flag
  let cropped ← BitReader.bit
  let crop ← readCrop cropped
  return ⟨profileIdc, levelIdc, chromaFormatIdc, widthMbs, heightMapUnits, frameMbsOnly, crop⟩

structure Header where
  profileIdc : UInt8
  levelIdc : UInt8
  width : UInt32
  height : UInt32
  vuiFlagPos : Nat
  vuiPresent : Bool

def cut (a b unit : UInt32) : Option UInt32 := (checkedAdd a b).bind (checkedMul · unit)

def HeaderFields.size (f : HeaderFields) : Except SpsError (UInt32 × UInt32) := do
  let fieldFactor : UInt32 := if f.frameMbsOnly then 1 else 2
  let (cropX, cropY) : UInt32 × UInt32 :=
    if f.chromaFormatIdc = 0 then (1, fieldFactor)
    else if f.chromaFormatIdc = 1 then (2, 2 * fieldFactor)
    else if f.chromaFormatIdc = 2 then (2, fieldFactor)
    else (1, fieldFactor)
  let fullW ← okOr (checkedMul f.widthMbs 16)
  let fullH ← okOr (checkedMul f.heightMapUnits (16 * fieldFactor))
  let width ← okOr ((cut f.crop.left f.crop.right cropX).bind (checkedSub fullW))
  let height ← okOr ((cut f.crop.top f.crop.bottom cropY).bind (checkedSub fullH))
  return (width, height)

def parseHeader (rbsp : List UInt8) : Except SpsError Header := do
  let (fields, r) ← readHeaderFields (.at rbsp 0)
  let vuiFlagPos := r.pos
  let (vuiPresent, _) ← BitReader.bit r
  let (width, height) ← fields.size
  return ⟨fields.profileIdc, fields.levelIdc, width, height, vuiFlagPos, vuiPresent⟩

/-! ### The video signal type -/

structure SignalType where
  fullRange : Bool
  matrix : Option UInt8

def skipAspectRatio : Read Unit := do
  let idc ← BitReader.bits 8
  skipIf (idc = extendedSar) (BitReader.bits 32)

def skipAspectAndOverscan : Read Unit := do
  let aspect ← BitReader.bit
  skipIf aspect skipAspectRatio
  let overscan ← BitReader.bit
  skipIf overscan BitReader.bit

def readColours (present : Bool) : Read (Option UInt8) :=
  if present then do
    let _ ← BitReader.bits 16 -- colour_primaries, transfer_characteristics
    let matrix ← readU8
    return some matrix
  else return none

def readSignalType : Read (Option SignalType) := do
  let present ← BitReader.bit
  if present then do
    let _ ← BitReader.bits 3 -- video_format
    let fullRange ← BitReader.bit
    let colours ← BitReader.bit
    let matrix ← readColours colours
    return some ⟨fullRange, matrix⟩
  else return none

def parse (sps : List UInt8) : Except SpsError SpsInfo := do
  let rbsp ← rbspOf sps
  let header ← parseHeader rbsp
  let info (fullRange : Option Bool) (matrix : Option UInt8) : SpsInfo :=
    ⟨header.profileIdc, header.levelIdc, header.width, header.height, fullRange, matrix⟩
  if header.vuiPresent then
    let (_, r) ← skipAspectAndOverscan (.at rbsp (header.vuiFlagPos + 1))
    let (signal, _) ← readSignalType r
    match signal with
    | some signal => return info (some signal.fullRange) signal.matrix
    | none => return info none none
  else return info none none

def writeBt709FullRange (w : BitWriter) : BitWriter :=
  let w := w.bit true -- video_signal_type_present_flag
  let w := w.bits 5 3 -- video_format: unspecified
  let w := w.bit true -- video_full_range_flag
  let w := w.bit true -- colour_description_present_flag
  let w := w.bits 1 8 -- colour_primaries
  let w := w.bits 1 8 -- transfer_characteristics
  w.bits 1 8 -- matrix_coefficients

/-- The zero bits below the lowest one bit of a byte that is not zero. -/
def trailingZeros (byte : UInt8) : Nat :=
  (List.range 8).findIdx fun i => (byte >>> i.toUInt8) &&& 1 = 1

def stopBitPosition (rbsp : List UInt8) : Option Nat :=
  (rbsp.zipIdx.reverse.find? fun (byte, _) => byte ≠ 0).map fun (byte, index) =>
    index * 8 + 7 - trailingZeros byte

def copyAspectRatio (w : BitWriter) (aspect : Bool) : Read BitWriter :=
  if aspect then do
    let idc ← BitReader.bits 8
    let w := w.bits idc 8
    if idc = extendedSar then w.copy 32 else return w
  else return w

def copyAspectAndOverscan (w : BitWriter) : Read BitWriter := do
  let aspect ← BitReader.bit
  let w ← copyAspectRatio (w.bit aspect) aspect
  let overscan ← BitReader.bit
  let w := w.bit overscan
  if overscan then w.copy 1 else return w

/-- Copies what is left up to the stop bit. -/
def copyTail (rbsp : List UInt8) (w : BitWriter) (r : BitReader) : Except SpsError BitWriter :=
  match stopBitPosition rbsp with
  | none => .error .malformed
  | some stop =>
    if stop < r.pos then .error .malformed else (w.copy (stop - r.pos) r).map Prod.fst

/-- Copies the VUI that `r` reads, with another signal type. -/
def rewriteVui (rbsp : List UInt8) (w : BitWriter) (r : BitReader) : Except SpsError BitWriter := do
  let (w, r) ← copyAspectAndOverscan w r
  let (_, r) ← readSignalType r
  copyTail rbsp (writeBt709FullRange w) r

/-- A VUI with nothing but the signal type. -/
def writeVui (w : BitWriter) : BitWriter :=
  let w := w.bit false -- aspect_ratio_info_present_flag
  let w := w.bit false -- overscan_info_present_flag
  let w := writeBt709FullRange w
  let w := w.bit false -- chroma_loc_info_present_flag
  let w := w.bit false -- timing_info_present_flag
  let w := w.bit false -- nal_hrd_parameters_present_flag
  let w := w.bit false -- vcl_hrd_parameters_present_flag
  let w := w.bit false -- pic_struct_present_flag
  w.bit false -- bitstream_restriction_flag

def withBt709FullRange (sps : List UInt8) : Except SpsError (List UInt8) := do
  let rbsp ← rbspOf sps
  let header ← parseHeader rbsp
  let (w, _) ← BitWriter.new.copy header.vuiFlagPos (.at rbsp 0)
  let w := w.bit true -- vui_parameters_present_flag
  let w ← if header.vuiPresent then rewriteVui rbsp w (.at rbsp (header.vuiFlagPos + 1))
    else pure (writeVui w)
  return sps.take 1 ++ escape w.trailingBits.bytes

end Drift.Video
