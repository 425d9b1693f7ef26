import Drift.Lib.Bits
import Drift.Zgfx.ControlMessages
import Drift.Zgfx.Tokens

/-!
# The decompressor

The tokens of a segment write to the output and to the history at once. What a token asks for is checked
before it writes; only the limit of the whole segment is checked after it.
-/

namespace Drift.Zgfx

def maxDecompressedPerSegment : Nat := 64 * 1024 * 1024

def maxDecompressedTotal : Nat := 256 * 1024 * 1024

/-- `usize::MAX`. -/
def usizeMax : Nat := 2 ^ 64 - 1

/-! ### The bits that are left -/

structure BitsLeft where
  bitsSlice : List Bool
  remainingBitsOfLastByte : Nat

namespace BitsLeft

def splitTo (b : BitsLeft) (n : Nat) : List Bool × BitsLeft :=
  (b.bitsSlice.take n, ⟨b.bitsSlice.drop n, (b.remainingBitsOfLastByte + n) % 8⟩)

/-- `try_split_to`, with the error of all its calls. -/
def trySplitTo (b : BitsLeft) (n : Nat) : Except ZgfxError (List Bool × BitsLeft) :=
  if n > b.bitsSlice.length then .error (.incompleteBitStream n b.bitsSlice.length) else .ok (b.splitTo n)

def leadingOnes (b : BitsLeft) : Nat := (b.bitsSlice.takeWhile (· = true)).length

end BitsLeft

/-! ### A segment -/

/-- The history of the decompressor and the output that the caller gave it. -/
structure Target where
  history : FixedCircularBuffer
  output : Bytes

namespace Target

/-- `history.write_all(bytes)` and `output.extend_from_slice(bytes)`. -/
def write (t : Target) (bytes : Bytes) : Target := ⟨t.history.writeAll bytes, t.output ++ bytes⟩

end Target

/-- The error of a token that would write more than the segment may. -/
def exceedsLimit (maxRemaining length : Nat) : ZgfxError :=
  .segmentDecompressedSizeExceedsLimit
    (min (maxDecompressedPerSegment - maxRemaining + length) usizeMax) maxDecompressedPerSegment

/-- Skips to the next byte boundary. -/
def padToByteBoundary (bits : BitsLeft) : Except ZgfxError BitsLeft :=
  if bits.remainingBitsOfLastByte > 0 then
    Prod.snd <$> bits.trySplitTo (8 - bits.remainingBitsOfLastByte)
  else .ok bits

/-- A run of bytes that are not encoded, from the next byte boundary on. -/
def readUnencodedBytes (bits : BitsLeft) (t : Target) (maxRemaining : Nat) :
    Except ZgfxError (BitsLeft × Target × Nat) := do
  let (length, bits) ← bits.trySplitTo 15
  let length := Bits.toNat length
  if length > maxRemaining then throw (exceedsLimit maxRemaining length)
  let bits ← padToByteBoundary bits
  let (unencodedBits, bits) ← bits.trySplitTo (length * 8)
  let unencodedBytes := Bits.toBytes unencodedBits length
  return (bits, t.write unencodedBytes, unencodedBytes.length)

/-- The length of a match: a number of ones, a zero, and one more bit than there were ones. -/
def readMatchLength (bits : BitsLeft) : Except ZgfxError (Nat × BitsLeft) := do
  let lengthTokenSize := bits.leadingOnes
  let (_, bits) ← bits.trySplitTo (lengthTokenSize + 1)
  if lengthTokenSize = 0 then return (3, bits)
  else
    let valueBits := lengthTokenSize + 1
    if valueBits ≥ 64 then throw (.lengthTokenSizeTooLarge lengthTokenSize)
    let (value, bits) ← bits.trySplitTo valueBits
    return (2 ^ valueBits + Bits.toNat value, bits)

def readEncodedBytes (bits : BitsLeft) (distance : Nat) (t : Target) (maxRemaining : Nat) :
    Except ZgfxError (BitsLeft × Target × Nat) := do
  let (length, bits) ← readMatchLength bits
  if length > maxRemaining then throw (exceedsLimit maxRemaining length)
  match t.history.readWithOffset distance length t.output with
  | .error _ => throw .ioError
  | .ok output =>
    return (bits, ⟨t.history.writeAll (output.drop t.output.length), output⟩, length)

def handleMatch (bits : BitsLeft) (distanceValueSize distanceBase : Nat) (t : Target)
    (maxRemaining : Nat) : Except ZgfxError (BitsLeft × Target × Nat) := do
  let (distanceValue, bits) ← bits.trySplitTo distanceValueSize
  let distance := distanceBase + Bits.toNat distanceValue
  if distance > u32Max then throw (.invalidIntegralConversion "token's full distance")
  if distance = 0 then readUnencodedBytes bits t maxRemaining
  else if distance > historySize then throw (.matchDistanceOutOfRange distance historySize)
  else readEncodedBytes bits distance t maxRemaining

/-- One round of the loop over the tokens: the bits after the token, and how much it wrote. -/
def handleToken (bits : BitsLeft) (t : Target) (bytesWritten : Nat) :
    Except ZgfxError (BitsLeft × Target × Nat) :=
  match tokenTable.find? fun token => token.tokenPrefix.isPrefixOf bits.bitsSlice with
  | none => .error .tokenBitsNotFound
  | some token => do
    let (_, bits) := bits.splitTo token.tokenPrefix.length
    match token.ty with
    | .nullLiteral =>
      let (value, bits) ← bits.trySplitTo 8
      return (bits, t.write [(Bits.toNat value).toUInt8], 1)
    | .literal literalValue => return (bits, t.write [literalValue], 1)
    | .match distanceValueSize distanceBase =>
      if bytesWritten > maxDecompressedPerSegment then
        throw (.segmentDecompressedSizeExceedsLimit bytesWritten maxDecompressedPerSegment)
      handleMatch bits distanceValueSize distanceBase t (maxDecompressedPerSegment - bytesWritten)

/-- `while !bits.is_empty()`, in at most `fuel` rounds; each of them takes at least one bit. -/
def decodeTokens : Nat → BitsLeft → Target → Nat → Except ZgfxError Nat × Target
  | 0, _, t, bytesWritten => (.ok bytesWritten, t)
  | fuel + 1, bits, t, bytesWritten =>
    if bits.bitsSlice = [] then (.ok bytesWritten, t)
    else
      match handleToken bits t bytesWritten with
      | .error e => (.error e, t)
      | .ok (bits, t, written) =>
        let bytesWritten := bytesWritten + written
        if bytesWritten > maxDecompressedPerSegment then
          (.error (.segmentDecompressedSizeExceedsLimit bytesWritten maxDecompressedPerSegment), t)
        else decodeTokens fuel bits t bytesWritten

/-- The low three bits of the last byte count the unused bits of the byte before it. -/
def decompressSegment (t : Target) (encodedData : Bytes) : Except ZgfxError Nat × Target :=
  if encodedData = [] then (.ok 0, t)
  else
    let trailingUnused := (encodedData.getLastD 0 &&& 0x07).toNat
    if 8 * (encodedData.length - 1) < trailingUnused then
      (.error (.invalidTrailingBitCount trailingUnused), t)
    else
      let bits := (Bits.ofBytes encodedData).take (8 * (encodedData.length - 1) - trailingUnused)
      decodeTokens bits.length ⟨bits, 0⟩ t 0

def handleSegment (t : Target) (segment : BulkEncodedData) : Except ZgfxError Nat × Target :=
  if segment.data ≠ [] then
    if segment.isCompressed then decompressSegment t segment.data
    else (.ok segment.data.length, t.write segment.data)
  else (.ok 0, t)

/-- The segments of a multipart message, after the first ones wrote `bytesWritten` bytes. -/
def handleSegments (uncompressedSize : Nat) : List BulkEncodedData → Target → Nat →
    Except ZgfxError Nat × Target
  | [], t, bytesWritten =>
    (if bytesWritten ≠ uncompressedSize then
      .error (.invalidDecompressedSize bytesWritten uncompressedSize) else .ok bytesWritten, t)
  | segment :: segments, t, bytesWritten =>
    match handleSegment t segment with
    | (.error e, t) => (.error e, t)
    | (.ok written, t) =>
      let bytesWritten := bytesWritten + written
      if bytesWritten > uncompressedSize then
        (.error (.multipartTotalExceedsDeclared bytesWritten uncompressedSize), t)
      else if bytesWritten > maxDecompressedTotal then
        (.error (.multipartTotalExceedsBudget bytesWritten maxDecompressedTotal), t)
      else handleSegments uncompressedSize segments t bytesWritten

structure Decompressor where
  history : FixedCircularBuffer

namespace Decompressor

def new : Decompressor := ⟨.new historySize (by decide)⟩

/-- The result, and the decompressor and the output after it, whether it is an error or not. -/
def decompress (d : Decompressor) (input output : Bytes) : Except ZgfxError Nat × Decompressor × Bytes :=
  match SegmentedDataPdu.fromBuffer input with
  | .error e => (.error e, d, output)
  | .ok (.single segment) =>
    let (result, t) := handleSegment ⟨d.history, output⟩ segment
    (result, ⟨t.history⟩, t.output)
  | .ok (.multipart uncompressedSize segments) =>
    let (result, t) := handleSegments uncompressedSize segments ⟨d.history, output⟩ 0
    (result, ⟨t.history⟩, t.output)

end Decompressor

end Drift.Zgfx
