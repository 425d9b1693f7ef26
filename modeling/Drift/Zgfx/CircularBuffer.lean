import Drift.Core.Geometry
import Mathlib.Data.List.Basic

/-!
# The history buffer

The bytes that the decompressor wrote last, in a buffer of a fixed size that is written round and round.
-/

namespace Drift.Zgfx

structure FixedCircularBuffer where
  buffer : Bytes
  position : Nat
  position_lt : position < buffer.length

namespace FixedCircularBuffer

def new (size : Nat) (h : 0 < size) : FixedCircularBuffer where
  buffer := List.replicate size 0
  position := 0
  position_lt := by rwa [List.length_replicate]

/-! ### Writing -/

/-- `buffer[start..start + bytes.len()].clone_from_slice(bytes)`. -/
def overwrite (buffer : Bytes) (start : Nat) (bytes : Bytes) : Bytes :=
  buffer.take start ++ bytes ++ buffer.drop (start + bytes.length)

/-- Where the bytes go, and those of them that stay. -/
def place (size position : Nat) (buf : Bytes) : Nat × Bytes :=
  if size < buf.length then
    let residue := buf.length - size
    ((position + residue) % size, buf.drop residue)
  else (position, buf)

/-- The buffer and the position after at most as many bytes as it holds. -/
def put (buffer : Bytes) (position : Nat) (buf : Bytes) : Bytes × Nat :=
  if position + buf.length ≤ buffer.length then
    (overwrite buffer position buf, position + buf.length)
  else
    let toBack := buf.take (buffer.length - position)
    let toFront := buf.drop (buffer.length - position)
    (overwrite (overwrite buffer position toBack) 0 toFront, buf.length - toBack.length)

def written (b : FixedCircularBuffer) (buf : Bytes) : Bytes × Nat :=
  let placed := place b.buffer.length b.position buf
  let stored := put b.buffer placed.1 placed.2
  (stored.1, if stored.2 = stored.1.length then 0 else stored.2)

theorem length_overwrite {buffer bytes : Bytes} {start : Nat}
    (h : start + bytes.length ≤ buffer.length) : (overwrite buffer start bytes).length = buffer.length := by
  simp only [overwrite, List.length_append, List.length_take, List.length_drop]
  omega

theorem place_spec {size position : Nat} (h : position < size) (buf : Bytes) :
    (place size position buf).1 < size ∧ (place size position buf).2.length = min size buf.length := by
  unfold place
  by_cases hlong : size < buf.length
  · rw [if_pos hlong]
    refine ⟨Nat.mod_lt _ (by omega), ?_⟩
    rw [List.length_drop]
    omega
  · rw [if_neg hlong]
    exact ⟨h, (Nat.min_eq_right (Nat.le_of_not_lt hlong)).symm⟩

theorem put_spec {buffer buf : Bytes} {position : Nat} (hposition : position < buffer.length)
    (hbuf : buf.length ≤ buffer.length) :
    (put buffer position buf).1.length = buffer.length ∧
      (put buffer position buf).2 ≤ buffer.length := by
  unfold put
  by_cases hfits : position + buf.length ≤ buffer.length
  · rw [if_pos hfits]
    exact ⟨length_overwrite hfits, hfits⟩
  · rw [if_neg hfits]
    have hback : (overwrite buffer position (buf.take (buffer.length - position))).length =
        buffer.length := by
      apply length_overwrite
      rw [List.length_take]
      omega
    refine ⟨?_, Nat.le_trans (Nat.sub_le _ _) hbuf⟩
    rw [length_overwrite, hback]
    rw [hback, List.length_drop]
    omega

theorem written_spec (b : FixedCircularBuffer) (buf : Bytes) :
    (b.written buf).1.length = b.buffer.length ∧ (b.written buf).2 < (b.written buf).1.length := by
  obtain ⟨hstart, hkept⟩ := place_spec b.position_lt buf
  have hfits : (place b.buffer.length b.position buf).2.length ≤ b.buffer.length := by omega
  obtain ⟨hlength, hposition⟩ := put_spec hstart hfits
  have hpos := b.position_lt
  refine ⟨hlength, ?_⟩
  change (if _ then _ else _) < _
  by_cases hend : (put b.buffer (place b.buffer.length b.position buf).1
      (place b.buffer.length b.position buf).2).2 =
    (put b.buffer (place b.buffer.length b.position buf).1
      (place b.buffer.length b.position buf).2).1.length
  · rw [if_pos hend]
    change 0 < (put _ _ _).1.length
    omega
  · rw [if_neg hend]
    change _ < (put _ _ _).1.length
    omega

/-- `write_all`: one call of `write` takes all the bytes. -/
def writeAll (b : FixedCircularBuffer) (buf : Bytes) : FixedCircularBuffer where
  buffer := (b.written buf).1
  position := (b.written buf).2
  position_lt := (b.written_spec buf).2

/-! ### Reading -/

/-- `while written < length`, in at most `fuel` rounds: `chunk` over and over. -/
def repeatChunk (chunk : Nat → Bytes) (dstLength length : Nat) : Nat → Nat → Bytes → Bytes
  | 0, _, output => output
  | fuel + 1, written, output =>
    if written < length then
      let toWrite := min (length - written) dstLength
      repeatChunk chunk dstLength length fuel (written + toWrite) (output ++ chunk toWrite)
    else output

/-- The error of an offset that is longer than the buffer. -/
structure InvalidOffset where
  offset : Nat
  bufferSize : Nat
  deriving DecidableEq

/-- Appends `length` bytes from `offset` bytes back. Every round writes at least one byte of a positive
`offset`; `0` would loop, and is never passed. -/
def readWithOffset (b : FixedCircularBuffer) (offset length : Nat) (output : Bytes) :
    Except InvalidOffset Bytes :=
  if offset > b.buffer.length then .error ⟨offset, b.buffer.length⟩
  else
    let position := (b.buffer.length + b.position - offset) % b.buffer.length
    let dstLength := min offset length
    if position + dstLength ≤ b.buffer.length then
      .ok (repeatChunk (fun n => (b.buffer.drop position).take n) dstLength length length 0 output)
    else
      let toFront := b.buffer.drop position
      let toBack := b.buffer.take (dstLength - toFront.length)
      let chunk := fun n =>
        let toWriteToFront := min toFront.length n
        toFront.take toWriteToFront ++ toBack.take (n - toWriteToFront)
      .ok (repeatChunk chunk dstLength length length 0 output)

end FixedCircularBuffer

end Drift.Zgfx
