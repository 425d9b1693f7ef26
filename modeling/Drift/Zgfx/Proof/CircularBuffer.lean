import Drift.Lib.Lz77
import Drift.Zgfx.CircularBuffer

/-!
# The history buffer is a window

Read from its position round to it, the buffer holds the last bytes written, and a read from it is the
copy of a dictionary coder.
-/

namespace Drift.Zgfx.FixedCircularBuffer

/-- The bytes from the oldest to the newest. -/
def contents (b : FixedCircularBuffer) : Bytes :=
  b.buffer.drop b.position ++ b.buffer.take b.position

@[simp]
theorem length_contents (b : FixedCircularBuffer) : b.contents.length = b.buffer.length := by
  have hposition := b.position_lt
  simp only [contents, List.length_append, List.length_drop, List.length_take]
  omega

theorem length_buffer_writeAll (b : FixedCircularBuffer) (buf : Bytes) :
    (b.writeAll buf).buffer.length = b.buffer.length := (b.written_spec buf).1

@[simp]
theorem length_buffer_new {size : Nat} (h : 0 < size) : (new size h).buffer.length = size :=
  List.length_replicate

theorem length_buffer_foldl (b : FixedCircularBuffer) (writes : List Bytes) :
    (writes.foldl writeAll b).buffer.length = b.buffer.length := by
  induction writes generalizing b with
  | nil => rfl
  | cons buf writes ih => rw [List.foldl_cons, ih, length_buffer_writeAll]

/-! ### Writing -/

/-- What `put` leaves, read round from its position. -/
theorem contents_put {buffer buf : Bytes} {position : Nat} (hposition : position < buffer.length)
    (hbuf : buf.length ≤ buffer.length) :
    (put buffer position buf).1.drop (put buffer position buf).2 ++
        (put buffer position buf).1.take (put buffer position buf).2 =
      Lz77.window buffer.length (buffer.drop position ++ buffer.take position ++ buf) := by
  have hrotated : (buffer.drop position ++ buffer.take position).length = buffer.length := by
    simp only [List.length_append, List.length_drop, List.length_take]
    omega
  rw [Lz77.window_append_of_ge _ hbuf,
    Lz77.window_eq_drop (k := buf.length) (by rw [hrotated]; omega)]
  unfold put
  by_cases hfits : position + buf.length ≤ buffer.length
  · have hhead : (buffer.take position ++ buf).length = position + buf.length := by
      rw [List.length_append, List.length_take]
      omega
    rw [if_pos hfits]
    simp only [overwrite]
    rw [List.drop_append_of_le_length (by rw [hhead]), List.take_append_of_le_length (by rw [hhead]),
      List.drop_eq_nil_of_le (by rw [hhead]), List.nil_append, List.take_of_length_le (by rw [hhead]),
      List.drop_append_of_le_length (by rw [List.length_drop]; omega), List.drop_drop,
      List.append_assoc]
  · have hback : (buf.take (buffer.length - position)).length = buffer.length - position := by
      rw [List.length_take]
      omega
    have hfront : (buf.drop (buffer.length - position)).length =
        buf.length - (buffer.length - position) := List.length_drop
    have hend : position + (buffer.length - position) = buffer.length := by omega
    have hrest : (buffer.drop position ++ buffer.take position).drop buf.length =
        (buffer.take position).drop (buf.length - (buffer.length - position)) := by
      rw [List.drop_append, List.length_drop,
        List.drop_eq_nil_of_le (by rw [List.length_drop]; omega), List.nil_append]
    rw [if_neg hfits, hrest]
    simp only [overwrite]
    rw [hback, hend, List.drop_length, List.append_nil, List.take_zero, List.nil_append, Nat.zero_add,
      ← hfront, List.drop_left, List.take_left, hfront,
      List.drop_append_of_le_length (by rw [List.length_take]; omega), List.append_assoc,
      List.take_append_drop]

/-- The contents only depend on the bytes that stay, and on where the first of them goes. -/
theorem contents_place (b : FixedCircularBuffer) (buf : Bytes) :
    Lz77.window b.buffer.length
        (b.buffer.drop (place b.buffer.length b.position buf).1 ++
          b.buffer.take (place b.buffer.length b.position buf).1 ++
          (place b.buffer.length b.position buf).2) =
      Lz77.window b.buffer.length (b.contents ++ buf) := by
  unfold place
  by_cases hlong : b.buffer.length < buf.length
  · have hkept : (buf.drop (buf.length - b.buffer.length)).length = b.buffer.length := by
      rw [List.length_drop]
      omega
    rw [if_pos hlong]
    calc Lz77.window b.buffer.length (_ ++ buf.drop (buf.length - b.buffer.length))
        = Lz77.window b.buffer.length (buf.drop (buf.length - b.buffer.length)) :=
          Lz77.window_append_of_le _ hkept.ge
      _ = buf.drop (buf.length - b.buffer.length) := Lz77.window_of_le hkept.le
      _ = Lz77.window b.buffer.length (b.contents ++ buf) :=
          (Lz77.window_append_of_le _ hlong.le).symm
  · rw [if_neg hlong]
    rfl

/-- A write slides the window. -/
theorem contents_writeAll (b : FixedCircularBuffer) (buf : Bytes) :
    (b.writeAll buf).contents = Lz77.window b.buffer.length (b.contents ++ buf) := by
  obtain ⟨hstart, hkept⟩ := place_spec b.position_lt buf
  have hfits : (place b.buffer.length b.position buf).2.length ≤ b.buffer.length := by omega
  have hput := contents_put hstart hfits
  obtain ⟨hlength, _⟩ := put_spec hstart hfits
  rw [← contents_place, ← hput]
  change (put b.buffer _ _).1.drop (if _ then _ else _) ++ (put b.buffer _ _).1.take (if _ then _ else _) = _
  by_cases hend : (put b.buffer (place b.buffer.length b.position buf).1
      (place b.buffer.length b.position buf).2).2 =
    (put b.buffer (place b.buffer.length b.position buf).1
      (place b.buffer.length b.position buf).2).1.length
  · rw [if_pos hend, hend, List.drop_zero, List.take_zero, List.drop_length, List.take_length,
      List.append_nil, List.nil_append]
  · rw [if_neg hend]

theorem contents_new {size : Nat} (h : 0 < size) : (new size h).contents = List.replicate size 0 := by
  change (List.replicate size (0 : UInt8)).drop 0 ++ (List.replicate size (0 : UInt8)).take 0 = _
  rw [List.drop_zero, List.take_zero, List.append_nil]

/-- Over any writes the buffer holds the last bytes of all that was written. -/
theorem contents_foldl (b : FixedCircularBuffer) (writes : List Bytes) :
    (writes.foldl writeAll b).contents =
      Lz77.window b.buffer.length (b.contents ++ writes.flatten) := by
  induction writes generalizing b with
  | nil =>
      rw [List.foldl_nil, List.flatten_nil, List.append_nil,
        Lz77.window_of_le (length_contents b).le]
  | cons buf writes ih =>
      rw [List.foldl_cons, ih, length_buffer_writeAll, contents_writeAll, Lz77.window_append_window,
        List.append_assoc, List.flatten_cons]

/-! ### Reading -/

/-- The rounds write the chunk over and over. -/
theorem repeatChunk_eq {chunk : Bytes} {f : Nat → Bytes} {dstLength length fuel written : Nat}
    {output : Bytes} (hchunk : chunk.length = dstLength) (hf : ∀ n, n ≤ dstLength → f n = chunk.take n)
    (hpos : 0 < dstLength ∨ length = 0) (hfuel : length ≤ written + fuel) :
    repeatChunk f dstLength length fuel written output = output ++ Lz77.cycle chunk (length - written) := by
  induction fuel generalizing written output with
  | zero =>
      have hdone : length - written = 0 := by omega
      rw [repeatChunk, hdone, Lz77.cycle_zero, List.append_nil]
  | succ fuel ih =>
      unfold repeatChunk
      by_cases hmore : written < length
      · rw [if_pos hmore]
        simp only
        rw [ih (by omega), hf _ (Nat.min_le_right _ _), List.append_assoc]
        congr 1
        by_cases hlast : length - written ≤ dstLength
        · have hdone : length - (written + (length - written)) = 0 := by omega
          rw [Nat.min_eq_left hlast, hdone, Lz77.cycle_zero, List.append_nil,
            Lz77.cycle_of_le (by omega)]
        · have hrest : length - written = chunk.length + (length - (written + dstLength)) := by omega
          rw [Nat.min_eq_right (by omega), hrest, Lz77.cycle_add, List.take_of_length_le hchunk.le]
      · have hdone : length - written = 0 := by omega
        rw [if_neg hmore, hdone, Lz77.cycle_zero, List.append_nil]

/-- From the place that is `offset` bytes back, round the buffer. -/
theorem window_contents (b : FixedCircularBuffer) {offset : Nat} (hpos : 0 < offset)
    (hle : offset ≤ b.buffer.length) :
    Lz77.window offset b.contents =
      (b.buffer.drop ((b.buffer.length + b.position - offset) % b.buffer.length) ++
        b.buffer).take offset := by
  have hposition := b.position_lt
  rw [Lz77.window_eq_drop (k := b.buffer.length - offset) (by rw [length_contents])]
  by_cases hback : offset ≤ b.position
  · have hplace : (b.buffer.length + b.position - offset) % b.buffer.length = b.position - offset := by
      have hsum : b.buffer.length + b.position - offset = b.position - offset + b.buffer.length := by omega
      rw [hsum, Nat.add_mod_right, Nat.mod_eq_of_lt (by omega)]
    have hskip : b.buffer.length - offset - (b.buffer.length - b.position) = b.position - offset := by omega
    have htail : b.position - (b.position - offset) = offset := by omega
    rw [hplace, contents, List.drop_append, List.length_drop,
      List.drop_eq_nil_of_le (by rw [List.length_drop]; omega), List.nil_append, hskip, List.drop_take,
      htail, List.take_append_of_le_length (by rw [List.length_drop]; omega)]
  · have hplace : (b.buffer.length + b.position - offset) % b.buffer.length =
        b.buffer.length + b.position - offset := Nat.mod_eq_of_lt (by omega)
    have hskip : b.position + (b.buffer.length - offset) = b.buffer.length + b.position - offset := by omega
    have hrest : offset - (b.buffer.drop (b.buffer.length + b.position - offset)).length = b.position := by
      rw [List.length_drop]
      omega
    have hahead : (b.buffer.drop (b.buffer.length + b.position - offset)).length ≤ offset := by
      rw [List.length_drop]
      omega
    rw [hplace, contents, List.drop_append_of_le_length (by rw [List.length_drop]; omega), List.drop_drop,
      hskip, List.take_append, hrest, List.take_of_length_le hahead]

theorem readWithOffset_error (b : FixedCircularBuffer) {offset : Nat} (h : b.buffer.length < offset)
    (length : Nat) (output : Bytes) :
    b.readWithOffset offset length output = .error ⟨offset, b.buffer.length⟩ := if_pos h

/-- A read is a copy out of the window. -/
theorem readWithOffset_eq (b : FixedCircularBuffer) {offset : Nat} (hpos : 0 < offset)
    (hle : offset ≤ b.buffer.length) (length : Nat) (output : Bytes) :
    b.readWithOffset offset length output =
      .ok (output ++ Lz77.cycle (Lz77.window offset b.contents) length) := by
  have hwindow := b.window_contents hpos hle
  have hlength : (Lz77.window offset b.contents).length = offset := by
    rw [Lz77.length_window, length_contents]
    omega
  generalize hplace : (b.buffer.length + b.position - offset) % b.buffer.length = position at hwindow
  have hposition : position < b.buffer.length := by
    rw [← hplace]
    exact Nat.mod_lt _ (Nat.lt_of_lt_of_le hpos hle)
  have hchunk : (Lz77.window offset b.contents).take length =
      (b.buffer.drop position ++ b.buffer).take (min offset length) := by
    rw [hwindow, List.take_take, Nat.min_comm]
  have hdst : ((Lz77.window offset b.contents).take length).length = min offset length := by
    rw [List.length_take, hlength, Nat.min_comm]
  have hrounds : 0 < min offset length ∨ length = 0 := by omega
  unfold readWithOffset
  rw [if_neg (Nat.not_lt.mpr hle), hplace]
  simp only
  by_cases hfront : position + min offset length ≤ b.buffer.length
  · rw [if_pos hfront, repeatChunk_eq hdst _ hrounds (by omega), Nat.sub_zero, Lz77.cycle_take]
    intro n hn
    rw [hchunk, List.take_take, Nat.min_eq_left hn,
      List.take_append_of_le_length (by rw [List.length_drop]; omega)]
  · rw [if_neg hfront, repeatChunk_eq hdst _ hrounds (by omega), Nat.sub_zero, Lz77.cycle_take]
    intro n hn
    have hsplit : n - min (b.buffer.length - position) n = n - (b.buffer.length - position) := by omega
    have hfits : n - (b.buffer.length - position) ≤
        min offset length - (b.buffer.length - position) := by omega
    have hleft : (b.buffer.drop position).take (min (b.buffer.drop position).length n) =
        (b.buffer.drop position).take n := by
      rw [Nat.min_comm, ← List.take_take, List.take_length]
    have hright : ((Lz77.window offset b.contents).take length).take n =
        (b.buffer.drop position).take n ++ b.buffer.take (n - (b.buffer.length - position)) := by
      rw [hchunk, List.take_take, Nat.min_eq_left hn, List.take_append, List.length_drop]
    rw [hright, hleft, List.take_take, List.length_drop, hsplit, Nat.min_eq_left hfits]

/-- After any writes to a new buffer a read continues them as a copy of a dictionary coder does; it fails if
and only if it reaches back over the whole buffer. -/
theorem read_after_writes {size : Nat} (hsize : 0 < size) (writes : List Bytes) {offset : Nat}
    (hoffset : 0 < offset) (length : Nat) (output : Bytes) :
    ((writes.foldl writeAll (new size hsize)).readWithOffset offset length output).toOption =
      if offset ≤ size then
        some (output ++ (Lz77.copy (List.replicate size 0 ++ writes.flatten) offset length).drop
          (size + writes.flatten.length))
      else none := by
  have hlength : (writes.foldl writeAll (new size hsize)).buffer.length = size := by
    rw [length_buffer_foldl, length_buffer_new]
  have hhistory : (List.replicate size (0 : UInt8) ++ writes.flatten).length =
      size + writes.flatten.length := by rw [List.length_append, List.length_replicate]
  by_cases hle : offset ≤ size
  · rw [if_pos hle, readWithOffset_eq _ hoffset (by rw [hlength]; exact hle), contents_foldl, contents_new,
      length_buffer_new, Lz77.window_window hle, Lz77.copy_eq hoffset (by rw [hhistory]; omega), ← hhistory,
      List.drop_left]
    rfl
  · rw [if_neg hle, readWithOffset_error _ (by omega)]
    rfl

theorem read_after_writes_overlap :
    (([[1, 2], [3, 4, 5]].foldl writeAll (new 4 (by decide))).readWithOffset 2 5 [9]).toOption =
      some [9, 4, 5, 4, 5, 4] :=
  (read_after_writes (by decide) [[1, 2], [3, 4, 5]] (by decide : 0 < 2) 5 [9]).trans (by decide)

end Drift.Zgfx.FixedCircularBuffer
