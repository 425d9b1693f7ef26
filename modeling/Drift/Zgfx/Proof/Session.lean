import Drift.Zgfx.Proof.Compressor
import Drift.Zgfx.Wrapper

/-!
# A session gives its messages back

What the wrapper makes of a message is decompressed to the message, compressed or not, and the histories
of both sides stay in step.
-/

namespace Drift.Zgfx

/-! ### Segments -/

theorem readBytes_append {n : Nat} {taken : Bytes} (h : taken.length = n) (rest : Bytes) :
    readBytes n (taken ++ rest) = .ok (taken, rest) := by
  unfold readBytes
  rw [if_pos (by rw [List.length_append]; omega), ← h, List.take_left, List.drop_left]

theorem ok_bind {α β : Type} (a : α) (f : α → Except ZgfxError β) : (Except.ok a >>= f) = f a := rfl

theorem readBytes_cons (byte : UInt8) (rest : Bytes) : readBytes 1 (byte :: rest) = .ok ([byte], rest) :=
  readBytes_append (List.length_singleton : [byte].length = 1) rest

/-- The flags byte of a segment, taken apart. -/
theorem wrapFlags_spec (compressed : Bool) :
    wrapFlags compressed &&& 0x0f = rdp8 ∧ wrapFlags compressed >>> 4 = if compressed then 2 else 0 := by
  revert compressed
  decide

theorem fromBuffer_segment (compressed : Bool) (data : Bytes) :
    BulkEncodedData.fromBuffer (wrapFlags compressed :: data) =
      .ok ⟨if compressed then 2 else 0, data⟩ := by
  obtain ⟨htype, hflags⟩ := wrapFlags_spec compressed
  unfold BulkEncodedData.fromBuffer
  rw [readBytes_cons]
  change (if wrapFlags compressed &&& 0x0f = rdp8 then _ else _) = _
  rw [if_pos htype, ← hflags]
  rfl

theorem isCompressed_segment (compressed : Bool) (data : Bytes) :
    (BulkEncodedData.mk (if compressed then 2 else 0) data).isCompressed = compressed := by
  have hall : ∀ compressed : Bool, decide ((if compressed then (2 : UInt8) else 0) &&& compressedFlag =
      compressedFlag) = compressed := by decide
  exact hall compressed

theorem fromBuffer_single (data : Bytes) (compressed : Bool) :
    SegmentedDataPdu.fromBuffer (wrapSingleSegment data compressed) =
      .ok (.single ⟨if compressed then 2 else 0, data⟩) := by
  unfold SegmentedDataPdu.fromBuffer wrapSingleSegment
  rw [readBytes_cons, ok_bind]
  simp only
  rw [if_pos trivial, fromBuffer_segment]
  rfl

theorem readSegments_wrapSegment (segments : List Bytes)
    (hsmall : ∀ segment ∈ segments, segment.length < u32Max) :
    SegmentedDataPdu.readSegments segments.length (segments.flatMap (wrapSegment false)) =
      .ok (segments.map (BulkEncodedData.mk 0)) := by
  induction segments with
  | nil => rfl
  | cons segment segments ih =>
      have hlength : ofLeBytes (toLeBytes 4 (segment.length + 1)) = segment.length + 1 := by
        apply ofLeBytes_toLeBytes
        have hlt := hsmall segment List.mem_cons_self
        have hmax : u32Max + 1 = 256 ^ 4 := by decide
        omega
      have hrest := ih fun other hother => hsmall other (List.mem_cons_of_mem segment hother)
      have hdata : ((wrapFlags false :: segment) ++ segments.flatMap (wrapSegment false)).take
          (segment.length + 1) = wrapFlags false :: segment :=
        List.take_left' (List.length_cons)
      have hafter : ((wrapFlags false :: segment) ++ segments.flatMap (wrapSegment false)).drop
          (segment.length + 1) = segments.flatMap (wrapSegment false) :=
        List.drop_left' (List.length_cons)
      rw [List.flatMap_cons, wrapSegment, List.append_assoc, List.length_cons,
        SegmentedDataPdu.readSegments, readBytes_append (length_toLeBytes 4 _), ok_bind]
      simp only
      rw [hlength, if_pos (by rw [List.length_append, List.length_cons]; omega), hdata, hafter, hrest,
        fromBuffer_segment]
      rfl

/-! ### Chunks -/

theorem flatten_chunks {size : Nat} (hsize : 0 < size) (data : Bytes) : (chunks data size).flatten = data := by
  have hrange : ∀ n, ((List.range n).map fun i => (data.drop (i * size)).take size).flatten =
      data.take (n * size) := by
    intro n
    induction n with
    | zero => rw [Nat.zero_mul, List.take_zero]; rfl
    | succ n ih =>
        rw [List.range_succ, List.map_append, List.flatten_append, ih, Nat.succ_mul, List.take_add]
        simp
  unfold chunks
  rw [hrange, List.take_of_length_le]
  have hmod := Nat.mod_lt (data.length + (size - 1)) hsize
  have hdiv := Nat.div_add_mod (data.length + (size - 1)) size
  rw [Nat.mul_comm] at hdiv
  omega

theorem length_of_mem_chunks {size : Nat} {data segment : Bytes} (h : segment ∈ chunks data size) :
    segment.length ≤ size := by
  obtain ⟨i, _, rfl⟩ := List.mem_map.mp h
  exact List.length_take_le _ _

theorem length_chunks (data : Bytes) (size : Nat) :
    (chunks data size).length = (data.length + (size - 1)) / size := by
  unfold chunks
  rw [List.length_map, List.length_range]

theorem fromBuffer_multipart {data wrapped : Bytes} (h : wrapMultipartSegments data false = some wrapped) :
    SegmentedDataPdu.fromBuffer wrapped =
      .ok (.multipart data.length ((chunks data zgfxSegmentedMaxsize).map (BulkEncodedData.mk 0))) := by
  unfold wrapMultipartSegments at h
  simp only at h
  by_cases hfits : (data.length + (zgfxSegmentedMaxsize - 1)) / zgfxSegmentedMaxsize ≤ u16Max ∧
      data.length ≤ u32Max
  · rw [if_pos hfits, Option.some_inj] at h
    have hsmall : ∀ segment ∈ chunks data zgfxSegmentedMaxsize, segment.length < u32Max := fun segment hmem =>
      Nat.lt_of_le_of_lt (length_of_mem_chunks hmem) (by decide)
    have hcount : ofLeBytes (toLeBytes 2 ((data.length + (zgfxSegmentedMaxsize - 1)) / zgfxSegmentedMaxsize)) =
        (data.length + (zgfxSegmentedMaxsize - 1)) / zgfxSegmentedMaxsize :=
      ofLeBytes_toLeBytes (Nat.lt_of_le_of_lt hfits.1 (by decide))
    have hlength : ofLeBytes (toLeBytes 4 data.length) = data.length :=
      ofLeBytes_toLeBytes (Nat.lt_of_le_of_lt hfits.2 (by decide))
    have hread := readSegments_wrapSegment _ hsmall
    rw [length_chunks] at hread
    generalize hn : (data.length + (zgfxSegmentedMaxsize - 1)) / zgfxSegmentedMaxsize = count
      at h hcount hread
    have hcountBytes := readBytes_append (length_toLeBytes 2 count)
      (toLeBytes 4 data.length ++ (chunks data zgfxSegmentedMaxsize).flatMap (wrapSegment false))
    have hlengthBytes := readBytes_append (length_toLeBytes 4 data.length)
      ((chunks data zgfxSegmentedMaxsize).flatMap (wrapSegment false))
    rw [← h, List.append_assoc, List.cons_append]
    unfold SegmentedDataPdu.fromBuffer
    rw [readBytes_cons, ok_bind]
    simp only
    rw [if_neg (by decide), if_pos trivial, hcountBytes, ok_bind]
    simp only
    rw [hlengthBytes, ok_bind]
    simp only
    rw [hcount, hread, ok_bind, hlength]
    rfl
  · rw [if_neg hfits] at h
    cases h

/-! ### Decompressing a message -/

/-- The history of the decompressor is what was sent, after the zeros of a new buffer. -/
def Decompressor.Received (d : Decompressor) (sent : Bytes) : Prop :=
  d.history.contents = Lz77.window historySize (List.replicate historySize 0 ++ sent) ∧
    d.history.buffer.length = historySize

theorem historySize_pos : 0 < historySize := by decide

theorem received_new : Decompressor.new.Received [] := by
  refine ⟨?_, FixedCircularBuffer.length_buffer_new historySize_pos⟩
  rw [List.append_nil, Lz77.window_of_le (Nat.le_of_eq List.length_replicate)]
  exact FixedCircularBuffer.contents_new historySize_pos

theorem Decompressor.Received.holds {d : Decompressor} {sent : Bytes} (h : d.Received sent) (output : Bytes) :
    (Target.mk d.history output).Holds (List.replicate historySize 0 ++ sent) := h

theorem Target.Holds.received {t : Target} {sent bytes : Bytes}
    (h : t.Holds (List.replicate historySize 0 ++ sent ++ bytes)) :
    (Decompressor.mk t.history).Received (sent ++ bytes) := by
  unfold Target.Holds at h
  rwa [List.append_assoc] at h

/-- The bits of a finished segment are decoded. -/
theorem decompressSegment_finish {w : BitWriter} {bs : List Bool} (h : BitWriter.Written w bs) (t : Target) :
    decompressSegment t w.finish = decodeTokens bs.length ⟨bs, 0⟩ t 0 := by
  obtain ⟨data, unused, hfinish, hfew, hbits⟩ := h.finish
  have hlast : ∀ n : Fin 8, (Nat.toUInt8 (n : Nat) &&& 0x07).toNat = n := by decide
  have hunused : ((data ++ [Nat.toUInt8 unused]).getLastD 0 &&& 0x07).toNat = unused := by
    rw [List.getLastD_concat]
    exact hlast ⟨unused, hfew⟩
  have hlength := congrArg List.length hbits
  rw [Bits.length_ofBytes, List.length_append, List.length_replicate] at hlength
  have hdata : 8 * ((data ++ [Nat.toUInt8 unused]).length - 1) - unused = bs.length := by
    rw [List.length_append, List.length_singleton]
    omega
  have htake : (Bits.ofBytes (data ++ [Nat.toUInt8 unused])).take bs.length = bs := by
    rw [Bits.ofBytes_append, hbits, List.append_assoc, List.take_left]
  unfold decompressSegment
  rw [hfinish, if_neg (by simp)]
  simp only
  rw [hunused, hdata, htake, if_neg]
  rw [List.length_append, List.length_singleton]
  omega

/-- What the compressor makes of a message is decompressed to it. -/
theorem decompressSegment_compress {c : Compressor} {sent : Bytes} (h : c.InStep sent) {data : Bytes}
    (hdata : data.length ≤ maxDecompressedPerSegment) {t : Target}
    (hholds : t.Holds (List.replicate historySize 0 ++ sent)) :
    ∃ t', decompressSegment t (c.compress data).2 = (.ok data.length, t') ∧ t'.output = t.output ++ data ∧
      t'.Holds (List.replicate historySize 0 ++ sent ++ data) := by
  obtain ⟨tokens, w, hcodes, hwritten, hcompressed, _⟩ := Compressor.compress_spec Compressor.kept_inStep h data
  obtain ⟨hvalid, hexpand⟩ := hcodes.valid.append (List.replicate historySize 0)
  rw [hcodes.adds, ← List.append_assoc] at hexpand
  have hlimit : 0 + data.length ≤ maxDecompressedPerSegment := by omega
  obtain ⟨t', hdecode, houtput, hholds'⟩ :=
    decodeTokens_tokenBits hholds hvalid hcodes.sized hexpand hlimit (Nat.le_refl _) 0
  rw [Nat.zero_add] at hdecode
  exact ⟨t', by rw [hcompressed, decompressSegment_finish hwritten, hdecode], houtput, hholds'⟩

theorem compress_ne_nil (c : Compressor) (data : Bytes) : (c.compress data).2 ≠ [] := by
  change BitWriter.finish _ ≠ []
  unfold BitWriter.finish
  exact List.concat_ne_nil _ _

theorem isCompressed_zero (data : Bytes) : (BulkEncodedData.mk 0 data).isCompressed = false :=
  isCompressed_segment false data

/-- A segment that is not compressed is passed on as it is. -/
theorem handleSegment_uncompressed {history : Bytes} {t : Target} (hholds : t.Holds history) (data : Bytes) :
    ∃ t', handleSegment t ⟨0, data⟩ = (.ok data.length, t') ∧ t'.output = t.output ++ data ∧
      t'.Holds (history ++ data) := by
  unfold handleSegment
  by_cases hempty : data = []
  · refine ⟨t, ?_, ?_, ?_⟩
    · rw [if_neg (not_not_intro hempty), hempty]
      rfl
    · rw [hempty, List.append_nil]
    · rwa [hempty, List.append_nil]
  · refine ⟨t.write data, ?_, rfl, hholds.write data⟩
    rw [if_pos hempty, isCompressed_zero]
    rfl

theorem handleSegments_uncompressed {segments : List Bytes} {history : Bytes} {t : Target}
    {uncompressedSize bytesWritten : Nat} (hholds : t.Holds history)
    (htotal : bytesWritten + segments.flatten.length = uncompressedSize)
    (hbudget : uncompressedSize ≤ maxDecompressedTotal) :
    ∃ t', handleSegments uncompressedSize (segments.map (BulkEncodedData.mk 0)) t bytesWritten =
        (.ok uncompressedSize, t') ∧
      t'.output = t.output ++ segments.flatten ∧ t'.Holds (history ++ segments.flatten) := by
  induction segments generalizing history t bytesWritten with
  | nil =>
      rw [List.flatten_nil, List.length_nil, Nat.add_zero] at htotal
      refine ⟨t, ?_, ?_, ?_⟩
      · rw [List.map_nil, handleSegments, if_neg (not_not_intro htotal), htotal]
      · rw [List.flatten_nil, List.append_nil]
      · rw [List.flatten_nil, List.append_nil]
        exact hholds
  | cons segment segments ih =>
      rw [List.flatten_cons, List.length_append, ← Nat.add_assoc] at htotal
      obtain ⟨t₁, hhandle, houtput₁, hholds₁⟩ := handleSegment_uncompressed hholds segment
      obtain ⟨t', hrest, houtput, hholds'⟩ := ih hholds₁ htotal
      refine ⟨t', ?_, ?_, ?_⟩
      · rw [List.map_cons, handleSegments, hhandle]
        simp only
        rw [if_neg (by omega), if_neg (by omega), hrest]
      · rw [houtput, houtput₁, List.flatten_cons, List.append_assoc]
      · rw [List.flatten_cons, ← List.append_assoc]
        exact hholds'

/-! ### Messages -/

/-- A message that the decompressor turns back into its data. -/
def GivesBack (d : Decompressor) (sent data wrapped : Bytes) : Prop :=
  ∃ d', d.decompress wrapped [] = (.ok data.length, d', data) ∧ d'.Received (sent ++ data)

theorem decompress_single {d : Decompressor} {input output : Bytes} {segment : BulkEncodedData}
    {result : Except ZgfxError Nat} {t : Target} (hparse : SegmentedDataPdu.fromBuffer input = .ok (.single segment))
    (h : handleSegment ⟨d.history, output⟩ segment = (result, t)) :
    d.decompress input output = (result, ⟨t.history⟩, t.output) := by
  unfold Decompressor.decompress
  rw [hparse]
  simp only
  rw [h]

theorem decompress_multipart {d : Decompressor} {input output : Bytes} {uncompressedSize : Nat}
    {segments : List BulkEncodedData} {result : Except ZgfxError Nat} {t : Target}
    (hparse : SegmentedDataPdu.fromBuffer input = .ok (.multipart uncompressedSize segments))
    (h : handleSegments uncompressedSize segments ⟨d.history, output⟩ 0 = (result, t)) :
    d.decompress input output = (result, ⟨t.history⟩, t.output) := by
  unfold Decompressor.decompress
  rw [hparse]
  simp only
  rw [h]

theorem segmentCount_le {length : Nat} (h : length ≤ maxDecompressedPerSegment) :
    (length + (zgfxSegmentedMaxsize - 1)) / zgfxSegmentedMaxsize ≤ u16Max :=
  calc (length + (zgfxSegmentedMaxsize - 1)) / zgfxSegmentedMaxsize
      ≤ (maxDecompressedPerSegment + (zgfxSegmentedMaxsize - 1)) / zgfxSegmentedMaxsize :=
        Nat.div_le_div_right (Nat.add_le_add_right h _)
    _ ≤ u16Max := by decide

theorem givesBack_wrapUncompressed {d : Decompressor} {sent data : Bytes} (h : d.Received sent)
    (hdata : data.length ≤ maxDecompressedPerSegment) :
    ∃ wrapped, wrapUncompressed data = some wrapped ∧ GivesBack d sent data wrapped := by
  unfold wrapUncompressed
  by_cases hsingle : data.length ≤ zgfxSegmentedMaxsize
  · obtain ⟨t', hhandle, houtput, hholds⟩ := handleSegment_uncompressed (h.holds []) data
    refine ⟨wrapSingleSegment data false, if_pos hsingle, ⟨t'.history⟩, ?_, hholds.received⟩
    rw [decompress_single (fromBuffer_single data false) hhandle, houtput]
    rfl
  · have hlength : data.length ≤ u32Max := Nat.le_trans hdata (by decide)
    have hwrap : wrapMultipartSegments data false = some _ := if_pos ⟨segmentCount_le hdata, hlength⟩
    have hflatten : (chunks data zgfxSegmentedMaxsize).flatten = data := flatten_chunks (by decide) data
    have htotal : 0 + (chunks data zgfxSegmentedMaxsize).flatten.length = data.length := by
      rw [hflatten, Nat.zero_add]
    obtain ⟨t', hhandle, houtput, hholds⟩ :=
      handleSegments_uncompressed (h.holds []) htotal (Nat.le_trans hdata (by decide))
    rw [hflatten] at houtput hholds
    refine ⟨_, (if_neg hsingle).trans hwrap, ⟨t'.history⟩, ?_, hholds.received⟩
    rw [decompress_multipart (fromBuffer_multipart hwrap) hhandle, houtput]
    rfl

theorem givesBack_wrapCompressed {c : Compressor} {d : Decompressor} {sent data : Bytes} (hc : c.InStep sent)
    (h : d.Received sent) (hdata : data.length ≤ maxDecompressedPerSegment) :
    GivesBack d sent data (wrapSingleSegment (c.compress data).2 true) := by
  obtain ⟨t', hsegment, houtput, hholds⟩ := decompressSegment_compress hc hdata (h.holds [])
  refine ⟨⟨t'.history⟩, ?_, hholds.received⟩
  have hhandle : handleSegment ⟨d.history, []⟩ ⟨if true then 2 else 0, (c.compress data).2⟩ =
      (.ok data.length, t') := by
    unfold handleSegment
    rw [if_pos (compress_ne_nil c data), isCompressed_segment true, if_pos rfl, hsegment]
  rw [decompress_single (fromBuffer_single _ true) hhandle, houtput]
  rfl

/-! ### Sessions -/

structure Message where
  data : Bytes
  mode : CompressionMode

/-- Messages through one compressor. -/
def sendAll : List Message → Compressor → Option (List Bytes)
  | [], _ => some []
  | m :: messages, c => do
    let (wrapped, c) := compressAndWrapEgfx m.data c m.mode
    return (← wrapped) :: (← sendAll messages c)

/-- Messages through one decompressor, each into an empty output. -/
def receiveAll : List Bytes → Decompressor → List (Except ZgfxError Nat × Bytes)
  | [], _ => []
  | wrapped :: messages, d =>
    let (result, d, output) := d.decompress wrapped []
    (result, output) :: receiveAll messages d

/-- The compressor takes part in the session or it does not. -/
def TakesPart (c : Compressor) (sent : Bytes) (mode : CompressionMode) : Prop :=
  mode ≠ .never → c.InStep sent

theorem givesBack_step {c : Compressor} {d : Decompressor} {sent : Bytes} {m : Message}
    (hd : d.Received sent) (hc : TakesPart c sent m.mode)
    (hdata : m.data.length ≤ maxDecompressedPerSegment) :
    ∃ wrapped, (compressAndWrapEgfx m.data c m.mode).1 = some wrapped ∧ GivesBack d sent m.data wrapped ∧
      TakesPart (compressAndWrapEgfx m.data c m.mode).2 (sent ++ m.data) m.mode := by
  obtain ⟨plain, hplain, hgives⟩ := givesBack_wrapUncompressed hd hdata
  cases hmode : m.mode with
  | never => exact ⟨plain, hplain, hgives, fun hne => absurd rfl hne⟩
  | auto =>
      have hin := hc (by rw [hmode]; decide)
      obtain ⟨_, _, _, _, _, hafter⟩ := Compressor.compress_spec Compressor.kept_inStep hin m.data
      unfold compressAndWrapEgfx
      by_cases hfits : (c.compress m.data).2.length ≤ zgfxSegmentedMaxsize
      · have hcompressed : wrapCompressed (c.compress m.data).2 = some _ := if_pos hfits
        simp only
        rw [if_pos hfits, hcompressed, hplain]
        by_cases hless : (wrapSingleSegment (c.compress m.data).2 true).length < plain.length
        · exact ⟨_, congrArg some (if_pos hless), givesBack_wrapCompressed hin hd hdata, fun _ => hafter⟩
        · exact ⟨_, congrArg some (if_neg hless), hgives, fun _ => hafter⟩
      · simp only
        rw [if_neg hfits]
        exact ⟨plain, hplain, hgives, fun _ => hafter⟩
  | always =>
      have hin := hc (by rw [hmode]; decide)
      obtain ⟨_, _, _, _, _, hafter⟩ := Compressor.compress_spec Compressor.kept_inStep hin m.data
      unfold compressAndWrapEgfx
      by_cases hfits : (c.compress m.data).2.length ≤ zgfxSegmentedMaxsize
      · simp only
        rw [if_pos hfits]
        exact ⟨_, if_pos hfits, givesBack_wrapCompressed hin hd hdata, fun _ => hafter⟩
      · simp only
        rw [if_neg hfits]
        exact ⟨plain, hplain, hgives, fun _ => hafter⟩

theorem receiveAll_sendAll {messages : List Message} {c : Compressor} {d : Decompressor} {sent : Bytes}
    (hd : d.Received sent) (hc : ∀ m ∈ messages, TakesPart c sent m.mode)
    (hsize : ∀ m ∈ messages, m.data.length ≤ maxDecompressedPerSegment)
    (hmode : (∀ m ∈ messages, m.mode = .never) ∨ ∀ m ∈ messages, m.mode ≠ .never) :
    ∃ wrapped, sendAll messages c = some wrapped ∧
      receiveAll wrapped d = messages.map fun m => (.ok m.data.length, m.data) := by
  induction messages generalizing c d sent with
  | nil => exact ⟨[], rfl, rfl⟩
  | cons m messages ih =>
      obtain ⟨first, hfirst, ⟨d', hdecompress, hd'⟩, hafter⟩ := givesBack_step hd
        (hc m List.mem_cons_self) (hsize m List.mem_cons_self)
      have hc' : ∀ other ∈ messages,
          TakesPart (compressAndWrapEgfx m.data c m.mode).2 (sent ++ m.data) other.mode := by
        intro other hother hne
        rcases hmode with hnever | hused
        · exact absurd (hnever other (List.mem_cons_of_mem m hother)) hne
        · exact hafter (hused m List.mem_cons_self)
      obtain ⟨rest, hrest, hreceive⟩ := ih hd' hc'
        (fun other hother => hsize other (List.mem_cons_of_mem m hother))
        (hmode.imp (fun h other hother => h other (List.mem_cons_of_mem m hother))
          fun h other hother => h other (List.mem_cons_of_mem m hother))
      refine ⟨first :: rest, ?_, ?_⟩
      · rw [sendAll]
        simp only
        rw [hfirst, hrest]
        rfl
      · rw [receiveAll, hdecompress]
        simp only
        rw [hreceive, List.map_cons]

/-- Over a whole session that compresses every message or none, every message of at most 64 MiB is wrapped
and comes out as it went in. -/
theorem session_round_trip (messages : List Message)
    (hsize : ∀ m ∈ messages, m.data.length ≤ maxDecompressedPerSegment)
    (hmode : (∀ m ∈ messages, m.mode = .never) ∨ ∀ m ∈ messages, m.mode ≠ .never) :
    ∃ wrapped, sendAll messages .new = some wrapped ∧
      receiveAll wrapped .new = messages.map fun m => (.ok m.data.length, m.data) :=
  receiveAll_sendAll received_new (fun _ _ _ => Compressor.inStep_new) hsize hmode

theorem session_round_trip_two :
    ∃ wrapped, sendAll [⟨[1, 2, 3, 1, 2, 3], .auto⟩, ⟨[3, 1, 2, 3], .always⟩] .new = some wrapped ∧
      receiveAll wrapped .new = [(.ok 6, [1, 2, 3, 1, 2, 3]), (.ok 4, [3, 1, 2, 3])] :=
  session_round_trip [⟨[1, 2, 3, 1, 2, 3], .auto⟩, ⟨[3, 1, 2, 3], .always⟩] (by decide) (.inr (by decide))

end Drift.Zgfx
