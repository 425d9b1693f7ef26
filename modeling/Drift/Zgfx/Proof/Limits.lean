import Drift.Zgfx.Proof.Session

/-!
# What any sender can make of the decompressor

Whatever the bytes of a message are, what the decompressor writes is bounded, its history holds what it
wrote, in an error as well, and a message that it accepts has the length that it reports.
-/

namespace Drift.Zgfx

theorem bind_eq_ok {α β : Type} {x : Except ZgfxError α} {f : α → Except ZgfxError β} {b : β}
    (h : (x >>= f) = .ok b) : ∃ a, x = .ok a ∧ f a = .ok b := by
  cases x with
  | error e => cases h
  | ok a => exact ⟨a, rfl, h⟩

/-! ### Tokens -/

/-- A step writes bytes of some number, at most `limit` of them. -/
def Writes (t : Target) (limit : Nat) (result : BitsLeft × Target × Nat) : Prop :=
  ∃ bytes, result.2.1 = t.write bytes ∧ result.2.2 = bytes.length ∧ bytes.length ≤ limit

theorem readUnencodedBytes_writes {bits : BitsLeft} {t : Target} {maxRemaining : Nat}
    {result : BitsLeft × Target × Nat} (h : readUnencodedBytes bits t maxRemaining = .ok result) :
    Writes t maxRemaining result := by
  unfold readUnencodedBytes at h
  obtain ⟨⟨lengthBits, bits₁⟩, _, h⟩ := bind_eq_ok h
  simp only at h
  by_cases hlimit : Bits.toNat lengthBits > maxRemaining
  · rw [if_pos hlimit] at h
    cases h
  · rw [if_neg hlimit] at h
    obtain ⟨bits₂, _, h⟩ := bind_eq_ok h
    obtain ⟨⟨unencodedBits, bits₃⟩, _, h⟩ := bind_eq_ok h
    cases h
    exact ⟨_, rfl, rfl, by rw [Bits.length_toBytes]; omega⟩

theorem readEncodedBytes_writes {bits : BitsLeft} {distance : Nat} {t : Target} {maxRemaining : Nat}
    {result : BitsLeft × Target × Nat} (hpos : 0 < distance) (hle : distance ≤ t.history.buffer.length)
    (h : readEncodedBytes bits distance t maxRemaining = .ok result) : Writes t maxRemaining result := by
  unfold readEncodedBytes at h
  obtain ⟨⟨length, bits₁⟩, _, h⟩ := bind_eq_ok h
  simp only at h
  by_cases hlimit : length > maxRemaining
  · rw [if_pos hlimit] at h
    cases h
  · rw [if_neg hlimit, FixedCircularBuffer.readWithOffset_eq _ hpos hle] at h
    have hcycle : (Lz77.cycle (Lz77.window distance t.history.contents) length).length = length := by
      apply Lz77.length_cycle
      intro hnil
      have hlength := congrArg List.length hnil
      rw [Lz77.length_window, FixedCircularBuffer.length_contents, List.length_nil] at hlength
      omega
    cases h
    refine ⟨_, ?_, hcycle.symm, by omega⟩
    simp only
    rw [List.drop_left]
    rfl

theorem handleMatch_writes {bits : BitsLeft} {size base : Nat} {t : Target} {maxRemaining : Nat}
    {result : BitsLeft × Target × Nat} (hlength : t.history.buffer.length = historySize)
    (h : handleMatch bits size base t maxRemaining = .ok result) : Writes t maxRemaining result := by
  unfold handleMatch at h
  obtain ⟨⟨distanceValue, bits₁⟩, _, h⟩ := bind_eq_ok h
  simp only at h
  generalize base + Bits.toNat distanceValue = distance at h
  by_cases hwide : distance > u32Max
  · rw [if_pos hwide] at h
    cases h
  · rw [if_neg hwide] at h
    by_cases hzero : distance = 0
    · rw [if_pos hzero] at h
      exact readUnencodedBytes_writes h
    · rw [if_neg hzero] at h
      by_cases hfar : distance > historySize
      · rw [if_pos hfar] at h
        cases h
      · rw [if_neg hfar] at h
        refine readEncodedBytes_writes (Nat.pos_of_ne_zero hzero) ?_ h
        rw [hlength]
        exact Nat.le_of_not_lt hfar

/-- One token writes at most one byte over the limit. -/
theorem handleToken_writes {bits : BitsLeft} {t : Target} {bytesWritten : Nat}
    {result : BitsLeft × Target × Nat} (hlength : t.history.buffer.length = historySize)
    (h : handleToken bits t bytesWritten = .ok result) :
    Writes t (maxDecompressedPerSegment - bytesWritten + 1) result := by
  unfold handleToken at h
  cases hfind : tokenTable.find? fun token => token.tokenPrefix.isPrefixOf bits.bitsSlice with
  | none =>
      rw [hfind] at h
      cases h
  | some token =>
      rw [hfind] at h
      simp only at h
      cases hty : token.ty with
      | nullLiteral =>
          rw [hty] at h
          obtain ⟨⟨value, bits₁⟩, _, h⟩ := bind_eq_ok h
          cases h
          exact ⟨_, rfl, rfl, Nat.le_add_left 1 _⟩
      | literal value =>
          rw [hty] at h
          cases h
          exact ⟨_, rfl, rfl, Nat.le_add_left 1 _⟩
      | «match» size base =>
          rw [hty] at h
          simp only at h
          by_cases hlimit : bytesWritten > maxDecompressedPerSegment
          · rw [if_pos hlimit] at h
            cases h
          · rw [if_neg hlimit] at h
            obtain ⟨bytes, hwrite, hcount, hle⟩ := handleMatch_writes hlength h
            exact ⟨bytes, hwrite, hcount, Nat.le_succ_of_le hle⟩

/-! ### Segments -/

/-- What a run did to its target: it wrote some bytes, not more than `limit`; in success it reports how many
they are, after `before` earlier ones. -/
structure Wrote (t : Target) (history : Bytes) (before limit : Nat)
    (result : Except ZgfxError Nat × Target) (bytes : Bytes) : Prop where
  output : result.2.output = t.output ++ bytes
  holds : result.2.Holds (history ++ bytes)
  bounded : bytes.length ≤ limit
  reported : ∀ n, result.1 = .ok n → n = before + bytes.length

theorem wrote_nothing {t : Target} {history : Bytes} (h : t.Holds history) {before limit : Nat}
    {r : Except ZgfxError Nat} (hr : ∀ n, r = .ok n → n = before) : Wrote t history before limit (r, t) [] where
  output := (List.append_nil _).symm
  holds := by rwa [List.append_nil]
  bounded := Nat.zero_le limit
  reported := hr

theorem Wrote.after {t : Target} {history first : Bytes} {before limit limit' : Nat}
    {result : Except ZgfxError Nat × Target} {bytes : Bytes}
    (h : Wrote (t.write first) (history ++ first) (before + first.length) limit' result bytes)
    (hlimit : first.length + limit' ≤ limit) : Wrote t history before limit result (first ++ bytes) where
  output := by rw [h.output, ← List.append_assoc]; rfl
  holds := by rw [← List.append_assoc]; exact h.holds
  bounded := by
    have hle := h.bounded
    rw [List.length_append]
    omega
  reported n hn := by rw [h.reported n hn, List.length_append, Nat.add_assoc]

theorem decodeTokens_wrote {fuel : Nat} {bits : BitsLeft} {t : Target} {history : Bytes} {bytesWritten : Nat}
    (h : t.Holds history) (hwritten : bytesWritten ≤ maxDecompressedPerSegment) :
    ∃ bytes, Wrote t history bytesWritten (maxDecompressedPerSegment - bytesWritten + 1)
      (decodeTokens fuel bits t bytesWritten) bytes := by
  induction fuel generalizing bits t history bytesWritten with
  | zero => exact ⟨[], wrote_nothing h fun n hn => (Except.ok.inj hn).symm⟩
  | succ fuel ih =>
      unfold decodeTokens
      by_cases hempty : bits.bitsSlice = []
      · rw [if_pos hempty]
        exact ⟨[], wrote_nothing h fun n hn => (Except.ok.inj hn).symm⟩
      · rw [if_neg hempty]
        cases hround : handleToken bits t bytesWritten with
        | error e => exact ⟨[], wrote_nothing h fun n hn => by cases hn⟩
        | ok result =>
            obtain ⟨bits', t', written⟩ := result
            obtain ⟨bytes, hwrite, hcount, hle⟩ := handleToken_writes h.2 hround
            simp only at hwrite hcount
            subst hwrite hcount
            simp only
            by_cases hover : bytesWritten + bytes.length > maxDecompressedPerSegment
            · rw [if_pos hover]
              refine ⟨bytes ++ [], Wrote.after (@wrote_nothing _ _ (h.write bytes) _ 0 _ ?_) (by omega)⟩
              intro n hn
              cases hn
            · rw [if_neg hover]
              obtain ⟨later, hlater⟩ := @ih bits' _ _ _ (h.write bytes) (Nat.le_of_not_lt hover)
              exact ⟨bytes ++ later, hlater.after (by omega)⟩

theorem handleSegment_wrote {t : Target} {history : Bytes} (h : t.Holds history) (segment : BulkEncodedData) :
    ∃ bytes, Wrote t history 0 (max segment.data.length (maxDecompressedPerSegment + 1))
      (handleSegment t segment) bytes := by
  unfold handleSegment
  by_cases hempty : segment.data ≠ []
  · rw [if_pos hempty]
    by_cases hcompressed : segment.isCompressed
    · rw [if_pos hcompressed]
      unfold decompressSegment
      rw [if_neg hempty]
      simp only
      by_cases htrailing : 8 * (segment.data.length - 1) < (segment.data.getLastD 0 &&& 0x07).toNat
      · rw [if_pos htrailing]
        exact ⟨[], wrote_nothing h fun n hn => by cases hn⟩
      · rw [if_neg htrailing]
        obtain ⟨bytes, hwrote⟩ := decodeTokens_wrote h (Nat.zero_le maxDecompressedPerSegment)
        refine ⟨bytes, hwrote.output, hwrote.holds, ?_, hwrote.reported⟩
        exact Nat.le_trans hwrote.bounded (Nat.le_max_right _ _)
    · rw [if_neg hcompressed]
      exact ⟨segment.data, rfl, h.write segment.data, Nat.le_max_left _ _,
        fun n hn => by rw [← Except.ok.inj hn, Nat.zero_add]⟩
  · rw [if_neg hempty]
    exact ⟨[], wrote_nothing h fun n hn => (Except.ok.inj hn).symm⟩

/-- After the segments that came before, the budget and one more segment bound what is written. -/
theorem handleSegments_wrote {segments : List BulkEncodedData} {t : Target} {history : Bytes}
    {uncompressedSize bytesWritten longest : Nat} (h : t.Holds history)
    (hwritten : bytesWritten ≤ maxDecompressedTotal)
    (hlongest : ∀ segment ∈ segments, segment.data.length ≤ longest) :
    ∃ bytes, Wrote t history bytesWritten
      (maxDecompressedTotal - bytesWritten + max longest (maxDecompressedPerSegment + 1))
      (handleSegments uncompressedSize segments t bytesWritten) bytes := by
  induction segments generalizing t history bytesWritten with
  | nil =>
      refine ⟨[], wrote_nothing h fun n hn => ?_⟩
      by_cases hsize : bytesWritten ≠ uncompressedSize
      · rw [if_pos hsize] at hn
        cases hn
      · rw [if_neg hsize] at hn
        exact (Except.ok.inj hn).symm
  | cons segment segments ih =>
      obtain ⟨bytes, hwrote⟩ := handleSegment_wrote h segment
      have hsegment := hlongest segment List.mem_cons_self
      have hbounded := hwrote.bounded
      unfold handleSegments
      cases hhandle : handleSegment t segment with
      | mk r t' =>
          rw [hhandle] at hwrote
          cases r with
          | error e =>
              refine ⟨bytes, hwrote.output, hwrote.holds, by omega, fun n hn => by cases hn⟩
          | ok written =>
              have hcount := hwrote.reported written rfl
              rw [Nat.zero_add] at hcount
              subst hcount
              simp only
              by_cases hdeclared : bytesWritten + bytes.length > uncompressedSize
              · rw [if_pos hdeclared]
                exact ⟨bytes, hwrote.output, hwrote.holds, by omega, fun n hn => by cases hn⟩
              · rw [if_neg hdeclared]
                by_cases hbudget : bytesWritten + bytes.length > maxDecompressedTotal
                · rw [if_pos hbudget]
                  exact ⟨bytes, hwrote.output, hwrote.holds, by omega, fun n hn => by cases hn⟩
                · rw [if_neg hbudget]
                  obtain ⟨later, hlater⟩ := ih hwrote.holds (Nat.le_of_not_lt hbudget)
                    fun other hother => hlongest other (List.mem_cons_of_mem segment hother)
                  have hle := hlater.bounded
                  refine ⟨bytes ++ later, ?_, ?_, ?_, ?_⟩
                  · rw [hlater.output, hwrote.output, List.append_assoc]
                  · rw [← List.append_assoc]
                    exact hlater.holds
                  · rw [List.length_append]
                    omega
                  · intro n hn
                    rw [hlater.reported n hn, List.length_append, Nat.add_assoc]

/-! ### Messages -/

theorem readBytes_ok {n : Nat} {buffer : Bytes} {result : Bytes × Bytes} (h : readBytes n buffer = .ok result) :
    result.2 = buffer.drop n := by
  unfold readBytes at h
  by_cases hle : n ≤ buffer.length
  · rw [if_pos hle] at h
    cases h
    rfl
  · rw [if_neg hle] at h
    cases h

theorem length_of_fromBuffer {buffer : Bytes} {segment : BulkEncodedData}
    (h : BulkEncodedData.fromBuffer buffer = .ok segment) : segment.data.length ≤ buffer.length := by
  unfold BulkEncodedData.fromBuffer at h
  obtain ⟨⟨header, data⟩, hread, h⟩ := bind_eq_ok h
  have hdata := readBytes_ok hread
  simp only at h hdata
  by_cases htype : header.headD 0 &&& 0x0f = rdp8
  · rw [if_pos htype] at h
    cases h
    simp only
    rw [hdata, List.length_drop]
    exact Nat.sub_le _ _
  · rw [if_neg htype] at h
    cases h

theorem length_of_readSegments {count : Nat} {buffer : Bytes} {segments : List BulkEncodedData}
    (h : SegmentedDataPdu.readSegments count buffer = .ok segments) :
    ∀ segment ∈ segments, segment.data.length ≤ buffer.length := by
  induction count generalizing buffer segments with
  | zero =>
      cases h
      exact fun _ hmem => absurd hmem List.not_mem_nil
  | succ count ih =>
      unfold SegmentedDataPdu.readSegments at h
      obtain ⟨⟨size, rest⟩, hread, h⟩ := bind_eq_ok h
      have hrest := readBytes_ok hread
      simp only at h hrest
      subst hrest
      by_cases hfits : ofLeBytes size ≤ (buffer.drop 4).length
      · rw [if_pos hfits] at h
        obtain ⟨first, hfirst, h⟩ := bind_eq_ok h
        obtain ⟨others, hothers, h⟩ := bind_eq_ok h
        cases h
        have hdrop : (buffer.drop 4).length ≤ buffer.length := by
          rw [List.length_drop]
          exact Nat.sub_le _ _
        intro segment hmem
        rcases List.mem_cons.mp hmem with rfl | hlater
        · have hle := length_of_fromBuffer hfirst
          rw [List.length_take] at hle
          omega
        · have hle := ih hothers segment hlater
          rw [List.length_drop] at hle
          omega
      · rw [if_neg hfits] at h
        cases h

theorem length_of_segmentedDataPdu {buffer : Bytes} {pdu : SegmentedDataPdu}
    (h : SegmentedDataPdu.fromBuffer buffer = .ok pdu) :
    (∃ segment, pdu = .single segment ∧ segment.data.length ≤ buffer.length) ∨
      ∃ size segments, pdu = .multipart size segments ∧
        ∀ segment ∈ segments, segment.data.length ≤ buffer.length := by
  unfold SegmentedDataPdu.fromBuffer at h
  obtain ⟨⟨descriptor, rest⟩, hread, h⟩ := bind_eq_ok h
  have hrest := readBytes_ok hread
  simp only at h hrest
  have hlength : rest.length ≤ buffer.length := by
    rw [hrest, List.length_drop]
    exact Nat.sub_le _ _
  by_cases hsingle : descriptor = [0xe0]
  · rw [if_pos hsingle] at h
    obtain ⟨segment, hsegment, h⟩ := bind_eq_ok h
    cases h
    exact .inl ⟨segment, rfl, Nat.le_trans (length_of_fromBuffer hsegment) hlength⟩
  · rw [if_neg hsingle] at h
    by_cases hmultipart : descriptor = [0xe1]
    · rw [if_pos hmultipart] at h
      obtain ⟨⟨count, rest₁⟩, hread₁, h⟩ := bind_eq_ok h
      obtain ⟨⟨size, rest₂⟩, hread₂, h⟩ := bind_eq_ok h
      obtain ⟨segments, hsegments, h⟩ := bind_eq_ok h
      cases h
      have hrest₁ := readBytes_ok hread₁
      have hrest₂ := readBytes_ok hread₂
      simp only at hrest₁ hrest₂ hsegments
      refine .inr ⟨_, segments, rfl, fun segment hmem => ?_⟩
      have hle := length_of_readSegments hsegments segment hmem
      rw [hrest₂, hrest₁, List.length_drop, List.length_drop] at hle
      omega
    · rw [if_neg hmultipart] at h
      cases h

/-- What one message can write. -/
def messageLimit (input : Bytes) : Nat :=
  maxDecompressedTotal + max input.length (maxDecompressedPerSegment + 1)

theorem Wrote.message {history : FixedCircularBuffer} {sent bytes : Bytes} {limit : Nat}
    {r : Except ZgfxError Nat} {t : Target}
    (h : Wrote ⟨history, []⟩ (List.replicate historySize 0 ++ sent) 0 limit (r, t) bytes) :
    (Decompressor.mk t.history).Received (sent ++ t.output) ∧ t.output.length ≤ limit ∧
      ∀ n, r = .ok n → n = t.output.length := by
  have houtput : t.output = bytes := h.output
  rw [houtput]
  refine ⟨h.holds.received, h.bounded, fun n hn => ?_⟩
  rw [h.reported n hn, Nat.zero_add]

/-- Every message writes a bounded number of bytes, and they are in the history after it. -/
theorem decompress_wrote {d : Decompressor} {sent : Bytes} (h : d.Received sent) (input : Bytes) :
    ∃ result d' output, d.decompress input [] = (result, d', output) ∧ d'.Received (sent ++ output) ∧
      output.length ≤ messageLimit input ∧ ∀ n, result = .ok n → n = output.length := by
  cases hparse : SegmentedDataPdu.fromBuffer input with
  | error e =>
      refine ⟨.error e, d, [], ?_, ?_, Nat.zero_le _, fun n hn => by cases hn⟩
      · unfold Decompressor.decompress
        rw [hparse]
      · rwa [List.append_nil]
  | ok pdu =>
      rcases length_of_segmentedDataPdu hparse with ⟨segment, rfl, hle⟩ | ⟨size, segments, rfl, hle⟩
      · obtain ⟨bytes, hwrote⟩ := handleSegment_wrote (h.holds []) segment
        cases hhandle : handleSegment ⟨d.history, []⟩ segment with
        | mk r t =>
            rw [hhandle] at hwrote
            obtain ⟨hreceived, hbounded, hreported⟩ := hwrote.message
            refine ⟨r, ⟨t.history⟩, t.output, decompress_single hparse hhandle, hreceived, ?_, hreported⟩
            unfold messageLimit
            omega
      · obtain ⟨bytes, hwrote⟩ := handleSegments_wrote (h.holds []) (Nat.zero_le maxDecompressedTotal) hle
        cases hhandle : handleSegments size segments ⟨d.history, []⟩ 0 with
        | mk r t =>
            rw [hhandle] at hwrote
            obtain ⟨hreceived, hbounded, hreported⟩ := hwrote.message
            exact ⟨r, ⟨t.history⟩, t.output, decompress_multipart hparse hhandle, hreceived, hbounded,
              hreported⟩

/-- The decompressor after some messages. -/
def afterAll : List Bytes → Decompressor → Decompressor
  | [], d => d
  | wrapped :: messages, d => afterAll messages (d.decompress wrapped []).2.1

theorem run_wrote {d : Decompressor} {sent : Bytes} (h : d.Received sent) (messages : List Bytes) :
    (afterAll messages d).Received (sent ++ ((receiveAll messages d).map Prod.snd).flatten) ∧
      ∀ r ∈ messages.zip (receiveAll messages d),
        r.2.2.length ≤ messageLimit r.1 ∧ ∀ n, r.2.1 = .ok n → n = r.2.2.length := by
  induction messages generalizing d sent with
  | nil =>
      refine ⟨?_, fun _ hmem => absurd hmem List.not_mem_nil⟩
      change d.Received (sent ++ [])
      rwa [List.append_nil]
  | cons input messages ih =>
      obtain ⟨result, d', output, hdecompress, hreceived, hbounded, hreported⟩ := decompress_wrote h input
      obtain ⟨hafter, hrest⟩ := ih hreceived
      rw [afterAll, receiveAll, hdecompress]
      simp only
      refine ⟨?_, ?_⟩
      · rw [List.map_cons, List.flatten_cons, ← List.append_assoc]
        exact hafter
      · intro r hmem
        rw [List.zip_cons_cons] at hmem
        rcases List.mem_cons.mp hmem with rfl | hlater
        · exact ⟨hbounded, hreported⟩
        · exact hrest r hlater

/-- Whatever messages a new decompressor is given, each writes a bounded number of bytes, of which a success
reports just how many they are, and at the end the history holds the last bytes of all that was written, in
the messages that failed as well. -/
theorem any_messages_bounded (messages : List Bytes) :
    (afterAll messages .new).history.contents =
        Lz77.window historySize
          (List.replicate historySize 0 ++ ((receiveAll messages .new).map Prod.snd).flatten) ∧
      ∀ r ∈ messages.zip (receiveAll messages .new),
        r.2.2.length ≤ maxDecompressedTotal + max r.1.length (maxDecompressedPerSegment + 1) ∧
          ∀ n, r.2.1 = .ok n → n = r.2.2.length := by
  obtain ⟨hafter, hrest⟩ := run_wrote received_new messages
  exact ⟨hafter.1, hrest⟩

end Drift.Zgfx
