import Drift.Video.Proof.SpsBits

/-!
# The rewritten SPS

The bits of an SPS are those of its header, of the VUI fields around the video signal type, and the stop
bit. The rewrite replaces the signal type and keeps the others (`withBt709FullRange_ok`), and it succeeds
on every SPS that has them (`withBt709FullRange_eq`), in particular on its own results.
-/

namespace Drift.Video

open Bits (ofBytes)
open Prefix (Local Reads)

/-- The bits of an SPS with a VUI: up to the VUI flag, then the aspect ratio and the overscan, the video
signal type, and the rest of the VUI. -/
structure SpsBits where
  header : List Bool
  aspect : List Bool
  signal : List Bool
  tail : List Bool

def SpsBits.bits (f : SpsBits) : List Bool := f.header ++ true :: (f.aspect ++ f.signal ++ f.tail)

/-- The header is read from its bits, and the fields before the signal type are read and copied from
theirs. -/
structure SpsBits.Parsed (f : SpsBits) (fields : HeaderFields) : Prop where
  reads_header : Reads ahead readHeaderFields f.header fields
  reads_aspect : Reads ahead skipAspectAndOverscan f.aspect ()
  copies_aspect : ∀ w, Reads ahead (copyAspectAndOverscan w) f.aspect (w.write f.aspect)

/-- An SPS of these bits, with a VUI. -/
structure HasVui (rbsp : List UInt8) (f : SpsBits) (signal : Option SignalType) : Prop where
  reads_signal : Reads ahead readSignalType f.signal signal
  bits_eq : ∃ k, ofBytes rbsp = f.bits ++ true :: List.replicate k false

/-- An SPS of these bits up to the VUI flag, without a VUI. The other fields are those of a new one. -/
structure LacksVui (rbsp : List UInt8) (f : SpsBits) : Prop where
  bits_eq : ∃ rest, ofBytes rbsp = f.header ++ false :: rest
  aspect_eq : f.aspect = [false, false]
  tail_eq : f.tail = List.replicate 6 false

def bt709FullRange : List Bool :=
  true :: (lowBits 5 3 ++ (true :: true :: (lowBits 1 8 ++ lowBits 1 8 ++ lowBits 1 8)))

theorem writeBt709FullRange_eq (w : BitWriter) : writeBt709FullRange w = w.write bt709FullRange := by
  rfl

theorem reads_bt709FullRange :
    Reads ahead readSignalType bt709FullRange (some ⟨true, some 1⟩) := by
  have hbyte : Reads ahead (BitReader.bits 8) (lowBits 1 8) 1 := reads_bits rfl
  have hpair : Reads ahead (BitReader.bits 16) (lowBits 1 8 ++ lowBits 1 8) 257 := reads_bits rfl
  have hformat : Reads ahead (BitReader.bits 3) (lowBits 5 3) 5 := reads_bits rfl
  have hmatrix : Reads ahead readU8 (lowBits 1 8) 1 := hbyte.bind_nil (.pure 1)
  have hcolours : Reads ahead (readColours true) (lowBits 1 8 ++ lowBits 1 8 ++ lowBits 1 8)
      (some 1) := hpair.bind (hmatrix.bind_nil (.pure (some 1)))
  apply (reads_bit true).bind
  apply hformat.bind
  apply (reads_bit true).bind
  apply (reads_bit true).bind
  exact hcolours.bind_nil (.pure _)

/-! ### The header -/

theorem parseHeader_eq {rbsp : List UInt8} {header rest : List Bool} {fields : HeaderFields}
    (hreads : Reads ahead readHeaderFields header fields) {vui : Bool}
    (hbits : ofBytes rbsp = header ++ vui :: rest) :
    parseHeader rbsp = fields.size.map fun size =>
      ⟨fields.profileIdc, fields.levelIdc, size.1, size.2, header.length, vui⟩ := by
  have hfields := hreads (.at rbsp 0) (vui :: rest) hbits
  have hflag := reads_bit vui (ahead.skip (.at rbsp 0) header.length) rest
    (ahead.ahead_skip_append hbits)
  unfold parseHeader
  have hpos : (ahead.skip (.at rbsp 0) header.length).pos = header.length := Nat.zero_add _
  simp only [hfields, bind, Except.bind, hflag, hpos]
  cases fields.size <;> rfl

theorem parseHeader_ok {rbsp : List UInt8} {header : Header} (h : parseHeader rbsp = .ok header) :
    ∃ used rest fields size, Reads ahead readHeaderFields used fields ∧
      ofBytes rbsp = used ++ header.vuiPresent :: rest ∧ fields.size = .ok size ∧
        header = ⟨fields.profileIdc, fields.levelIdc, size.1, size.2, used.length,
          header.vuiPresent⟩ := by
  have hall := h
  unfold parseHeader at h
  cases hfields : readHeaderFields (.at rbsp 0) with
  | error e => simp [hfields, bind, Except.bind] at h
  | ok x =>
      obtain ⟨fields, r⟩ := x
      obtain ⟨used, after, hused, rfl, hreads⟩ := local_readHeaderFields _ _ _ hfields
      cases hflag : BitReader.bit (ahead.skip (.at rbsp 0) used.length) with
      | error e => simp [hfields, hflag, bind, Except.bind] at h
      | ok x =>
          obtain ⟨vui, r'⟩ := x
          obtain ⟨rest, hrest, -⟩ := bit_ok hflag
          rw [ahead.ahead_skip_append hused] at hrest
          have hbits : ofBytes rbsp = used ++ vui :: rest := by
            rw [← hrest]
            exact hused
          rw [parseHeader_eq hreads hbits] at hall
          cases hsize : fields.size with
          | error e =>
              rw [hsize] at hall
              cases hall
          | ok size =>
              rw [hsize] at hall
              cases hall
              exact ⟨used, rest, fields, size, hreads, hbits, hsize, rfl⟩

/-! ### The rewrite -/

def SpsBits.encode (f : SpsBits) : List UInt8 := (BitWriter.new.write f.bits).trailingBits.bytes

theorem SpsBits.encode_eq (f : SpsBits) : f.encode =
    (((BitWriter.new.write f.header).bit true).write
      (f.aspect ++ f.signal ++ f.tail)).trailingBits.bytes := by
  unfold encode bits
  rw [BitWriter.write_append, BitWriter.write_cons]

theorem ofBytes_encode (f : SpsBits) :
    ∃ k, ofBytes f.encode = f.bits ++ true :: List.replicate k false :=
  BitWriter.ofBytes_trailingBits f.bits

theorem ahead_at {data : List UInt8} {done rest : List Bool} (h : ofBytes data = done ++ rest) :
    ahead.ahead (.at data done.length) = rest := by
  change (ofBytes data).drop done.length = rest
  rw [h, List.drop_left]

theorem copyTail_ok {rbsp : List UInt8} {done rest : List Bool} (hbits : ofBytes rbsp = done ++ rest)
    {w w' : BitWriter} (h : copyTail rbsp w (.at rbsp done.length) = .ok w') :
    ∃ tail k, rest = tail ++ true :: List.replicate k false ∧ w' = w.write tail := by
  unfold copyTail at h
  cases hstop : stopBitPosition rbsp with
  | none => simp [hstop] at h
  | some stop =>
      obtain ⟨before, k, hbefore, hlength⟩ := stopBitPosition_some hstop
      by_cases hlt : stop < done.length
      · simp [hstop, BitReader.at, hlt] at h
      · have hcopied : (w.copy (stop - done.length) (.at rbsp done.length)).map Prod.fst = .ok w' := by
          simpa [hstop, BitReader.at, hlt] using h
        cases hcopy : w.copy (stop - done.length) (.at rbsp done.length) with
        | error e =>
            rw [hcopy] at hcopied
            cases hcopied
        | ok x =>
            obtain ⟨w₁, r₁⟩ := x
            rw [hcopy] at hcopied
            cases hcopied
            obtain ⟨tail, after, htail, hahead, -, rfl⟩ := copy_ok hcopy
            rw [ahead_at hbits] at hahead
            refine ⟨tail, k, ?_, rfl⟩
            have heq : (done ++ tail) ++ after = before ++ true :: List.replicate k false := by
              rw [List.append_assoc, ← hahead, ← hbits, hbefore]
            have hsame := List.append_inj heq (by rw [List.length_append, htail, hlength]; omega)
            rw [hahead, hsame.2]

theorem copyTail_eq {rbsp : List UInt8} {done tail : List Bool} {k : Nat}
    (hbits : ofBytes rbsp = done ++ tail ++ true :: List.replicate k false) (w : BitWriter) :
    copyTail rbsp w (.at rbsp done.length) = .ok (w.write tail) := by
  unfold copyTail
  rw [stopBitPosition_eq hbits]
  have hle : ¬ (done ++ tail).length < done.length := by simp
  have hcount : (done ++ tail).length - done.length = tail.length := by simp
  rw [List.append_assoc] at hbits
  have hcopy := reads_copy w rfl (.at rbsp done.length) _ (ahead_at hbits)
  simp only [BitReader.at, if_neg hle, hcount]
  rw [BitReader.at] at hcopy
  rw [hcopy]
  rfl

theorem skip_at (data : List UInt8) (m n : Nat) :
    ahead.skip (.at data m) n = .at data (m + n) := rfl

theorem rewriteVui_ok {rbsp : List UInt8} {done rest : List Bool}
    (hbits : ofBytes rbsp = done ++ rest) {w w' : BitWriter}
    (h : rewriteVui rbsp w (.at rbsp done.length) = .ok w') :
    ∃ aspect signal tail k, rest = aspect ++ signal ++ tail ++ true :: List.replicate k false ∧
      Reads ahead skipAspectAndOverscan aspect () ∧
      (∀ w, Reads ahead (copyAspectAndOverscan w) aspect (w.write aspect)) ∧
      (∃ s, Reads ahead readSignalType signal s) ∧
      w' = w.write (aspect ++ bt709FullRange ++ tail) := by
  unfold rewriteVui at h
  cases haspect : copyAspectAndOverscan w (.at rbsp done.length) with
  | error e => simp [haspect, bind, Except.bind] at h
  | ok x =>
      obtain ⟨w₁, r₁⟩ := x
      obtain ⟨aspect, rest₁, u, hrest, rfl, rfl, hreads, hcopies⟩ :=
        copies_aspectAndOverscan _ _ _ _ haspect
      rw [ahead_at hbits] at hrest
      subst hrest
      rw [skip_at, ← List.length_append] at haspect
      rw [← List.append_assoc] at hbits
      cases hsignal : readSignalType (.at rbsp (done ++ aspect).length) with
      | error e =>
          simp only [haspect, hsignal, bind, Except.bind] at h
          cases h
      | ok x =>
          obtain ⟨s, r₂⟩ := x
          obtain ⟨signal, rest₂, hrest₁, rfl, hreads'⟩ := local_readSignalType _ _ _ hsignal
          rw [ahead_at hbits] at hrest₁
          subst hrest₁
          rw [skip_at, ← List.length_append] at hsignal
          rw [← List.append_assoc] at hbits
          simp only [haspect, hsignal, bind, Except.bind] at h
          obtain ⟨tail, k, rfl, rfl⟩ := copyTail_ok hbits h
          refine ⟨aspect, signal, tail, k, by simp, hreads, hcopies, ⟨s, hreads'⟩, ?_⟩
          rw [writeBt709FullRange_eq, w.write_append, w.write_append]

theorem rewriteVui_eq {rbsp : List UInt8} {done aspect signal tail : List Bool} {k : Nat}
    (hbits : ofBytes rbsp = done ++ aspect ++ signal ++ tail ++ true :: List.replicate k false)
    (hcopies : ∀ w, Reads ahead (copyAspectAndOverscan w) aspect (w.write aspect))
    {s : Option SignalType} (hsignal : Reads ahead readSignalType signal s) (w : BitWriter) :
    rewriteVui rbsp w (.at rbsp done.length) =
      .ok (w.write (aspect ++ bt709FullRange ++ tail)) := by
  have haspect := hcopies w (.at rbsp done.length) (signal ++ tail ++ true :: List.replicate k false)
    (ahead_at (by rw [hbits]; simp))
  have hread := hsignal (.at rbsp (done ++ aspect).length) (tail ++ true :: List.replicate k false)
    (ahead_at (by rw [hbits]; simp))
  have htail : copyTail rbsp (writeBt709FullRange (w.write aspect))
      (.at rbsp (done ++ aspect ++ signal).length) = _ := copyTail_eq hbits _
  rw [skip_at, ← List.length_append] at haspect hread
  unfold rewriteVui
  simp only [haspect, hread, htail, bind, Except.bind]
  rw [writeBt709FullRange_eq, w.write_append, w.write_append]

/-- A new VUI has the fields of one without anything but the signal type. -/
theorem writeVui_eq (w : BitWriter) :
    writeVui w = w.write ([false, false] ++ bt709FullRange ++ List.replicate 6 false) := by
  rw [w.write_append, w.write_append, ← writeBt709FullRange_eq]
  rfl

theorem parsed_withoutAspect : Reads ahead skipAspectAndOverscan [false, false] () ∧
    ∀ w, Reads ahead (copyAspectAndOverscan w) [false, false] (w.write [false, false]) := by
  constructor
  · have hnothing : Reads ahead (skipIf false skipAspectRatio) [] () := .pure ()
    have hoverscan : Reads ahead (skipIf false BitReader.bit) [] () := .pure ()
    exact (reads_bit false).bind (hnothing.bind ((reads_bit false).bind_nil hoverscan))
  · intro w
    have hnothing : Reads ahead (copyAspectRatio (w.bit false) false) [] (w.bit false) := .pure _
    exact (reads_bit false).bind (hnothing.bind ((reads_bit false).bind_nil (.pure _)))

def SpsBits.rewritten (f : SpsBits) : SpsBits := { f with signal := bt709FullRange }

theorem withBt709FullRange_eq {nal : UInt8} {ebsp : List UInt8} (hnal : nal &&& 0x1F = NalType.sps)
    {f : SpsBits} {fields : HeaderFields} (hparsed : f.Parsed fields) {size : UInt32 × UInt32}
    (hsize : fields.size = .ok size) {signal : Option SignalType}
    (hvui : HasVui (unescape ebsp) f signal) :
    withBt709FullRange (nal :: ebsp) = .ok (nal :: escape f.rewritten.encode) := by
  obtain ⟨hreads, k, hbits⟩ := hvui
  unfold SpsBits.bits at hbits
  have hheader : ofBytes (unescape ebsp) = f.header ++ true ::
      (f.aspect ++ f.signal ++ f.tail ++ true :: List.replicate k false) := by
    rw [hbits]
    simp
  have hcopy := reads_copy .new rfl (.at (unescape ebsp) 0) _ hheader
  have hvui : ofBytes (unescape ebsp) = f.header ++ [true] ++ f.aspect ++ f.signal ++ f.tail ++
      true :: List.replicate k false := by
    rw [hbits]
    simp
  have hrewrite := rewriteVui_eq hvui hparsed.copies_aspect hreads
    ((BitWriter.new.write f.header).bit true)
  rw [List.length_append, List.length_singleton] at hrewrite
  have hheader := parseHeader_eq hparsed.reads_header hheader
  rw [hsize] at hheader
  unfold withBt709FullRange rbspOf
  simp only [if_pos hnal, bind, Except.bind, hheader, Except.map, hcopy, if_true, hrewrite, pure,
    Except.pure]
  rw [SpsBits.encode_eq]
  rfl

theorem withBt709FullRange_ok {sps out : List UInt8} (h : withBt709FullRange sps = .ok out) :
    ∃ nal ebsp f fields size, sps = nal :: ebsp ∧ nal &&& 0x1F = NalType.sps ∧
      SpsBits.Parsed f fields ∧ fields.size = .ok size ∧
        ((∃ signal, HasVui (unescape ebsp) f signal) ∨ LacksVui (unescape ebsp) f) ∧
          out = nal :: escape f.rewritten.encode := by
  unfold withBt709FullRange at h
  cases sps with
  | nil => cases h
  | cons nal ebsp =>
      by_cases hnal : nal &&& 0x1F = NalType.sps
      · cases hheader : parseHeader (unescape ebsp) with
        | error e => simp [rbspOf, hnal, hheader, bind, Except.bind] at h
        | ok header =>
            obtain ⟨used, rest, fields, size, hreads, hbits, hsize, heq⟩ := parseHeader_ok hheader
            have hpos : header.vuiFlagPos = used.length := by rw [heq]
            have hcopy := reads_copy .new rfl (.at (unescape ebsp) 0) _ hbits
            cases hvui : header.vuiPresent with
            | false =>
                rw [hvui] at hbits
                simp only [rbspOf, hnal, if_true, hheader, hpos, hcopy, hvui, bind, Except.bind, pure,
                  Except.pure, Bool.false_eq_true, if_false, Except.ok.injEq] at h
                refine ⟨nal, ebsp, ⟨used, [false, false], [], List.replicate 6 false⟩, fields, size,
                  rfl, hnal, ⟨hreads, parsed_withoutAspect.1, parsed_withoutAspect.2⟩, hsize,
                  .inr ⟨⟨rest, hbits⟩, rfl, rfl⟩, ?_⟩
                rw [← h, writeVui_eq, SpsBits.encode_eq]
                rfl
            | true =>
                rw [hvui] at hbits
                have hdone : ofBytes (unescape ebsp) = (used ++ [true]) ++ rest := by
                  rw [hbits]
                  simp
                have hat : used.length + 1 = (used ++ [true]).length := by simp
                simp only [rbspOf, hnal, if_true, hheader, hpos, hcopy, hvui, hat, bind,
                  Except.bind] at h
                cases hrewrite : rewriteVui (unescape ebsp)
                    ((BitWriter.new.write used).bit true)
                    (.at (unescape ebsp) (used ++ [true]).length) with
                | error e =>
                    rw [hrewrite] at h
                    cases h
                | ok w =>
                    rw [hrewrite] at h
                    obtain ⟨aspect, signal, tail, k, hrest, haspect, hcopies, ⟨s, hsignal⟩, hw⟩ :=
                      rewriteVui_ok hdone hrewrite
                    refine ⟨nal, ebsp, ⟨used, aspect, signal, tail⟩, fields, size, rfl, hnal,
                      ⟨hreads, haspect, hcopies⟩, hsize, .inl ⟨s, hsignal, k, ?_⟩, ?_⟩
                    · rw [hbits, hrest]
                      simp [SpsBits.bits]
                    · cases h
                      rw [hw, SpsBits.encode_eq]
                      rfl
      · simp [rbspOf, hnal, bind, Except.bind] at h

/-- What is parsed from an SPS with a signal type, if it has one. -/
def HeaderFields.info (fields : HeaderFields) (size : UInt32 × UInt32) (signal : Option SignalType) :
    SpsInfo :=
  ⟨fields.profileIdc, fields.levelIdc, size.1, size.2, signal.map (·.fullRange),
    signal.bind (·.matrix)⟩

theorem parse_eq {nal : UInt8} {ebsp : List UInt8} (hnal : nal &&& 0x1F = NalType.sps) {f : SpsBits}
    {fields : HeaderFields} (hparsed : f.Parsed fields) {size : UInt32 × UInt32}
    (hsize : fields.size = .ok size) {signal : Option SignalType}
    (hvui : HasVui (unescape ebsp) f signal) : parse (nal :: ebsp) = .ok (fields.info size signal) := by
  obtain ⟨hreads, k, hbits⟩ := hvui
  unfold SpsBits.bits at hbits
  have hbits' : ofBytes (unescape ebsp) = f.header ++ true ::
      (f.aspect ++ f.signal ++ f.tail ++ true :: List.replicate k false) := by
    rw [hbits]
    simp
  have hheader := parseHeader_eq hparsed.reads_header hbits'
  rw [hsize] at hheader
  have haspect := hparsed.reads_aspect (.at (unescape ebsp) (f.header ++ [true]).length)
    (f.signal ++ f.tail ++ true :: List.replicate k false) (ahead_at (by rw [hbits]; simp))
  have hsignal := hreads (.at (unescape ebsp) (f.header ++ [true] ++ f.aspect).length)
    (f.tail ++ true :: List.replicate k false) (ahead_at (by rw [hbits]; simp))
  have hat : (f.header ++ [true]).length = f.header.length + 1 := by simp
  rw [skip_at, ← List.length_append, hat] at haspect
  unfold parse rbspOf
  simp only [if_pos hnal, bind, Except.bind, hheader, Except.map, if_true, haspect, hsignal, pure,
    Except.pure]
  cases signal <;> rfl

theorem parse_withoutVui {nal : UInt8} {ebsp : List UInt8} (hnal : nal &&& 0x1F = NalType.sps)
    {f : SpsBits} {fields : HeaderFields} (hparsed : f.Parsed fields) {size : UInt32 × UInt32}
    (hsize : fields.size = .ok size) (hvui : LacksVui (unescape ebsp) f) :
    parse (nal :: ebsp) = .ok (fields.info size none) := by
  obtain ⟨⟨rest, hbits⟩, -, -⟩ := hvui
  have hheader := parseHeader_eq hparsed.reads_header hbits
  rw [hsize] at hheader
  unfold parse rbspOf
  simp only [if_pos hnal, bind, Except.bind, hheader, Except.map, Bool.false_eq_true, if_false, pure,
    Except.pure]
  rfl

/-- An SPS that is rewritten parses as before, except for BT.709 full range. Only the bits of the video
signal type change, another rewrite changes nothing, and no start code appears. -/
theorem rewrite_correct {sps out : List UInt8} (h : withBt709FullRange sps = .ok out) :
    (∃ info, parse sps = .ok info ∧
      parse out = .ok { info with fullRange := some true, matrixCoefficients := some 1 }) ∧
    (∃ f fields, SpsBits.Parsed f fields ∧
      ((∃ signal, HasVui (unescape sps.tail) f signal) ∨ LacksVui (unescape sps.tail) f) ∧
        HasVui (unescape out.tail) f.rewritten (some ⟨true, some 1⟩)) ∧
    withBt709FullRange out = .ok out ∧
    out.head? = sps.head? ∧ ∀ b, b ≤ 2 → ¬ [0, 0, b] <:+: out.tail := by
  obtain ⟨nal, ebsp, f, fields, size, rfl, hnal, hparsed, hsize, hof, rfl⟩ :=
    withBt709FullRange_ok h
  have hrewritten : HasVui (unescape (escape f.rewritten.encode)) f.rewritten
      (some ⟨true, some 1⟩) := by
    rw [unescape_escape]
    exact ⟨reads_bt709FullRange, ofBytes_encode f.rewritten⟩
  have hparsed' : f.rewritten.Parsed fields :=
    ⟨hparsed.reads_header, hparsed.reads_aspect, hparsed.copies_aspect⟩
  have hagain : withBt709FullRange (nal :: escape f.rewritten.encode) =
      .ok (nal :: escape f.rewritten.rewritten.encode) :=
    withBt709FullRange_eq hnal hparsed' hsize hrewritten
  refine ⟨?_, ⟨f, fields, hparsed, hof, hrewritten⟩, hagain, rfl,
    fun b hb => (noStartCode_escapeFrom 0 _).not_occurs hb⟩
  have hout := parse_eq hnal hparsed' hsize hrewritten
  rcases hof with ⟨signal, hvui⟩ | hvui
  · exact ⟨fields.info size signal, parse_eq hnal hparsed hsize hvui, hout⟩
  · exact ⟨fields.info size none, parse_withoutVui hnal hparsed hsize hvui, hout⟩

/-- The SPS of a 1280 × 800 stream whose VUI has no signal type. -/
def sampleSps : List UInt8 :=
  [0x67, 0x64, 0x0c, 0x28, 0xac, 0x2b, 0x40, 0x28, 0x03, 0x2d, 0xff, 0x80, 0x00, 0x80, 0x00, 0x88,
    0x00, 0x00, 0x1f, 0x40, 0x00, 0x0e, 0xa6, 0x00, 0x78, 0x44, 0x23, 0x50]

def sampleRewritten : List UInt8 :=
  [0x67, 0x64, 0x0c, 0x28, 0xac, 0x2b, 0x40, 0x28, 0x03, 0x2d, 0xff, 0x80, 0x00, 0x80, 0x00, 0xb7,
    0x01, 0x01, 0x01, 0x40, 0x00, 0x00, 0xfa, 0x00, 0x00, 0x75, 0x30, 0x03, 0xc2, 0x21, 0x1a, 0x80]

theorem rewrite_correct_sample : withBt709FullRange sampleSps = .ok sampleRewritten ∧
    withBt709FullRange sampleRewritten = .ok sampleRewritten := by
  have hrewrite : withBt709FullRange sampleSps = .ok sampleRewritten := by
    decide +kernel
  exact ⟨hrewrite, (rewrite_correct hrewrite).2.2.1⟩

end Drift.Video
