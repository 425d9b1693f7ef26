import Drift.Channel.Proof.Messages
import Drift.Egfx.Proof.Pdu
import Drift.Egfx.Proof.Surfaces
import Drift.Gfx.Proof.Payload
import Drift.Zgfx.Proof.Session

/-!
# What the server draws arrives

The PDUs of the server are compressed, cut into the data PDUs of a dynamic channel and sent between whatever else
comes to the client. There they are put together, decompressed and decoded: the client handles just these PDUs, one
after the other, and both histories stay in step.
-/

namespace Drift.Zgfx

/-! ### The size of a message -/

/-- The most that wrapping adds. -/
def wrappingOverhead : Nat := 7 + 5 * u16Max

theorem length_flatMap_wrapSegment (segments : List Bytes) :
    (segments.flatMap (wrapSegment false)).length = segments.flatten.length + 5 * segments.length := by
  induction segments with
  | nil => rfl
  | cons segment segments ih =>
      have hsegment : (wrapSegment false segment).length = segment.length + 5 := by
        unfold wrapSegment
        rw [List.length_append, length_toLeBytes, List.length_cons]
        omega
      rw [List.flatMap_cons, List.length_append, ih, hsegment, List.flatten_cons, List.length_append,
        List.length_cons]
      omega

/-- The message is not empty, and not much longer than its data. -/
def Compact (data wrapped : Bytes) : Prop := wrapped ≠ [] ∧ wrapped.length ≤ data.length + wrappingOverhead

theorem compact_wrapUncompressed {data wrapped : Bytes} (h : wrapUncompressed data = some wrapped) :
    Compact data wrapped := by
  unfold wrapUncompressed at h
  by_cases hsingle : data.length ≤ zgfxSegmentedMaxsize
  · rw [if_pos hsingle] at h
    rw [← Option.some.inj h]
    refine ⟨List.cons_ne_nil _ _, ?_⟩
    change data.length + 2 ≤ data.length + wrappingOverhead
    have hoverhead : 2 ≤ wrappingOverhead := by decide
    omega
  · rw [if_neg hsingle] at h
    unfold wrapMultipartSegments at h
    simp only at h
    by_cases hfits : (data.length + (zgfxSegmentedMaxsize - 1)) / zgfxSegmentedMaxsize ≤ u16Max ∧
        data.length ≤ u32Max
    · rw [if_pos hfits] at h
      rw [← Option.some.inj h]
      refine ⟨List.cons_ne_nil _ _, ?_⟩
      have hcount := hfits.1
      rw [← length_chunks] at hcount
      rw [List.length_append, List.length_append, length_flatMap_wrapSegment, flatten_chunks (by decide),
        List.length_cons, length_toLeBytes, length_toLeBytes]
      unfold wrappingOverhead
      omega
    · rw [if_neg hfits] at h
      cases h

theorem compact_wrapCompressed {data compressed wrapped : Bytes} (h : wrapCompressed compressed = some wrapped) :
    Compact data wrapped := by
  unfold wrapCompressed at h
  by_cases hfits : compressed.length ≤ zgfxSegmentedMaxsize
  · rw [if_pos hfits] at h
    rw [← Option.some.inj h]
    refine ⟨List.cons_ne_nil _ _, ?_⟩
    change compressed.length + 2 ≤ data.length + wrappingOverhead
    have hoverhead : zgfxSegmentedMaxsize + 2 ≤ wrappingOverhead := by decide
    omega
  · rw [if_neg hfits] at h
    cases h

theorem compact_compressAndWrapEgfx {data wrapped : Bytes} {c : Compressor} {mode : CompressionMode}
    (h : (compressAndWrapEgfx data c mode).1 = some wrapped) : Compact data wrapped := by
  cases mode with
  | never => exact compact_wrapUncompressed h
  | always =>
      unfold compressAndWrapEgfx at h
      simp only at h
      by_cases hfits : (c.compress data).2.length ≤ zgfxSegmentedMaxsize
      · rw [if_pos hfits] at h
        exact compact_wrapCompressed h
      · rw [if_neg hfits] at h
        exact compact_wrapUncompressed h
  | auto =>
      unfold compressAndWrapEgfx at h
      simp only at h
      by_cases hfits : (c.compress data).2.length ≤ zgfxSegmentedMaxsize
      · rw [if_pos hfits] at h
        obtain ⟨compressed, hcompressed, h⟩ := Option.bind_eq_some_iff.mp h
        obtain ⟨plain, hplain, h⟩ := Option.bind_eq_some_iff.mp h
        by_cases hless : compressed.length < plain.length
        · rw [if_pos hless] at h
          rw [← Option.some.inj h]
          exact compact_wrapCompressed hcompressed
        · rw [if_neg hless] at h
          rw [← Option.some.inj h]
          exact compact_wrapUncompressed hplain
      · rw [if_neg hfits] at h
        exact compact_wrapUncompressed h

end Drift.Zgfx

namespace Drift.Egfx

open Gfx (GfxClient GfxError)
open Zgfx (Compressor CompressionMode Decompressor)

/-! ### One PDU -/

section One

variable {Clear H264 Frame Caps : Type}

/-- A payload that is one PDU does what the PDU does. -/
theorem processPdus_framed {Zgfx : Type} {wire : Gfx.Wire Zgfx} {d : Gfx.Decoders Clear H264 Frame Caps}
    {sink : Gfx.Presenter Frame} {frame : Bytes} {pdu : Gfx.GfxPdu} (h : Gfx.Framed wire frame pdu)
    (c : GfxClient Clear H264 Caps) : c.processPdus wire d sink frame = c.present d sink pdu := by
  have hdata : frame.isEmpty = false := by
    cases frame with
    | nil => cases h.declared
    | cons b bs => rfl
  have hlen : ¬(frame.length < Gfx.gfxHeaderSize ∨ frame.length > frame.length) := by
    have hheader := h.header
    omega
  rw [GfxClient.processPdus]
  simp only [hdata, Bool.false_eq_true, if_false, h.declared, dif_neg hlen, List.take_length, h.decoded]
  rcases c.present d sink pdu with ⟨c', result⟩
  cases result with
  | error e => rfl
  | ok u =>
      change c'.processPdus wire d sink (frame.drop frame.length) = (c', .ok ())
      rw [List.drop_length, GfxClient.processPdus]
      rfl

/-- A PDU that the server can send. -/
structure Sendable (pdu : GfxPdu) (bytes : Bytes) : Prop where
  wellFormed : pdu.WellFormed
  encoded : pdu.encode = .ok bytes
  fits : bytes.length ≤ Zgfx.maxDecompressedPerSegment

theorem Sendable.framed {pdu : GfxPdu} {bytes : Bytes} (h : Sendable pdu bytes) (m : Messages) :
    Gfx.Framed (wire m) bytes pdu.read where
  declared := GfxPdu.pduLength_encode h.encoded
  header := GfxPdu.header_le_encode h.encoded
  decoded := by
    have hdecode := (GfxPdu.takes_encode h.wellFormed h.encoded).run []
    rw [List.append_nil] at hdecode
    change ((GfxPdu.decode bytes).map fun decoded => decoded.1.read).mapError m.decode = .ok pdu.read
    rw [hdecode]
    rfl

/-- A client handles a PDU and gives the acknowledgements that are due; an error is kept. -/
def shown (d : Gfx.Decoders Clear H264 Frame Caps) (sink : Gfx.Presenter Frame)
    (view : GfxClient Clear H264 Caps × Option GfxError) (pdu : GfxPdu) :
    GfxClient Clear H264 Caps × Option GfxError :=
  match view.1.present d sink pdu.read with
  | (client, .error e) => (client, some e)
  | (client, .ok ()) => ({ client with acks := client.acks.drain.1 }, view.2)

namespace GfxProcessor

/-- What the processor is apart from its decompressor. -/
def view (p : GfxProcessor Clear H264 Frame Caps) : GfxClient Clear H264 Caps × Option GfxError :=
  (p.channel.client, p.error)

/-- The processor goes on with another client and another decompressor. -/
structure Continues (p p' : GfxProcessor Clear H264 Frame Caps)
    (view : GfxClient Clear H264 Caps × Option GfxError) (zgfx : Decompressor) : Prop where
  messages : p'.messages = p.messages
  decoders : p'.decoders = p.decoders
  sink : p'.sink = p.sink
  view : p'.view = view
  zgfx : p'.channel.zgfx = zgfx

theorem process_wrapped {p : GfxProcessor Clear H264 Frame Caps} {pdu : GfxPdu} {bytes wrapped sent : Bytes}
    (hpdu : Sendable pdu bytes) (h : Zgfx.GivesBack p.channel.zgfx sent bytes wrapped) :
    ∃ zgfx, p.Continues (p.process wrapped).1 (shown p.decoders p.sink p.view pdu) zgfx ∧
      zgfx.Received (sent ++ bytes) := by
  obtain ⟨zgfx, hdecompress, hreceived⟩ := h
  refine ⟨zgfx, ?_, hreceived⟩
  have hwire : (wire p.messages).decompress p.channel.zgfx wrapped = (zgfx, .ok bytes) := by
    simp only [wire, hdecompress]
    rfl
  have hpayload : p.channel.processPayload (wire p.messages) p.decoders p.sink wrapped =
      (⟨(p.channel.client.present p.decoders p.sink pdu.read).1, zgfx⟩,
        (p.channel.client.present p.decoders p.sink pdu.read).2) := by
    unfold Gfx.GfxChannel.processPayload
    rw [hwire]
    simp only
    rw [processPdus_framed (hpdu.framed p.messages)]
  unfold process shown view
  rw [hpayload]
  rcases p.channel.client.present p.decoders p.sink pdu.read with ⟨client, result⟩
  cases result with
  | error e => exact ⟨rfl, rfl, rfl, rfl, rfl⟩
  | ok u => exact ⟨rfl, rfl, rfl, rfl, rfl⟩

end GfxProcessor

end One

/-! ### All PDUs -/

/-- The decompressor has received what was sent, which the compressor knows if it is used. -/
structure InStep (c : Compressor) (mode : CompressionMode) (d : Decompressor) (sent : Bytes) : Prop where
  received : d.Received sent
  takesPart : Zgfx.TakesPart c sent mode

theorem inStep_new (mode : CompressionMode) : InStep .new mode .new [] :=
  ⟨Zgfx.received_new, fun _ => Compressor.inStep_new⟩

section All

variable {Clear H264 Frame Caps : Type}

/-- The processor after messages. -/
def GfxProcessor.processAll (p : GfxProcessor Clear H264 Frame Caps) (messages : List Bytes) :
    GfxProcessor Clear H264 Frame Caps := messages.foldl (fun p message => (p.process message).1) p

theorem wrapAll_arrives {mode : CompressionMode} {pdus : List GfxPdu}
    (hpdus : ∀ pdu ∈ pdus, ∃ bytes, Sendable pdu bytes) {c : Compressor} {sent : Bytes}
    {p : GfxProcessor Clear H264 Frame Caps} (h : InStep c mode p.channel.zgfx sent) :
    ∃ messages c' sent' zgfx, GraphicsPipelineServer.wrapAll mode pdus c = some (messages, c') ∧
      (∀ message ∈ messages, message ≠ [] ∧ message.length ≤ u32Max) ∧
      p.Continues (p.processAll messages) (pdus.foldl (shown p.decoders p.sink) p.view) zgfx ∧
      InStep c' mode zgfx sent' := by
  induction pdus generalizing c sent p with
  | nil => exact ⟨[], c, sent, p.channel.zgfx, rfl, List.forall_mem_nil _, ⟨rfl, rfl, rfl, rfl, rfl⟩, h⟩
  | cons pdu pdus ih =>
      obtain ⟨⟨bytes, hsendable⟩, hpdus⟩ := List.forall_mem_cons.mp hpdus
      obtain ⟨wrapped, hwrapped, hgives, htakes⟩ :=
        Zgfx.givesBack_step (m := ⟨bytes, mode⟩) h.received h.takesPart hsendable.fits
      obtain ⟨zgfx, hcontinues, hreceived⟩ := GfxProcessor.process_wrapped hsendable hgives
      rw [← hcontinues.zgfx] at hreceived
      obtain ⟨messages, c', sent', zgfx', hrest, hmessages, hafter, hstep⟩ := ih hpdus ⟨hreceived, htakes⟩
      obtain ⟨hne, hlength⟩ := Zgfx.compact_compressAndWrapEgfx hwrapped
      refine ⟨wrapped :: messages, c', sent', zgfx', ?_, ?_, ?_, hstep⟩
      · unfold GraphicsPipelineServer.wrapAll
        rw [hsendable.encoded]
        change ((Zgfx.compressAndWrapEgfx bytes c mode).1.bind fun wrapped =>
          (GraphicsPipelineServer.wrapAll mode pdus (Zgfx.compressAndWrapEgfx bytes c mode).2).bind fun rest =>
            some (wrapped :: rest.1, rest.2)) = _
        rw [hwrapped, hrest]
        rfl
      · refine List.forall_mem_cons.mpr ⟨⟨hne, ?_⟩, hmessages⟩
        calc wrapped.length
            ≤ bytes.length + Zgfx.wrappingOverhead := hlength
          _ ≤ Zgfx.maxDecompressedPerSegment + Zgfx.wrappingOverhead := Nat.add_le_add_right hsendable.fits _
          _ ≤ u32Max := by decide
      · rw [hcontinues.decoders, hcontinues.sink, hcontinues.view] at hafter
        exact ⟨hafter.messages.trans hcontinues.messages, hafter.decoders.trans hcontinues.decoders,
          hafter.sink.trans hcontinues.sink, hafter.view, hafter.zgfx⟩

/-! ### Through the channel -/

variable {Q L : Type} [Channel.DvcProcessor Q] [Channel.DvcChannelListener (GfxProcessor Clear H264 Frame Caps ⊕ Q) L]

theorem deliver_processAll (id : Channel.DynamicChannelId)
    {channel : Channel.DynamicVirtualChannel (GfxProcessor Clear H264 Frame Caps ⊕ Q)}
    {p : GfxProcessor Clear H264 Frame Caps} (h : channel.channelProcessor = .inl p) (messages : List Bytes) :
    messages.foldl (.deliver id) channel = { channel with channelProcessor := .inl (p.processAll messages) } := by
  induction messages generalizing channel p with
  | nil =>
      rw [GfxProcessor.processAll, List.foldl_nil, List.foldl_nil, ← h]
  | cons message messages ih =>
      have hone : channel.deliver id message = { channel with channelProcessor := .inl (p.process message).1 } := by
        unfold Channel.DynamicVirtualChannel.deliver
        rw [h]
        rfl
      rw [List.foldl_cons, hone, ih rfl]
      rfl

theorem sentMessages_of_ne_nil {messages : List Bytes} (h : ∀ message ∈ messages, message ≠ []) :
    Channel.sentMessages messages = messages := by
  apply List.filter_eq_self.mpr
  intro message hmessage
  cases message with
  | nil => exact absurd rfl (h [] hmessage)
  | cons b bs => rfl

/-- **Frames arrive.** What the server drains is sent in parts on an idle channel of the client, between anything that
does not concern this channel, and the client handles just the PDUs of the queue, in order. The channel is idle and in
step again afterwards, for the next time the server drains. -/
theorem drained_pdus_arrive (before : List (Channel.ClientInput (GfxProcessor Clear H264 Frame Caps ⊕ Q) L))
    {c : Channel.DrdynvcClient (GfxProcessor Clear H264 Frame Caps ⊕ Q) L}
    (hreached : c = (Channel.DrdynvcClient.new.run before).1) {id : Channel.DynamicChannelId}
    {channel : Channel.DynamicVirtualChannel (GfxProcessor Clear H264 Frame Caps ⊕ Q)}
    (hactive : c.dynamicChannels.getByChannelId id = some channel) (hidle : channel.completeData = .new)
    (hroute : c.tunnelForChannel id = none) {p : GfxProcessor Clear H264 Frame Caps}
    (hprocessor : channel.channelProcessor = .inl p) {s : GraphicsPipelineServer} {sent : Bytes}
    (hstep : InStep s.zgfxCompressor s.compressionMode p.channel.zgfx sent)
    (hpdus : ∀ pdu ∈ s.outputQueue, ∃ bytes, Sendable pdu bytes) :
    ∃ messages s' parts payloads, s.drainOutput = some (messages, s') ∧ s'.outputQueue = [] ∧
      Channel.encodeDvcMessages id messages = .ok parts ∧
      parts.mapM (fun part => Channel.DrdynvcServerPdu.encode (.data part)) = .ok payloads ∧
      ∀ inputs : List (Channel.ClientInput (GfxProcessor Clear H264 Frame Caps ⊕ Q) L),
        inputs.filter (·.concerns id) = payloads.map .payload →
          ∃ p' sent', (c.run inputs).1.dynamicChannels.getByChannelId id =
              some { channel with channelProcessor := .inl p' } ∧
            p'.view = s.outputQueue.foldl (shown p.decoders p.sink) p.view ∧
            InStep s'.zgfxCompressor s'.compressionMode p'.channel.zgfx sent' := by
  obtain ⟨messages, compressor, sent', zgfx, hwrap, hmessages, hcontinues, hafter⟩ := wrapAll_arrives hpdus hstep
  have hlength : ∀ message ∈ messages, message.length ≤ u32Max := fun message hmessage =>
    (hmessages message hmessage).2
  have hsent : Channel.sentMessages messages = messages :=
    sentMessages_of_ne_nil fun message hmessage => (hmessages message hmessage).1
  have hencode : Channel.encodeDvcMessages id messages = .ok _ := Channel.encodeDvcMessages_eq hlength
  have hparts := Channel.messageParts_of_encode hencode
  obtain ⟨payloads, hpayloads, -, hdecode⟩ := Channel.encode_parts hparts
  refine ⟨messages, { s with outputQueue := [], zgfxCompressor := compressor }, _, payloads, ?_, rfl,
    hencode, hpayloads, ?_⟩
  · unfold GraphicsPipelineServer.drainOutput
    rw [hwrap]
    rfl
  · intro inputs hfilter
    refine ⟨p.processAll messages, sent', ?_, hcontinues.view, ?_⟩
    · rw [hreached] at hactive hroute ⊢
      rw [Channel.run_parts before hparts hdecode hfilter hactive hroute, Channel.processAll_messages hlength hidle,
        hsent, deliver_processAll id hprocessor]
    · rw [hcontinues.zgfx]
      exact hafter

end All

/-- A client that presents every frame as soon as it ends. -/
def testProcessor : GfxProcessor Unit Unit Unit Unit :=
  .new ⟨fun _ => "zgfx", fun _ => "decode"⟩ indifferent .prompt ()

/-- A server that compresses, with a frame in its queue. -/
def testServer : GraphicsPipelineServer :=
  (GraphicsPipelineServer.withCompression .default .always).push
    [.startFrame ⟨⟨0, 1, 2, 3⟩, 7⟩, .endFrame ⟨7⟩]

instance noGfxListener :
    Channel.DvcChannelListener (GfxProcessor Unit Unit Unit Unit ⊕ Channel.TestDvc) (Fin 0) where
  channelName l := l.elim0
  create l _ := l.elim0

abbrev TestClient : Type := Channel.DrdynvcClient (GfxProcessor Unit Unit Unit Unit ⊕ Channel.TestDvc) (Fin 0)

/-- A client with the graphics channel open. -/
def testClient : TestClient := (Channel.DrdynvcClient.new.run [.attachEstablished 8 (.inl testProcessor)]).1

theorem drained_pdus_arrive_frame :
    ∃ messages s' parts payloads p', testServer.drainOutput = some (messages, s') ∧
      Channel.encodeDvcMessages 8 messages = .ok parts ∧
      parts.mapM (fun part => Channel.DrdynvcServerPdu.encode (.data part)) = .ok payloads ∧
      (testClient.run (.close 9 :: payloads.map .payload)).1.dynamicChannels.getByChannelId 8 =
        some ⟨.inl p', .new, some 8⟩ ∧ p'.view.1.acks.totalDecoded = 1 := by
  have hactive : testClient.dynamicChannels.getByChannelId 8 = some ⟨.inl testProcessor, .new, some 8⟩ := rfl
  have hpdus : ∀ pdu ∈ testServer.outputQueue, ∃ bytes, Sendable pdu bytes :=
    List.forall_mem_cons.mpr ⟨⟨_, ⟨by decide, by decide, by decide, by decide⟩, rfl, by decide⟩,
      List.forall_mem_cons.mpr ⟨⟨_, trivial, rfl, by decide⟩, List.forall_mem_nil _⟩⟩
  obtain ⟨messages, s', parts, payloads, hdrain, -, hparts, hpayloads, hrun⟩ :=
    drained_pdus_arrive [.attachEstablished 8 (.inl testProcessor)] (c := testClient) rfl hactive rfl rfl rfl
      (s := testServer) (inStep_new .always) hpdus
  obtain ⟨-, hfilter⟩ := Channel.filter_parts (Channel.messageParts_of_encode hparts) hpayloads
  obtain ⟨p', sent', hchannel, hview, -⟩ := hrun (.close 9 :: payloads.map .payload) hfilter
  refine ⟨messages, s', parts, payloads, p', hdrain, hparts, hpayloads, hchannel, ?_⟩
  rw [hview]
  rfl

end Drift.Egfx
