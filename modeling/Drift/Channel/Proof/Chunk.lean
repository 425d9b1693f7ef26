import Drift.Channel.Chunk

/-!
# Chunks are put together as they were cut

Whatever a processor was given, it is in the midst of a sequence or holds nothing. From a processor that holds
nothing, the chunks of a message come out as the message. In the midst of a sequence, the chunks of the next
message are refused, and after them the processor holds nothing.
-/

namespace Drift.Channel

open Pdu

/-! ### Headers -/

theorem or_and_distrib (a b c : UInt32) : (a ||| b) &&& c = (a &&& c) ||| (b &&& c) := by
  exact UInt32.toBitVec_inj.mp BitVec.and_or_distrib_right

/-- The sender adds none of the bits that the other side looks at. -/
def Plain (flags : UInt32) : Prop := flags &&& (flagFirst ||| flagLast ||| packetCompressed) = 0

theorem and_eq_zero_of_plain {flags flag : UInt32} (h : Plain flags)
    (hflag : (flagFirst ||| flagLast ||| packetCompressed) &&& flag = flag) : flags &&& flag = 0 := by
  unfold Plain at h
  rw [← hflag, ← UInt32.and_assoc, h, UInt32.zero_and]

theorem contains_or {flags flag : UInt32} (h : Plain flags)
    (hflag : (flagFirst ||| flagLast ||| packetCompressed) &&& flag = flag) (own : UInt32) :
    contains (own ||| flags) flag = contains own flag := by
  unfold contains
  rw [or_and_distrib, and_eq_zero_of_plain h hflag, UInt32.or_zero]

theorem contains_chunkFlags (first last isChunked : Bool) :
    contains (chunkFlags first last isChunked) flagFirst = first ∧
      contains (chunkFlags first last isChunked) flagLast = last ∧
      contains (chunkFlags first last isChunked) packetCompressed = false := by
  revert first last isChunked
  decide

theorem decode_header {length : Nat} (h : length ≤ u32Max) (flags : UInt32) (chunk : Bytes) :
    ChannelPduHeader.decode (ChannelPduHeader.encode ⟨length, flags⟩ ++ chunk) = .ok (⟨length, flags⟩, chunk) := by
  have hlength : length < 2 ^ 32 := Nat.lt_succ_of_le h
  have hflags : flags.toNat < 2 ^ 32 := flags.toNat_lt
  have hread : Reader.Takes (do return ChannelPduHeader.mk (← Reader.readU32) (.ofNat (← Reader.readU32)))
      (ChannelPduHeader.encode ⟨length, flags⟩) ⟨length, .ofNat flags.toNat⟩ :=
    (Reader.takes_readU32 hlength).bind ((Reader.takes_readU32 hflags).bind_nil (Prefix.Reads.pure _))
  rw [UInt32.ofNat_toNat] at hread
  exact (hread.ensured (Nat.le_refl 8)).run chunk

namespace ChunkProcessor

/-! ### Steps -/

/-- A processor that is in no sequence holds nothing. -/
def Tidy (p : ChunkProcessor) : Prop := p.expectedLength = none → p = new

theorem takeChunk_tidy {p : ChunkProcessor} {length : Nat} (h : p.expectedLength = some length)
    (header : ChannelPduHeader) (chunk : Bytes) : (p.takeChunk header chunk).1.Tidy := by
  unfold takeChunk
  simp only
  rw [h]
  by_cases hover : ¬contains header.flags packetCompressed ∧ (p.chunkedPdu ++ chunk).length > header.length
  · rw [if_pos hover]
    exact fun _ => rfl
  · rw [if_neg hover]
    by_cases hlast : ¬contains header.flags flagLast
    · rw [if_pos hlast]
      intro hnone
      cases hnone
    · rw [if_neg hlast]
      simp only
      by_cases hshort : ¬contains header.flags packetCompressed ∧ (p.chunkedPdu ++ chunk).length ≠ length
      · rw [if_pos hshort]
        exact fun _ => rfl
      · rw [if_neg hshort]
        exact fun _ => rfl

theorem tidy_dechunkify {p : ChunkProcessor} (h : p.Tidy) (payload : Bytes) : (p.dechunkify payload).1.Tidy := by
  unfold dechunkify
  cases ChannelPduHeader.decode payload with
  | error e => exact h
  | ok decoded =>
      obtain ⟨header, chunk⟩ := decoded
      simp only
      by_cases hwhole : ¬contains header.flags flagFirst ∧ ¬contains header.flags flagLast ∧ p.expectedLength = none
      · rw [if_pos hwhole]
        by_cases hwrong : ¬contains header.flags packetCompressed ∧ chunk.length ≠ header.length
        · rw [if_pos hwrong]
          exact h
        · rw [if_neg hwrong]
          exact h
      · rw [if_neg hwhole]
        by_cases hfirst : contains header.flags flagFirst
        · rw [if_pos hfirst]
          by_cases hbusy : p.expectedLength ≠ none
          · rw [if_pos hbusy]
            exact fun _ => rfl
          · rw [if_neg hbusy]
            exact takeChunk_tidy rfl header chunk
        · rw [if_neg hfirst]
          by_cases hother : p.expectedLength ≠ some header.length
          · rw [if_pos hother]
            exact fun _ => rfl
          · rw [if_neg hother]
            exact takeChunk_tidy (not_not.mp hother) header chunk

theorem tidy_receive {p : ChunkProcessor} (h : p.Tidy) (payloads : List Bytes) : (p.receive payloads).1.Tidy := by
  induction payloads generalizing p with
  | nil => exact h
  | cons payload payloads ih => exact ih (tidy_dechunkify h payload)

theorem receive_append (p : ChunkProcessor) (payloads payloads' : List Bytes) :
    p.receive (payloads ++ payloads') =
      (((p.receive payloads).1.receive payloads').1,
        (p.receive payloads).2 ++ ((p.receive payloads).1.receive payloads').2) := by
  induction payloads generalizing p with
  | nil => rfl
  | cons payload payloads ih =>
      rw [List.cons_append, receive, receive]
      simp only
      rw [ih]
      rfl

/-! ### Chunks of a message -/

/-- In the midst of a message: what came of it so far. -/
def midway (pdu : Bytes) (start : Nat) : ChunkProcessor := ⟨pdu.take start, some pdu.length⟩

theorem take_append_drop_take (pdu : Bytes) {start stop : Nat} (h : start ≤ stop) :
    pdu.take start ++ (pdu.take stop).drop start = pdu.take stop := by
  have htake : pdu.take start = (pdu.take stop).take start := by rw [List.take_take, Nat.min_eq_left h]
  rw [htake, List.take_append_drop]

theorem takeChunk_midway {pdu : Bytes} {start stop : Nat} {flags : UInt32} (hstart : start ≤ stop)
    (hstop : stop ≤ pdu.length) (hcompressed : contains flags packetCompressed = false)
    (hlast : contains flags flagLast = decide (stop = pdu.length)) :
    (midway pdu start).takeChunk ⟨pdu.length, flags⟩ ((pdu.take stop).drop start) =
      if stop = pdu.length then (new, .ok (some pdu)) else (midway pdu stop, .ok none) := by
  have hlength : (pdu.take stop).length = stop := by rw [List.length_take, Nat.min_eq_left hstop]
  unfold takeChunk midway
  simp only
  rw [take_append_drop_take pdu hstart, hlength, hcompressed, hlast, if_neg (by omega)]
  by_cases hend : stop = pdu.length
  · rw [if_pos hend, if_neg (by simp [hend]), if_neg (by omega), hend, List.take_length]
    rfl
  · rw [if_neg hend, if_pos (by simp [hend])]

/-- The header of a chunk of a message, as it is read. -/
structure Marked (flags : UInt32) (first last : Bool) : Prop where
  first : contains flags flagFirst = first
  last : contains flags flagLast = last
  compressed : contains flags packetCompressed = false

theorem marked_chunkFlags {flags : UInt32} (h : Plain flags) (first last isChunked : Bool) :
    Marked (chunkFlags first last isChunked ||| flags) first last := by
  obtain ⟨hfirst, hlast, hcompressed⟩ := contains_chunkFlags first last isChunked
  exact ⟨(contains_or h (by decide) _).trans hfirst, (contains_or h (by decide) _).trans hlast,
    (contains_or h (by decide) _).trans hcompressed⟩

/-- The first chunk of a message, to a processor that holds nothing. -/
theorem dechunkify_first {length : Nat} (hlength : length ≤ u32Max) {flags : UInt32} {last : Bool}
    (h : Marked flags true last) (chunk : Bytes) :
    new.dechunkify (ChannelPduHeader.encode ⟨length, flags⟩ ++ chunk) =
      takeChunk ⟨[], some length⟩ ⟨length, flags⟩ chunk := by
  unfold dechunkify
  rw [decode_header hlength]
  simp only
  rw [h.first, if_neg (by simp), if_pos rfl, if_neg (by simp [new])]
  rfl

/-- The first chunk of a message, in the midst of another. -/
theorem dechunkify_first_of_busy {p : ChunkProcessor} (hbusy : p.expectedLength ≠ none) {length : Nat}
    (hlength : length ≤ u32Max) {flags : UInt32} {last : Bool} (h : Marked flags true last) (chunk : Bytes) :
    ∃ e, p.dechunkify (ChannelPduHeader.encode ⟨length, flags⟩ ++ chunk) = (new, .error e) := by
  unfold dechunkify
  rw [decode_header hlength]
  simp only
  rw [h.first, if_neg (by simp), if_pos rfl, if_pos hbusy]
  exact ⟨_, rfl⟩

/-- A chunk that is not the first of its message. -/
theorem dechunkify_next {pdu : Bytes} (hlength : pdu.length ≤ u32Max) {flags : UInt32} {last : Bool}
    (h : Marked flags false last) (start : Nat) (chunk : Bytes) :
    (midway pdu start).dechunkify (ChannelPduHeader.encode ⟨pdu.length, flags⟩ ++ chunk) =
      (midway pdu start).takeChunk ⟨pdu.length, flags⟩ chunk := by
  unfold dechunkify
  rw [decode_header hlength]
  simp only
  rw [h.first, if_neg (by simp [midway]), if_neg (by simp), if_neg (by simp [midway])]

/-- A chunk that is not the first of its message, to a processor that holds nothing. -/
theorem dechunkify_next_of_new {length : Nat} (hlength : length ≤ u32Max) {flags : UInt32} {last : Bool}
    (h : Marked flags false last) {chunk : Bytes} (hshort : last = false → chunk.length ≠ length) :
    ∃ e, new.dechunkify (ChannelPduHeader.encode ⟨length, flags⟩ ++ chunk) = (new, .error e) := by
  unfold dechunkify
  rw [decode_header hlength]
  simp only
  rw [h.first, h.last, h.compressed]
  cases last with
  | false =>
      rw [if_pos (by simp [new]), if_pos ⟨by simp, hshort rfl⟩]
      exact ⟨_, rfl⟩
  | true =>
      rw [if_neg (by simp), if_neg (by simp), if_pos (by simp [new])]
      exact ⟨_, rfl⟩

theorem delivered_append (results results' : List (Except DecodeError (Option Bytes))) :
    delivered (results ++ results') = delivered results ++ delivered results' := List.filterMap_append

theorem receive_cons {p p' : ChunkProcessor} {payload : Bytes} {result : Except DecodeError (Option Bytes)}
    (h : p.dechunkify payload = (p', result)) (payloads : List Bytes) :
    p.receive (payload :: payloads) = ((p'.receive payloads).1, result :: (p'.receive payloads).2) := by
  rw [receive, h]

/-- The part of a message before a chunk: nothing before the first. -/
def before (pdu : Bytes) (start : Nat) : ChunkProcessor := if start = 0 then new else midway pdu start

/-- A chunk of a message in its turn. -/
theorem dechunkify_chunk {message : SvcMessage} (hplain : Plain message.flags)
    (hlength : message.pdu.length ≤ u32Max) {start stop : Nat} (hstart : start ≤ stop)
    (hstop : stop ≤ message.pdu.length) (isChunked : Bool) :
    (before message.pdu start).dechunkify
        (ChannelPduHeader.encode ⟨message.pdu.length,
          chunkFlags (start = 0) (stop = message.pdu.length) isChunked ||| message.flags⟩ ++
            (message.pdu.take stop).drop start) =
      if stop = message.pdu.length then (new, .ok (some message.pdu))
      else (midway message.pdu stop, .ok none) := by
  have hmarked := marked_chunkFlags hplain (start = 0) (stop = message.pdu.length) isChunked
  have htake := takeChunk_midway hstart hstop hmarked.compressed hmarked.last
  unfold before
  by_cases hfirst : start = 0
  · subst hfirst
    rw [decide_eq_true (rfl : 0 = 0)] at hmarked htake ⊢
    rw [if_pos rfl, dechunkify_first hlength hmarked]
    exact htake
  · rw [decide_eq_false hfirst] at hmarked htake ⊢
    rw [if_neg hfirst, dechunkify_next hlength hmarked]
    exact htake

/-- The rest of the chunks of a message. -/
theorem receive_chunksFrom {message : SvcMessage} {maxChunkLen : Nat} (hmax : 0 < maxChunkLen)
    (hplain : Plain message.flags) (hlength : message.pdu.length ≤ u32Max) {fuel start stop : Nat}
    (hstart : start ≤ message.pdu.length) (hstop : stop = min message.pdu.length (start + maxChunkLen))
    (hfuel : message.pdu.length - start < fuel) :
    ((before message.pdu start).receive (chunksFrom message maxChunkLen fuel start stop)).1 = new ∧
      delivered ((before message.pdu start).receive (chunksFrom message maxChunkLen fuel start stop)).2 =
        [message.pdu] := by
  induction fuel generalizing start stop with
  | zero => omega
  | succ fuel ih =>
      have hchunk := dechunkify_chunk hplain hlength (by omega : start ≤ stop) (by omega)
        (decide (message.pdu.length > maxChunkLen))
      unfold chunksFrom
      simp only
      by_cases hlast : stop = message.pdu.length
      · rw [if_pos hlast] at hchunk ⊢
        rw [receive_cons hchunk]
        exact ⟨rfl, rfl⟩
      · rw [if_neg hlast] at hchunk ⊢
        have hafter : midway message.pdu stop = before message.pdu stop := by
          unfold before
          rw [if_neg (by omega)]
        rw [hafter] at hchunk
        rw [receive_cons hchunk]
        exact ih (by omega) rfl (by omega)

/-- Of a message whose first chunk is gone, nothing is taken. -/
theorem receive_chunksFrom_lost {message : SvcMessage} {maxChunkLen : Nat} (hmax : 0 < maxChunkLen)
    (hplain : Plain message.flags) (hlength : message.pdu.length ≤ u32Max) {fuel start stop : Nat}
    (hpos : 0 < start) (hstart : start ≤ message.pdu.length)
    (hstop : stop = min message.pdu.length (start + maxChunkLen)) :
    (new.receive (chunksFrom message maxChunkLen fuel start stop)).1 = new ∧
      delivered (new.receive (chunksFrom message maxChunkLen fuel start stop)).2 = [] := by
  induction fuel generalizing start stop with
  | zero => exact ⟨rfl, rfl⟩
  | succ fuel ih =>
      have hmarked := marked_chunkFlags hplain (start = 0) (stop = message.pdu.length)
        (decide (message.pdu.length > maxChunkLen))
      rw [decide_eq_false (Nat.pos_iff_ne_zero.mp hpos)] at hmarked
      have hshort : decide (stop = message.pdu.length) = false →
          ((message.pdu.take stop).drop start).length ≠ message.pdu.length := by
        intro hmore
        have hne := of_decide_eq_false hmore
        rw [List.length_drop, List.length_take]
        omega
      obtain ⟨e, hchunk⟩ := dechunkify_next_of_new hlength hmarked hshort
      unfold chunksFrom
      simp only
      rw [decide_eq_false (Nat.pos_iff_ne_zero.mp hpos)]
      by_cases hlast : stop = message.pdu.length
      · rw [if_pos hlast, receive_cons hchunk]
        exact ⟨rfl, rfl⟩
      · rw [if_neg hlast, receive_cons hchunk]
        exact ih (by omega) (by omega) rfl

/-- All the chunks of a message, to a processor that holds nothing. -/
theorem receive_message {message : SvcMessage} {maxChunkLen : Nat} (hmax : 0 < maxChunkLen)
    (hplain : Plain message.flags) (hlength : message.pdu.length ≤ u32Max) {fuel : Nat}
    (hfuel : message.pdu.length < fuel) :
    (new.receive (chunksFrom message maxChunkLen fuel 0 (min message.pdu.length maxChunkLen))).1 = new ∧
      delivered (new.receive (chunksFrom message maxChunkLen fuel 0 (min message.pdu.length maxChunkLen))).2 =
        [message.pdu] := by
  have hstop : min message.pdu.length maxChunkLen = min message.pdu.length (0 + maxChunkLen) := by
    rw [Nat.zero_add]
  exact receive_chunksFrom hmax hplain hlength (Nat.zero_le _) hstop hfuel

/-- All the chunks of a message, in the midst of another. -/
theorem receive_message_of_busy {p : ChunkProcessor} (hbusy : p.expectedLength ≠ none) {message : SvcMessage}
    {maxChunkLen : Nat} (hmax : 0 < maxChunkLen) (hplain : Plain message.flags)
    (hlength : message.pdu.length ≤ u32Max) {fuel : Nat} (hfuel : 0 < fuel) :
    (p.receive (chunksFrom message maxChunkLen fuel 0 (min message.pdu.length maxChunkLen))).1 = new ∧
      delivered (p.receive (chunksFrom message maxChunkLen fuel 0 (min message.pdu.length maxChunkLen))).2 =
        [] := by
  cases fuel with
  | zero => omega
  | succ fuel =>
      have hmarked := marked_chunkFlags hplain true
        (decide (min message.pdu.length maxChunkLen = message.pdu.length))
        (decide (message.pdu.length > maxChunkLen))
      obtain ⟨e, hchunk⟩ := dechunkify_first_of_busy hbusy hlength hmarked
        ((message.pdu.take (min message.pdu.length maxChunkLen)).drop 0)
      unfold chunksFrom
      simp only
      rw [decide_eq_true trivial]
      by_cases hlast : min message.pdu.length maxChunkLen = message.pdu.length
      · rw [if_pos hlast, receive_cons hchunk]
        exact ⟨rfl, rfl⟩
      · rw [if_neg hlast, receive_cons hchunk]
        exact receive_chunksFrom_lost hmax hplain hlength (by omega) (by omega) rfl

theorem length_chunk {message : SvcMessage} {maxChunkLen fuel start stop : Nat} (h : stop ≤ start + maxChunkLen) :
    ∀ chunk ∈ chunksFrom message maxChunkLen fuel start stop, chunk.length ≤ 8 + maxChunkLen := by
  have hsize : ∀ header : ChannelPduHeader, header.encode.length = 8 := by
    intro header
    unfold ChannelPduHeader.encode
    rw [List.length_append, length_toLeBytes, length_toLeBytes]
  induction fuel generalizing start stop with
  | zero =>
      intro chunk hchunk
      cases hchunk
  | succ fuel ih =>
      intro chunk hchunk
      unfold chunksFrom at hchunk
      simp only at hchunk
      have hpart : ∀ header : ChannelPduHeader,
          (header.encode ++ (message.pdu.take stop).drop start).length ≤ 8 + maxChunkLen := by
        intro header
        rw [List.length_append, hsize, List.length_drop, List.length_take]
        omega
      by_cases hlast : stop = message.pdu.length
      · rw [if_pos hlast] at hchunk
        rw [List.mem_singleton.mp hchunk]
        exact hpart _
      · rw [if_neg hlast] at hchunk
        rcases List.mem_cons.mp hchunk with rfl | hmem
        · exact hpart _
        · exact ih (Nat.min_le_right _ _) chunk hmem

/-- All the chunks of a message. -/
def chunksOf (maxChunkLen : Nat) (message : SvcMessage) : List Bytes :=
  chunksFrom message maxChunkLen (message.pdu.length + 1) 0 (min message.pdu.length maxChunkLen)

theorem chunkify_eq {messages : List SvcMessage} {maxChunkLen : Nat}
    (hlength : ∀ m ∈ messages, m.pdu.length ≤ u32Max)
    (hmax : channelChunkLength ≤ maxChunkLen ∧ maxChunkLen ≤ maxChannelChunkLength) :
    chunkify messages maxChunkLen = .ok (messages.map (chunksOf maxChunkLen)).flatten := by
  have hmap : messages.mapM (chunkifyOne · maxChunkLen) = .ok (messages.map (chunksOf maxChunkLen)) := by
    induction messages with
    | nil => rfl
    | cons message messages ih =>
        have hone : chunkifyOne message maxChunkLen = .ok (chunksOf maxChunkLen message) :=
          if_neg (Nat.not_lt.mpr (hlength message List.mem_cons_self))
        rw [List.mapM_cons, hone, ih fun m hm => hlength m (List.mem_cons_of_mem message hm)]
        rfl
  unfold chunkify
  rw [if_neg (not_not_intro hmax), hmap]
  rfl

/-- The chunks of some messages, to a processor that holds nothing. -/
theorem receive_messages {messages : List SvcMessage} {maxChunkLen : Nat} (hmax : 0 < maxChunkLen)
    (hplain : ∀ m ∈ messages, Plain m.flags) (hlength : ∀ m ∈ messages, m.pdu.length ≤ u32Max) :
    (new.receive (messages.map (chunksOf maxChunkLen)).flatten).1 = new ∧
      delivered (new.receive (messages.map (chunksOf maxChunkLen)).flatten).2 = messages.map SvcMessage.pdu := by
  induction messages with
  | nil => exact ⟨rfl, rfl⟩
  | cons message messages ih =>
      obtain ⟨hstate, hout⟩ := ih (fun m hm => hplain m (List.mem_cons_of_mem message hm))
        (fun m hm => hlength m (List.mem_cons_of_mem message hm))
      obtain ⟨hidle, hmessage⟩ := receive_message hmax (hplain message List.mem_cons_self)
        (hlength message List.mem_cons_self) (Nat.lt_succ_self message.pdu.length)
      rw [List.map_cons, List.flatten_cons, receive_append]
      change (ChunkProcessor.receive _ (chunksOf maxChunkLen message)).1 = _ at hidle
      rw [hidle]
      refine ⟨hstate, ?_⟩
      rw [delivered_append, hout]
      exact congrArg (· ++ messages.map SvcMessage.pdu) hmessage

/-- After whatever payloads, the messages that are sent come out, in order and whole: all of them unless the
processor is in the midst of a sequence, which costs the first of them. Then the processor holds nothing. -/
theorem chunks_come_out (payloads : List Bytes) (message : SvcMessage) (messages : List SvcMessage)
    {maxChunkLen : Nat} (hplain : ∀ m ∈ message :: messages, Plain m.flags)
    (hlength : ∀ m ∈ message :: messages, m.pdu.length ≤ u32Max)
    (hmax : channelChunkLength ≤ maxChunkLen ∧ maxChunkLen ≤ maxChannelChunkLength) :
    ∃ chunks, chunkify (message :: messages) maxChunkLen = .ok chunks ∧
      (∀ chunk ∈ chunks, chunk.length ≤ 8 + maxChunkLen) ∧
      ((new.receive payloads).1.receive chunks).1 = new ∧
      delivered ((new.receive payloads).1.receive chunks).2 =
        (if (new.receive payloads).1.expectedLength = none then message :: messages else messages).map
          SvcMessage.pdu := by
  have hpos : 0 < maxChunkLen := Nat.lt_of_lt_of_le (by decide) hmax.1
  have htidy : (new.receive payloads).1.Tidy := tidy_receive (fun _ => rfl) payloads
  generalize (new.receive payloads).1 = p at htidy ⊢
  refine ⟨_, chunkify_eq hlength hmax, ?_, ?_⟩
  · intro chunk hchunk
    obtain ⟨chunks, hmem, hin⟩ := List.mem_flatten.mp hchunk
    obtain ⟨m, hm, rfl⟩ := List.mem_map.mp hmem
    exact length_chunk (by omega) chunk hin
  · by_cases hidle : p.expectedLength = none
    · rw [if_pos hidle, htidy hidle]
      exact receive_messages hpos hplain hlength
    · have hrest := receive_messages hpos (fun m hm => hplain m (List.mem_cons_of_mem message hm))
        (fun m hm => hlength m (List.mem_cons_of_mem message hm))
      obtain ⟨hafter, hlost⟩ := receive_message_of_busy hidle hpos (hplain message List.mem_cons_self)
        (hlength message List.mem_cons_self) (Nat.succ_pos message.pdu.length)
      change (ChunkProcessor.receive _ (chunksOf maxChunkLen message)).1 = _ at hafter
      change delivered (ChunkProcessor.receive _ (chunksOf maxChunkLen message)).2 = _ at hlost
      rw [if_neg hidle, List.map_cons, List.flatten_cons, receive_append, hafter, delivered_append, hlost]
      exact hrest

/-- A sequence is left open, which costs the first message. The second is too long for one chunk. -/
theorem chunks_come_out_cut :
    let messages : List SvcMessage := [⟨[1, 2, 3], 0⟩, ⟨List.replicate 2000 7, flagShowProtocol⟩, ⟨[4], 0⟩]
    ∃ chunks, chunkify messages 1600 = .ok chunks ∧ (∀ chunk ∈ chunks, chunk.length ≤ 8 + 1600) ∧
      ((new.receive [[5, 0, 0, 0, 1, 0, 0, 0, 9]]).1.receive chunks).1 = new ∧
      delivered ((new.receive [[5, 0, 0, 0, 1, 0, 0, 0, 9]]).1.receive chunks).2 =
        [List.replicate 2000 7, [4]] := by
  intro messages
  have hplain : ∀ m ∈ messages, Plain m.flags := by
    unfold Plain
    simp only [messages, List.forall_mem_cons]
    exact ⟨by decide, by decide, by decide, List.forall_mem_nil _⟩
  have hlength : ∀ m ∈ messages, m.pdu.length ≤ u32Max := by
    simp only [messages, List.forall_mem_cons, List.length_replicate]
    exact ⟨by decide, by decide, by decide, List.forall_mem_nil _⟩
  exact chunks_come_out [[5, 0, 0, 0, 1, 0, 0, 0, 9]] _ _ hplain hlength (by decide)

end ChunkProcessor

end Drift.Channel
