import Drift.Core.Reader

/-!
# Chunks of a static channel

A PDU of a static channel is cut into chunks, each behind a header with the length of the whole, and the other
side puts the chunks of a sequence together.
-/

namespace Drift.Channel

open Pdu

def channelChunkLength : Nat := 1600

def maxChannelChunkLength : Nat := 16256

/-- The bits of `ChannelFlags` and of `ChannelControlFlags` that are looked at. -/
def flagFirst : UInt32 := 0x00000001

def flagLast : UInt32 := 0x00000002

def flagShowProtocol : UInt32 := 0x00000010

def packetCompressed : UInt32 := 0x00200000

/-- `contains` of bit flags. -/
def contains (flags flag : UInt32) : Bool := flags &&& flag = flag

/-- `CHANNEL_PDU_HEADER`. -/
structure ChannelPduHeader where
  length : Nat
  flags : UInt32

namespace ChannelPduHeader

def encode (h : ChannelPduHeader) : Bytes := toLeBytes 4 h.length ++ toLeBytes 4 h.flags.toNat

def decode : Reader ChannelPduHeader := do
  Reader.ensureSize 8
  return ⟨← Reader.readU32, .ofNat (← Reader.readU32)⟩

end ChannelPduHeader

/-- The encoded PDU, and flags that are added to those of every chunk. -/
structure SvcMessage where
  pdu : Bytes
  flags : UInt32

def chunkFlags (first last isChunked : Bool) : UInt32 :=
  (if first then flagFirst else 0) ||| (if last then flagLast else 0) |||
    (if isChunked then flagShowProtocol else 0)

/-- Puts the chunks of a sequence together. -/
structure ChunkProcessor where
  chunkedPdu : Bytes
  expectedLength : Option Nat
  deriving DecidableEq

namespace ChunkProcessor

def new : ChunkProcessor := ⟨[], none⟩

/-- The chunks from the given one on, in at most `fuel` rounds; each but the last is not empty. -/
def chunksFrom (message : SvcMessage) (maxChunkLen : Nat) : Nat → Nat → Nat → List Bytes
  | 0, _, _ => []
  | fuel + 1, start, stop =>
    let totalLen := message.pdu.length
    let flags := chunkFlags (start = 0) (stop = totalLen) (totalLen > maxChunkLen)
    let chunk := ChannelPduHeader.encode ⟨totalLen, flags ||| message.flags⟩ ++ (message.pdu.take stop).drop start
    if stop = totalLen then [chunk]
    else chunk :: chunksFrom message maxChunkLen fuel stop (min totalLen (stop + maxChunkLen))

def chunkifyOne (message : SvcMessage) (maxChunkLen : Nat) : Except EncodeError (List Bytes) :=
  let totalLen := message.pdu.length
  if totalLen > u32Max then .error (.invalidField "length" "out of range integral type conversion")
  else .ok (chunksFrom message maxChunkLen (totalLen + 1) 0 (min totalLen maxChunkLen))

def chunkify (messages : List SvcMessage) (maxChunkLen : Nat) : Except EncodeError (List Bytes) := do
  if ¬(channelChunkLength ≤ maxChunkLen ∧ maxChunkLen ≤ maxChannelChunkLength) then
    throw (.invalidField "max_chunk_len" "static channel chunk length is outside the permitted range")
  let results ← messages.mapM (chunkifyOne · maxChunkLen)
  return results.flatten

def clearSequence (_ : ChunkProcessor) : ChunkProcessor := ⟨[], none⟩

/-- Takes in a chunk of a sequence, after its first chunk was checked. -/
def takeChunk (p : ChunkProcessor) (header : ChannelPduHeader) (chunk : Bytes) :
    ChunkProcessor × Except DecodeError (Option Bytes) :=
  let p := { p with chunkedPdu := p.chunkedPdu ++ chunk }
  if ¬contains header.flags packetCompressed ∧ p.chunkedPdu.length > header.length then
    (p.clearSequence, .error (.invalidField "length" "channel fragment sequence exceeds its declared length"))
  else if ¬contains header.flags flagLast then (p, .ok none)
  else
    match p.expectedLength with
    | none =>
      (p, .error (.invalidField "flags" "received a terminal channel fragment without an initial fragment"))
    | some sequenceLength =>
      if ¬contains header.flags packetCompressed ∧ p.chunkedPdu.length ≠ sequenceLength then
        (p.clearSequence,
          .error (.invalidField "length" "terminal channel fragment does not match its declared length"))
      else (⟨[], none⟩, .ok (some p.chunkedPdu))

def dechunkify (p : ChunkProcessor) (payload : Bytes) : ChunkProcessor × Except DecodeError (Option Bytes) :=
  match ChannelPduHeader.decode payload with
  | .error e => (p, .error e)
  | .ok (header, chunk) =>
    let first := contains header.flags flagFirst
    let last := contains header.flags flagLast
    if ¬first ∧ ¬last ∧ p.expectedLength = none then
      if ¬contains header.flags packetCompressed ∧ chunk.length ≠ header.length then
        (p, .error (.invalidField "length" "unfragmented channel data does not match its declared length"))
      else (p, .ok (some chunk))
    else if first then
      if p.expectedLength ≠ none then
        (p.clearSequence, .error (.invalidField "flags"
          "received an initial channel fragment before completing the previous sequence"))
      else takeChunk { p with expectedLength := some header.length } header chunk
    else if p.expectedLength ≠ some header.length then
      (p.clearSequence,
        .error (.invalidField "length" "received a channel fragment without a matching initial fragment"))
    else takeChunk p header chunk

/-- The processor after some payloads, and the outcome of each. -/
def receive : ChunkProcessor → List Bytes → ChunkProcessor × List (Except DecodeError (Option Bytes))
  | p, [] => (p, [])
  | p, payload :: payloads =>
    let (p, result) := p.dechunkify payload
    let (p, results) := p.receive payloads
    (p, result :: results)

end ChunkProcessor

/-- The messages among the outcomes. -/
def delivered (results : List (Except DecodeError (Option Bytes))) : List Bytes :=
  results.filterMap fun result => result.toOption.join

end Drift.Channel
