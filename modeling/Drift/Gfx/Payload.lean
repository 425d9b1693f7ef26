import Drift.Gfx.Client

/-!
# Payloads of the graphics channel

A payload is decompressed into PDUs back to back, each decoded from exactly the bytes that its header
declares. The decompressor and the parser of a PDU are parameters (`Wire`), and so is what the sink does
with the callbacks of the frames while it is called.
-/

namespace Drift.Gfx

open Drift.Codec

/-- The decompressor, which has a state, and the parser of a PDU. -/
structure Wire (Zgfx : Type) where
  newZgfx : Zgfx
  decompress : Zgfx → Bytes → Zgfx × Except String Bytes
  decodePdu : Bytes → Except String GfxPdu

abbrev gfxHeaderSize : Nat := 8

/-- `u32::from_le_bytes`. -/
def fromLeBytes (b₀ b₁ b₂ b₃ : UInt8) : Nat :=
  b₀.toNat + b₁.toNat * 2 ^ 8 + b₂.toNat * 2 ^ 16 + b₃.toNat * 2 ^ 24

/-- The length that the header of the first PDU declares. -/
def pduLength (data : Bytes) : Option Nat := do
  return fromLeBytes (← data[4]?) (← data[5]?) (← data[6]?) (← data[7]?)

/-- What the callbacks that the sink runs during a call do to the acknowledgements. -/
abbrev Presenter (Frame : Type) := AckState → SinkCall Frame → AckState

/-- A sink that presents every frame as soon as it ends. -/
def Presenter.prompt {Frame : Type} : Presenter Frame
  | acks, .endFrame frameId => acks.presented frameId
  | acks, _ => acks

/-- The client of the channel, with its decompressor. -/
structure GfxChannel (Zgfx Clear H264 Caps : Type) where
  client : GfxClient Clear H264 Caps
  zgfx : Zgfx

section Client

variable {Zgfx Clear H264 Frame Caps : Type} (wire : Wire Zgfx) (d : Decoders Clear H264 Frame Caps)
  (sink : Presenter Frame)

/-- Applies one PDU, with the callbacks that run meanwhile. -/
def GfxClient.present (c : GfxClient Clear H264 Caps) (pdu : GfxPdu) :
    GfxClient Clear H264 Caps × Except GfxError Unit :=
  let (c, calls, result) := c.handlePdu d pdu
  ({ c with acks := calls.foldl sink c.acks }, result)

/-- Applies the PDUs of decompressed bytes up to the first that fails. -/
def GfxClient.processPdus (c : GfxClient Clear H264 Caps) (data : Bytes) :
    GfxClient Clear H264 Caps × Except GfxError Unit :=
  if data.isEmpty then (c, .ok ())
  else
    match pduLength data with
    | none =>
      (c, .error (.decode ("truncated RDPGFX_HEADER (" ++ toString data.length ++ " bytes)")))
    | some len =>
      if _hlen : len < gfxHeaderSize ∨ len > data.length then
        (c, .error (.decode ("pduLength " ++ toString len ++ " outside " ++
          toString gfxHeaderSize ++ "..=" ++ toString data.length)))
      else
        match wire.decodePdu (data.take len) with
        | .error e => (c, .error (.decode e))
        | .ok pdu =>
          match c.present d sink pdu with
          | (c, .error e) => (c, .error e)
          | (c, .ok ()) => c.processPdus (data.drop len)
termination_by data.length
decreasing_by
  have hheader : 0 < gfxHeaderSize := by decide
  rw [List.length_drop]
  omega

/-- Applies one PDU, and tells the calls that it makes on the sink. -/
def GfxClient.presentTraced (c : GfxClient Clear H264 Caps) (pdu : GfxPdu) :
    GfxClient.Outcome Clear H264 Frame Caps :=
  let (c, calls, result) := c.handlePdu d pdu
  ({ c with acks := calls.foldl sink c.acks }, calls, result)

/-- `processPdus` with the calls that it makes on the sink. -/
def GfxClient.processPdusTraced (c : GfxClient Clear H264 Caps) (data : Bytes) :
    GfxClient.Outcome Clear H264 Frame Caps :=
  if data.isEmpty then (c, [], .ok ())
  else
    match pduLength data with
    | none =>
      (c, [], .error (.decode ("truncated RDPGFX_HEADER (" ++ toString data.length ++ " bytes)")))
    | some len =>
      if _hlen : len < gfxHeaderSize ∨ len > data.length then
        (c, [], .error (.decode ("pduLength " ++ toString len ++ " outside " ++
          toString gfxHeaderSize ++ "..=" ++ toString data.length)))
      else
        match wire.decodePdu (data.take len) with
        | .error e => (c, [], .error (.decode e))
        | .ok pdu =>
          match c.presentTraced d sink pdu with
          | (c, calls, .error e) => (c, calls, .error e)
          | (c, calls, .ok ()) =>
            let (c, rest, result) := c.processPdusTraced (data.drop len)
            (c, calls ++ rest, result)
termination_by data.length
decreasing_by
  have hheader : 0 < gfxHeaderSize := by decide
  rw [List.length_drop]
  omega

def GfxChannel.new (h264 : H264) : GfxChannel Zgfx Clear H264 Caps := ⟨.new d h264, wire.newZgfx⟩

def GfxChannel.processPayload (c : GfxChannel Zgfx Clear H264 Caps) (payload : Bytes) :
    GfxChannel Zgfx Clear H264 Caps × Except GfxError Unit :=
  match wire.decompress c.zgfx payload with
  | (zgfx, .error e) => ({ c with zgfx := zgfx }, .error (.zgfx e))
  | (zgfx, .ok data) =>
    let (client, result) := c.client.processPdus wire d sink data
    (⟨client, zgfx⟩, result)

/-- Processes one payload and takes the acknowledgements that are due. -/
def GfxChannel.process (c : GfxChannel Zgfx Clear H264 Caps) (payload : Bytes) :
    GfxChannel Zgfx Clear H264 Caps × List (Except GfxError (List FrameAcknowledge)) :=
  match c.processPayload wire d sink payload with
  | (c, .error e) => (c, [.error e])
  | (c, .ok ()) =>
    let (acks, drained) := c.client.acks.drain
    ({ c with client := { c.client with acks := acks } }, [.ok drained])

end Client

end Drift.Gfx
