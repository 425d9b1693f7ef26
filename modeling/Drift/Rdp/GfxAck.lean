import Drift.Gfx.Payload

/-!
# Acknowledgements without decoding

`GfxAckOnly` stands in for the graphics client where there is none: it walks over the PDUs of a payload by
their declared lengths and acknowledges every frame that ends.
-/

namespace Drift.Rdp

open Drift.Gfx

structure GfxAckOnly (Zgfx : Type) where
  zgfx : Zgfx
  framesDecoded : Nat

namespace GfxAckOnly

variable {Zgfx : Type} (wire : Wire Zgfx)

def new : GfxAckOnly Zgfx := ⟨wire.newZgfx, 0⟩

/-- An `EndFrame` is counted, and acknowledged; other PDUs are skipped, also those that do not decode. -/
def ack (framesDecoded : Nat) (pdu : Bytes) : Nat × List FrameAcknowledge :=
  match wire.decodePdu pdu with
  | .ok (.endFrame frameId) =>
    let framesDecoded := (framesDecoded + 1) % 2 ^ 32
    (framesDecoded, [⟨.unavailable, frameId, framesDecoded⟩])
  | _ => (framesDecoded, [])

/-- The walk over decompressed bytes: the counter, and the acknowledgements in order. -/
def walk (framesDecoded : Nat) (rest : Bytes) :
    Nat × Except String (List FrameAcknowledge) :=
  if rest.isEmpty then (framesDecoded, .ok [])
  else
    match _hlen : (pduLength rest).filter fun len => gfxHeaderSize ≤ len ∧ len ≤ rest.length with
    | none => (framesDecoded, .error "malformed RDPGFX_HEADER")
    | some len =>
      let (framesDecoded, acks) := ack wire framesDecoded (rest.take len)
      let (framesDecoded, result) := walk framesDecoded (rest.drop len)
      (framesDecoded, result.map (acks ++ ·))
termination_by rest.length
decreasing_by
  have hbounds := (Option.filter_eq_some_iff.mp _hlen).2
  have hheader : 0 < gfxHeaderSize := by decide
  rw [decide_eq_true_eq] at hbounds
  rw [List.length_drop]
  omega

/-- Decompresses one payload and gives an acknowledgement for every `EndFrame`. -/
def acksFor (c : GfxAckOnly Zgfx) (payload : Bytes) :
    GfxAckOnly Zgfx × Except String (List FrameAcknowledge) :=
  match wire.decompress c.zgfx payload with
  | (zgfx, .error e) => ({ c with zgfx := zgfx }, .error ("ZGFX: " ++ e))
  | (zgfx, .ok data) =>
    let (framesDecoded, result) := walk wire c.framesDecoded data
    (⟨zgfx, framesDecoded⟩, result)

def process (c : GfxAckOnly Zgfx) (payload : Bytes) :
    GfxAckOnly Zgfx × List (Except String (List FrameAcknowledge)) :=
  let (c, result) := c.acksFor wire payload
  (c, [result])

end GfxAckOnly

end Drift.Rdp
