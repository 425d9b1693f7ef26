import Drift.Gfx.Proof.Effects
import Drift.Lib.Transition
import Drift.Rdp.GfxAck

/-!
# The acknowledger and the client

With a sink that presents every frame as soon as it ends, a visible client acknowledges the frames of a
payload one by one, with nothing in flight. The acknowledger counts and acknowledges the same frames, as long
as the client accepts the payloads (`same_acks`).
-/

namespace Drift.Rdp

open Drift.Gfx Transition

/-! ### One PDU -/

/-- The acknowledgements of a visible client with nothing in flight. -/
structure Settled (acks : AckState) (total : Nat) : Prop where
  inFlight : acks.inFlight = 0
  hidden : acks.hidden = false
  totalDecoded : acks.totalDecoded = total

theorem Settled.presented {acks : AckState} {total : Nat} (h : Settled acks total) (frameId : UInt32) :
    let ended := (total + 1) % 2 ^ 32
    Settled (acks.frameEnded.presented frameId) ended ∧
      (acks.frameEnded.presented frameId).outbox = acks.outbox ++ [⟨.unavailable, frameId, ended⟩] := by
  have hflight : acks.frameEnded.inFlight - 1 = 0 := by
    simp only [AckState.frameEnded, h.inFlight]
    omega
  have hhidden : acks.frameEnded.hidden = false := h.hidden
  have htotal : acks.frameEnded.totalDecoded = (total + 1) % 2 ^ 32 := by
    simp only [AckState.frameEnded, h.totalDecoded]
  unfold AckState.presented
  simp only [hhidden, hflight, Bool.not_false, if_true]
  exact ⟨⟨rfl, rfl, htotal⟩, by simp only [AckState.queueAck, htotal]; rfl⟩

section Payloads

variable {Zgfx Clear H264 Frame Caps : Type} {wire : Wire Zgfx} {d : Decoders Clear H264 Frame Caps}

theorem foldl_prompt {calls : List (SinkCall Frame)} (hcalls : ∀ call ∈ calls, call.isAside = true)
    (acks : AckState) : calls.foldl Presenter.prompt acks = acks := by
  induction calls generalizing acks with
  | nil => rfl
  | cons call calls ih =>
      have hprompt : Presenter.prompt acks call = acks := by
        have haside := hcalls call List.mem_cons_self
        cases call with
        | endFrame frameId => cases haside
        | _ => rfl
      rw [List.foldl_cons, hprompt]
      exact ih (fun call' h => hcalls call' (List.mem_cons_of_mem _ h)) acks

theorem acks_present (c : GfxClient Clear H264 Caps) {pdu : GfxPdu}
    (hpdu : ∀ frameId, pdu ≠ .endFrame frameId) :
    (c.present d .prompt pdu).1.acks = c.acks := by
  by_cases haside : pdu.isAside = true
  · have heffect := aside_handlePdu d c haside
    simp only [GfxClient.present]
    rw [foldl_prompt fun call hcall => (heffect.calls call hcall).1]
    exact heffect.acks
  cases pdu with
  | endFrame frameId => exact absurd rfl (hpdu frameId)
  | resetGraphics width height => rfl
  | createSurface id width height format =>
      simp only [GfxClient.present, GfxClient.handlePdu, GfxClient.check]
      split <;> rfl
  | deleteSurface id =>
      simp only [GfxClient.present, GfxClient.handlePdu]
      split <;> rfl
  | startFrame => rfl
  | deleteEncodingContext id codecContextId => rfl
  | wireToSurface2 w =>
      simp only [GfxClient.present, GfxClient.handlePdu, GfxClient.wireToSurface2, GfxClient.check]
      split
      · split
        · refine foldl_prompt (fun call hcall => ?_) _
          obtain ⟨tile, -, hcall⟩ := List.mem_flatMap.mp hcall
          exact (aside_blit false call hcall).1
        · rfl
      · rfl
  | _ => exact absurd rfl haside

/-- What the acknowledger notes of a PDU is what the client adds to its outbox. -/
theorem ack_present {c : GfxClient Clear H264 Caps} {total : Nat} (h : Settled c.acks total)
    {data : Bytes} {pdu : GfxPdu} (hdecode : wire.decodePdu data = .ok pdu) :
    Settled (c.present d .prompt pdu).1.acks (GfxAckOnly.ack wire total data).1 ∧
      (c.present d .prompt pdu).1.acks.outbox =
        c.acks.outbox ++ (GfxAckOnly.ack wire total data).2 := by
  unfold GfxAckOnly.ack
  rw [hdecode]
  by_cases hend : ∃ frameId, pdu = .endFrame frameId
  · obtain ⟨frameId, rfl⟩ := hend
    exact h.presented frameId
  · have hacks := acks_present (d := d) c fun frameId heq => hend ⟨frameId, heq⟩
    rw [hacks]
    cases pdu with
    | endFrame frameId => exact absurd ⟨frameId, rfl⟩ hend
    | _ => exact ⟨h, (List.append_nil _).symm⟩

/-! ### Payloads -/

/-- **Walks.** When the client accepts the PDUs of decompressed bytes, the acknowledger walks over the same
PDUs. -/
theorem walk_processPdus {c c' : GfxClient Clear H264 Caps} {total : Nat} {data : Bytes}
    (h : Settled c.acks total) (hok : c.processPdus wire d .prompt data = (c', .ok ())) :
    ∃ acks total', GfxAckOnly.walk wire total data = (total', .ok acks) ∧
      Settled c'.acks total' ∧ c'.acks.outbox = c.acks.outbox ++ acks := by
  induction hlength : data.length using Nat.strong_induction_on generalizing c total data with
  | h n ih =>
      unfold GfxClient.processPdus at hok
      unfold GfxAckOnly.walk
      split at hok
      · next hempty =>
          cases hok
          rw [if_pos hempty]
          exact ⟨[], total, rfl, h, (List.append_nil _).symm⟩
      next hempty =>
      rw [if_neg hempty]
      split at hok
      · cases hok
      next len hlen =>
      split at hok
      · cases hok
      next hbounds =>
      have hfilter : (pduLength data).filter
          (fun len => gfxHeaderSize ≤ len ∧ len ≤ data.length) = some len := by
        rw [hlen, Option.filter_some, if_pos]
        rw [decide_eq_true_eq]
        omega
      split at hok
      · cases hok
      next pdu hdecode =>
      obtain ⟨hsettled, houtbox⟩ := ack_present (d := d) h hdecode
      split at hok
      · cases hok
      next c₁ hpresent =>
      rw [hpresent] at hsettled houtbox
      have hheader : 0 < gfxHeaderSize := by decide
      have hshorter : (data.drop len).length < n := by
        rw [List.length_drop]
        omega
      obtain ⟨acks, total', hwalk, hend, hall⟩ := ih _ hshorter hsettled hok rfl
      refine ⟨(GfxAckOnly.ack wire total (data.take len)).2 ++ acks, total', ?_, hend, ?_⟩
      · split
        · next hnone => rw [hfilter] at hnone; cases hnone
        · next len' hsome =>
            rw [hfilter] at hsome
            obtain rfl := Option.some.inj hsome
            simp only [hwalk]
            rfl
      · rw [hall, houtbox, List.append_assoc]

/-- The client with nothing in flight and an empty outbox, beside the acknowledger. -/
structure Abreast (c : GfxChannel Zgfx Clear H264 Caps) (a : GfxAckOnly Zgfx) : Prop where
  zgfx : c.zgfx = a.zgfx
  settled : Settled c.client.acks a.framesDecoded
  outbox : c.client.acks.outbox = []

theorem abreast_new (h264 : H264) :
    Abreast (GfxChannel.new wire d h264) (GfxAckOnly.new wire) :=
  ⟨rfl, ⟨rfl, rfl, rfl⟩, rfl⟩

theorem Abreast.process {c : GfxChannel Zgfx Clear H264 Caps} {a : GfxAckOnly Zgfx} (h : Abreast c a)
    {payload : Bytes} {acks : List FrameAcknowledge}
    (hok : (c.process wire d .prompt payload).2 = [.ok acks]) :
    (a.process wire payload).2 = [.ok acks] ∧
      Abreast (c.process wire d .prompt payload).1 (a.process wire payload).1 := by
  unfold GfxChannel.process GfxChannel.processPayload at hok ⊢
  unfold GfxAckOnly.process GfxAckOnly.acksFor
  rw [← h.zgfx]
  cases hdecompress : wire.decompress c.zgfx payload with
  | mk zgfx result =>
      rw [hdecompress] at hok
      cases result with
      | error e => cases hok
      | ok data =>
          simp only at hok ⊢
          cases hpdus : c.client.processPdus wire d .prompt data with
          | mk client result =>
              rw [hpdus] at hok
              cases result with
              | error e => cases hok
              | ok u =>
                  obtain ⟨acks', total', hwalk, hsettled, houtbox⟩ := walk_processPdus h.settled hpdus
                  rw [h.outbox, List.nil_append] at houtbox
                  simp only [AckState.drain, houtbox] at hok ⊢
                  cases hok
                  rw [hwalk]
                  exact ⟨rfl, rfl, ⟨hsettled.inFlight, hsettled.hidden, hsettled.totalDecoded⟩, rfl⟩

end Payloads

/-- Whatever payloads a visible client accepts, with a presenter that presents each frame as soon as it
ends, the acknowledger accepts them and answers each with the same acknowledgements. -/
theorem same_acks {Zgfx Clear H264 Frame Caps : Type} {wire : Wire Zgfx}
    {d : Decoders Clear H264 Frame Caps} {h264 : H264} {payloads : List Bytes}
    {acks : List (List FrameAcknowledge)}
    (hok : (run (GfxChannel.process wire d .prompt) (.new wire d h264) payloads).2 = acks.map .ok) :
    (run (GfxAckOnly.process wire) (.new wire) payloads).2 = acks.map .ok := by
  have hrun : ∀ (payloads : List Bytes) (acks : List (List FrameAcknowledge))
      (c : GfxChannel Zgfx Clear H264 Caps) (a : GfxAckOnly Zgfx), Abreast c a →
      (run (GfxChannel.process wire d .prompt) c payloads).2 = acks.map .ok →
      (run (GfxAckOnly.process wire) a payloads).2 = acks.map .ok := by
    intro payloads
    induction payloads with
    | nil =>
        intro acks c a _ hacks
        have hnil : acks = [] := List.map_eq_nil_iff.mp hacks.symm
        rw [hnil]
        rfl
    | cons payload payloads ih =>
        intro acks c a h hacks
        rw [run_cons] at hacks ⊢
        have hone : ∃ result, (c.process wire d .prompt payload).2 = [result] := by
          unfold GfxChannel.process
          split <;> exact ⟨_, rfl⟩
        obtain ⟨result, hresult⟩ := hone
        rw [hresult, List.singleton_append] at hacks
        cases acks with
        | nil => cases hacks
        | cons first rest =>
            rw [List.map_cons, List.cons.injEq] at hacks
            obtain ⟨hsame, hnext⟩ := h.process (hresult.trans (by rw [hacks.1]))
            rw [hsame, List.singleton_append, List.map_cons, ih rest _ _ hnext hacks.2]
  exact hrun payloads acks _ _ (abreast_new h264) hok

/-! ### A small stream -/

/-- One uncompressed segment, and the PDUs of a frame. -/
def frameWire : Wire Unit where
  newZgfx := ()
  decompress _ payload :=
    match payload with
    | 0xE0 :: 0x04 :: data => ((), .ok data)
    | _ => ((), .error "InvalidSegmentedDataDescriptor")
  decodePdu data :=
    match data with
    | [0x0B, 0, 0, 0, 16, 0, 0, 0, _, _, _, _, _, _, _, _] => .ok .startFrame
    | [0x0C, 0, 0, 0, 12, 0, 0, 0, b₀, b₁, b₂, b₃] =>
      .ok (.endFrame (UInt32.ofNat (fromLeBytes b₀ b₁ b₂ b₃)))
    | _ => .error "unsupported"

def noDecoders : Decoders Unit Unit Unit Unit := .refusing (.error "refused")

/-- A frame in one payload, and the end of the next one in another. -/
def frames : List Bytes :=
  [[0xE0, 0x04, 0x0B, 0, 0, 0, 16, 0, 0, 0, 0, 0, 0, 0, 7, 0, 0, 0,
      0x0C, 0, 0, 0, 12, 0, 0, 0, 7, 0, 0, 0],
    [0xE0, 0x04, 0x0C, 0, 0, 0, 12, 0, 0, 0, 8, 0, 0, 0]]

theorem same_acks_frames :
    (run (GfxAckOnly.process frameWire) (.new frameWire) frames).2 =
      [[⟨.unavailable, 7, 1⟩], [⟨.unavailable, 8, 2⟩]].map .ok := by
  have hok : (run (GfxChannel.process frameWire noDecoders .prompt) (.new frameWire noDecoders ())
      frames).2 = [[⟨.unavailable, 7, 1⟩], [⟨.unavailable, 8, 2⟩]].map .ok := by
    decide +kernel
  exact same_acks hok

end Drift.Rdp
