import Drift.Gfx.Payload
import Drift.Gfx.Proof.Rejected

/-!
# What a payload is made of

The loop over a payload takes it apart into frames, each as long as its own header declares. A payload is
accepted when it is nothing but frames whose PDUs are accepted in turn, and otherwise stops in front of a
rest that it names the fault of (`parsed_processPdusTraced`).
-/

namespace Drift.Gfx

open Drift.Codec

section Frames

variable {Zgfx Clear H264 Frame Caps : Type} (wire : Wire Zgfx) (d : Decoders Clear H264 Frame Caps)
  (sink : Presenter Frame)

/-- The bytes are one PDU, of the length that its header declares. -/
structure Framed (frame : Bytes) (pdu : GfxPdu) : Prop where
  declared : pduLength frame = some frame.length
  header : gfxHeaderSize ≤ frame.length
  decoded : wire.decodePdu frame = .ok pdu

/-- The client after PDUs that are applied one after the other, up to the first that fails. -/
def GfxClient.presentAll (c : GfxClient Clear H264 Caps) :
    List GfxPdu → GfxClient.Outcome Clear H264 Frame Caps
  | [] => (c, [], .ok ())
  | pdu :: pdus =>
    match c.presentTraced d sink pdu with
    | (c, calls, .error e) => (c, calls, .error e)
    | (c, calls, .ok ()) =>
      let (c, rest, result) := c.presentAll pdus
      (c, calls ++ rest, result)

/-- What is wrong with the bytes that processing stops at: the client after the fault, and the error. -/
inductive Faulty (c : GfxClient Clear H264 Caps) (data : Bytes) :
    GfxClient Clear H264 Caps → GfxError → Prop where
  | truncated (hdata : data ≠ []) (hheader : pduLength data = none) :
      Faulty c data c (.decode ("truncated RDPGFX_HEADER (" ++ toString data.length ++ " bytes)"))
  | length (len : Nat) (hdata : data ≠ []) (hheader : pduLength data = some len)
      (hlen : len < gfxHeaderSize ∨ len > data.length) :
      Faulty c data c (.decode ("pduLength " ++ toString len ++ " outside " ++
        toString gfxHeaderSize ++ "..=" ++ toString data.length))
  | undecodable (len : Nat) (e : String) (hheader : pduLength data = some len)
      (hlen : gfxHeaderSize ≤ len ∧ len ≤ data.length)
      (hdecode : wire.decodePdu (data.take len) = .error e) : Faulty c data c (.decode e)
  | rejected (len : Nat) (pdu : GfxPdu) (c' : GfxClient Clear H264 Caps) (e : GfxError)
      (hheader : pduLength data = some len) (hlen : gfxHeaderSize ≤ len ∧ len ≤ data.length)
      (hframe : Framed wire (data.take len) pdu)
      (hpresent : c.presentTraced d sink pdu = (c', [], .error e)) : Faulty c data c' e

/-- The payload is frames, whose PDUs are accepted in turn, and what is left of it is nothing or faulty. -/
structure Parsed (c : GfxClient Clear H264 Caps) (data : Bytes) (frames : List Bytes)
    (pdus : List GfxPdu) (rest : Bytes) (o : GfxClient.Outcome Clear H264 Frame Caps) : Prop where
  bytes : data = frames.flatten ++ rest
  framed : List.Forall₂ (Framed wire) frames pdus
  accepted : (c.presentAll d sink pdus).2.2 = .ok ()
  calls : o.2.1 = (c.presentAll d sink pdus).2.1
  acks : o.1.acks = (c.presentAll d sink pdus).1.acks
  surfaces : o.1.state.surfaces = (c.presentAll d sink pdus).1.state.surfaces
  cache : o.1.state.cache = (c.presentAll d sink pdus).1.state.cache
  done : o.2.2 = .ok () → rest = [] ∧ o.1 = (c.presentAll d sink pdus).1
  failed : ∀ e, o.2.2 = .error e → Faulty wire d sink (c.presentAll d sink pdus).1 rest o.1 e

end Frames

/-! ### Headers -/

theorem pduLength_take {data : Bytes} {len : Nat} (hlen : gfxHeaderSize ≤ len) :
    pduLength (data.take len) = pduLength data := by
  have hget : ∀ i, i < gfxHeaderSize → (data.take len)[i]? = data[i]? := by
    intro i hi
    rw [List.getElem?_take, if_pos (Nat.lt_of_lt_of_le hi hlen)]
  unfold pduLength
  rw [hget 4 (by decide), hget 5 (by decide), hget 6 (by decide), hget 7 (by decide)]

theorem pduLength_append {a b : Bytes} {len : Nat} (h : pduLength a = some len) :
    pduLength (a ++ b) = some len := by
  have hlength : 7 < a.length := by
    by_contra hshort
    have hnone : a[7]? = none := List.getElem?_eq_none (Nat.le_of_not_lt hshort)
    simp [pduLength, hnone] at h
  have hget : ∀ i, i ≤ 7 → (a ++ b)[i]? = a[i]? := by
    intro i hi
    rw [List.getElem?_append_left (by omega)]
  rw [← h]
  unfold pduLength
  rw [hget 4 (by decide), hget 5 (by decide), hget 6 (by decide), hget 7 (by decide)]

section Loop

variable {Zgfx Clear H264 Frame Caps : Type} {wire : Wire Zgfx} {d : Decoders Clear H264 Frame Caps}
  {sink : Presenter Frame} {c : GfxClient Clear H264 Caps} {data : Bytes}

theorem unharmed_presentTraced {pdu : GfxPdu} {e : GfxError}
    (h : (c.presentTraced d sink pdu).2.2 = .error e) :
    Unharmed c (c.presentTraced d sink pdu).1 (c.presentTraced d sink pdu).2.1 := by
  have hspared := spares_handlePdu d c pdu e h
  refine ⟨hspared.calls, ?_, hspared.surfaces, hspared.cache⟩
  simp only [GfxClient.presentTraced]
  rw [hspared.calls, hspared.acks]
  rfl

/-- The first frame of a payload that is accepted, and what follows it. -/
structure Headed (wire : Wire Zgfx) (d : Decoders Clear H264 Frame Caps) (sink : Presenter Frame)
    (c : GfxClient Clear H264 Caps) (data : Bytes) (len : Nat) (pdu : GfxPdu)
    (c' : GfxClient Clear H264 Caps) (calls : List (SinkCall Frame)) : Prop where
  declared : pduLength data = some len
  header : gfxHeaderSize ≤ len
  fits : len ≤ data.length
  decoded : wire.decodePdu (data.take len) = .ok pdu
  presented : c.presentTraced d sink pdu = (c', calls, .ok ())

theorem Headed.framed {len : Nat} {pdu : GfxPdu} {c' : GfxClient Clear H264 Caps}
    {calls : List (SinkCall Frame)} (h : Headed wire d sink c data len pdu c' calls) :
    Framed wire (data.take len) pdu := by
  have hlength : (data.take len).length = len := List.length_take_of_le h.fits
  refine ⟨?_, ?_, h.decoded⟩
  · rw [pduLength_take h.header, h.declared, hlength]
  · rw [hlength]
    exact h.header

theorem Headed.processPdusTraced {len : Nat} {pdu : GfxPdu} {c' : GfxClient Clear H264 Caps}
    {calls : List (SinkCall Frame)} (h : Headed wire d sink c data len pdu c' calls) :
    c.processPdusTraced wire d sink data =
      ((c'.processPdusTraced wire d sink (data.drop len)).1,
        calls ++ (c'.processPdusTraced wire d sink (data.drop len)).2.1,
        (c'.processPdusTraced wire d sink (data.drop len)).2.2) := by
  have hdata : data.isEmpty = false := by
    cases data with
    | nil => cases h.declared
    | cons b bs => rfl
  have hlen : ¬(len < gfxHeaderSize ∨ len > data.length) := by
    have hheader := h.header
    have hfits := h.fits
    omega
  rw [GfxClient.processPdusTraced]
  simp only [hdata, Bool.false_eq_true, if_false, h.declared, dif_neg hlen, h.decoded, h.presented]

theorem processPdusTraced_cases (wire : Wire Zgfx) (d : Decoders Clear H264 Frame Caps)
    (sink : Presenter Frame) (c : GfxClient Clear H264 Caps) (data : Bytes) :
    (data = [] ∧ c.processPdusTraced wire d sink data = (c, [], .ok ())) ∨
      (∃ c' e, Faulty wire d sink c data c' e ∧
        c.processPdusTraced wire d sink data = (c', [], .error e)) ∨
      ∃ len pdu c' calls, Headed wire d sink c data len pdu c' calls := by
  cases hdata : data.isEmpty with
  | true =>
      left
      rw [GfxClient.processPdusTraced, hdata, if_pos rfl]
      exact ⟨List.isEmpty_iff.mp hdata, rfl⟩
  | false =>
      right
      have hne : data ≠ [] := fun hnil => by
        rw [hnil] at hdata
        cases hdata
      rw [GfxClient.processPdusTraced]
      simp only [hdata, Bool.false_eq_true, if_false]
      cases hheader : pduLength data with
      | none => exact .inl ⟨c, _, .truncated hne hheader, rfl⟩
      | some len =>
          by_cases hlen : len < gfxHeaderSize ∨ len > data.length
          · simp only [dif_pos hlen]
            exact .inl ⟨c, _, .length len hne hheader hlen, rfl⟩
          have hbounds : gfxHeaderSize ≤ len ∧ len ≤ data.length := by omega
          simp only [dif_neg hlen]
          cases hdecode : wire.decodePdu (data.take len) with
          | error e => exact .inl ⟨c, _, .undecodable len e hheader hbounds hdecode, rfl⟩
          | ok pdu =>
              rcases hpresent : c.presentTraced d sink pdu with ⟨c', calls, result⟩
              cases result with
              | error e =>
                  have hcalls : calls = [] := by
                    have hspared := unharmed_presentTraced (c := c) (d := d) (congrArg (·.2.2) hpresent)
                    rw [hpresent] at hspared
                    exact hspared.calls
                  subst hcalls
                  have hlength : (data.take len).length = len := List.length_take_of_le hbounds.2
                  have hframe : Framed wire (data.take len) pdu := by
                    refine ⟨?_, by rw [hlength]; exact hbounds.1, hdecode⟩
                    rw [pduLength_take hbounds.1, hheader, hlength]
                  refine .inl ⟨c', e, .rejected len pdu c' e hheader hbounds hframe hpresent, ?_⟩
                  simp only [hpresent]
              | ok u => exact .inr ⟨len, pdu, c', calls, hheader, hbounds.1, hbounds.2, hdecode, hpresent⟩

theorem Headed.append {len : Nat} {pdu : GfxPdu} {c' : GfxClient Clear H264 Caps}
    {calls : List (SinkCall Frame)} (h : Headed wire d sink c data len pdu c' calls) (more : Bytes) :
    Headed wire d sink c (data ++ more) len pdu c' calls where
  declared := pduLength_append h.declared
  header := h.header
  fits := by
    have hfits := h.fits
    rw [List.length_append]
    omega
  decoded := by
    rw [List.take_append_of_le_length h.fits]
    exact h.decoded
  presented := h.presented

theorem Headed.length_drop {len : Nat} {pdu : GfxPdu} {c' : GfxClient Clear H264 Caps}
    {calls : List (SinkCall Frame)} (h : Headed wire d sink c data len pdu c' calls) :
    (data.drop len).length < data.length := by
  have hfits := h.fits
  have hheader : 8 ≤ len := h.header
  rw [List.length_drop]
  omega

/-- Processing goes on behind bytes that it accepts. The induction is on the length of these bytes. -/
theorem processPdusTraced_append (c : GfxClient Clear H264 Caps) (a b : Bytes)
    (hok : (c.processPdusTraced wire d sink a).2.2 = .ok ()) :
    let first := c.processPdusTraced wire d sink a
    let second := first.1.processPdusTraced wire d sink b
    c.processPdusTraced wire d sink (a ++ b) = (second.1, first.2.1 ++ second.2.1, second.2.2) := by
  induction hn : a.length using Nat.strongRecOn generalizing a c with
  | _ n ih =>
      obtain ⟨rfl, hrun⟩ | ⟨c', e, -, hrun⟩ | ⟨len, pdu, c', calls, hhead⟩ :=
        processPdusTraced_cases wire d sink c a
      · simp only [hrun, List.nil_append]
      · rw [hrun] at hok
        cases hok
      have hrest : (c'.processPdusTraced wire d sink (a.drop len)).2.2 = .ok () := by
        rw [hhead.processPdusTraced] at hok
        exact hok
      have hlater := ih (a.drop len).length (hn ▸ hhead.length_drop) c' (a.drop len) hrest rfl
      simp only at hlater ⊢
      rw [(hhead.append b).processPdusTraced, List.drop_append_of_le_length hhead.fits, hlater,
        hhead.processPdusTraced, List.append_assoc]

theorem presentAll_cons {pdu : GfxPdu} {c' : GfxClient Clear H264 Caps} {calls : List (SinkCall Frame)}
    (h : c.presentTraced d sink pdu = (c', calls, .ok ())) (pdus : List GfxPdu) :
    c.presentAll d sink (pdu :: pdus) =
      ((c'.presentAll d sink pdus).1, calls ++ (c'.presentAll d sink pdus).2.1,
        (c'.presentAll d sink pdus).2.2) := by
  simp only [GfxClient.presentAll, h]

theorem Faulty.unharmed {c' : GfxClient Clear H264 Caps} {e : GfxError}
    (h : Faulty wire d sink c data c' e) : Unharmed c c' ([] : List (SinkCall Frame)) := by
  cases h with
  | truncated hdata hheader => exact ⟨rfl, rfl, rfl, rfl⟩
  | length len hdata hheader hlen => exact ⟨rfl, rfl, rfl, rfl⟩
  | undecodable len e hheader hlen hdecode => exact ⟨rfl, rfl, rfl, rfl⟩
  | rejected len pdu c' e hheader hlen hframe hpresent =>
      have hspared := unharmed_presentTraced (c := c) (d := d) (congrArg (·.2.2) hpresent)
      rw [hpresent] at hspared
      exact hspared

theorem Parsed.cons {len : Nat} {pdu : GfxPdu} {c' : GfxClient Clear H264 Caps}
    {calls : List (SinkCall Frame)} {frames : List Bytes} {pdus : List GfxPdu} {rest : Bytes}
    (hhead : Headed wire d sink c data len pdu c' calls)
    (h : Parsed wire d sink c' (data.drop len) frames pdus rest
      (c'.processPdusTraced wire d sink (data.drop len))) :
    Parsed wire d sink c data (data.take len :: frames) (pdu :: pdus) rest
      (c.processPdusTraced wire d sink data) := by
  have hall := presentAll_cons hhead.presented pdus
  have hrun := hhead.processPdusTraced
  refine ⟨?_, .cons hhead.framed h.framed, ?_, ?_, ?_, ?_, ?_, ?_, ?_⟩
  · rw [List.flatten_cons, List.append_assoc, ← h.bytes, List.take_append_drop]
  · rw [hall]
    exact h.accepted
  · rw [hall, hrun]
    exact congrArg (calls ++ ·) h.calls
  · rw [hall, hrun]
    exact h.acks
  · rw [hall, hrun]
    exact h.surfaces
  · rw [hall, hrun]
    exact h.cache
  · rw [hall, hrun]
    exact h.done
  · rw [hall, hrun]
    exact h.failed

theorem parsed_processPdusTraced (wire : Wire Zgfx) (d : Decoders Clear H264 Frame Caps)
    (sink : Presenter Frame) (c : GfxClient Clear H264 Caps) (data : Bytes) :
    ∃ frames pdus rest,
      Parsed wire d sink c data frames pdus rest (c.processPdusTraced wire d sink data) := by
  induction hn : data.length using Nat.strongRecOn generalizing data c with
  | _ n ih =>
      obtain ⟨rfl, hrun⟩ | ⟨c', e, hfault, hrun⟩ | ⟨len, pdu, c', calls, hhead⟩ :=
        processPdusTraced_cases wire d sink c data
      · refine ⟨[], [], [], ?_⟩
        rw [hrun]
        exact ⟨rfl, .nil, rfl, rfl, rfl, rfl, rfl, fun _ => ⟨rfl, rfl⟩, nofun⟩
      · have hunharmed := hfault.unharmed
        refine ⟨[], [], data, ?_⟩
        rw [hrun]
        refine ⟨rfl, .nil, rfl, rfl, hunharmed.acks, hunharmed.surfaces, hunharmed.cache, nofun, ?_⟩
        intro e' he'
        obtain rfl := Except.error.inj he'
        exact hfault
      · obtain ⟨frames, pdus, rest, hparsed⟩ :=
          ih (data.drop len).length (hn ▸ hhead.length_drop) c' (data.drop len) rfl
        exact ⟨data.take len :: frames, pdu :: pdus, rest, hparsed.cons hhead⟩

theorem processPdus_eq_traced (wire : Wire Zgfx) (d : Decoders Clear H264 Frame Caps)
    (sink : Presenter Frame) (c : GfxClient Clear H264 Caps) (data : Bytes) :
    c.processPdus wire d sink data =
      ((c.processPdusTraced wire d sink data).1, (c.processPdusTraced wire d sink data).2.2) := by
  induction hn : data.length using Nat.strongRecOn generalizing data c with
  | _ n ih =>
      rw [GfxClient.processPdus, GfxClient.processPdusTraced]
      by_cases hdata : data.isEmpty = true
      · simp only [if_pos hdata]
      simp only [if_neg hdata]
      cases pduLength data with
      | none => rfl
      | some len =>
          by_cases hlen : len < gfxHeaderSize ∨ len > data.length
          · simp only [dif_pos hlen]
          simp only [dif_neg hlen]
          cases wire.decodePdu (data.take len) with
          | error e => rfl
          | ok pdu =>
              have hpresent : c.present d sink pdu =
                  ((c.presentTraced d sink pdu).1, (c.presentTraced d sink pdu).2.2) := rfl
              simp only [hpresent]
              rcases c.presentTraced d sink pdu with ⟨c', calls, result⟩
              cases result with
              | error e => rfl
              | ok u =>
                  have hshorter : (data.drop len).length < n := by
                    have hheader : 0 < gfxHeaderSize := by decide
                    rw [List.length_drop]
                    omega
                  exact ih _ hshorter c' (data.drop len) rfl

end Loop

/-- **Payloads.** Behind bytes that it accepts, a client goes on as if they had come on their own, and all
bytes are frames, each decoded from what its header declares, and a rest: nothing on success, and on an error
what the error is about, with the effects of exactly the frames in front of it. -/
theorem processPdus_law {Zgfx Clear H264 Frame Caps : Type} (wire : Wire Zgfx)
    (d : Decoders Clear H264 Frame Caps) (sink : Presenter Frame) (c : GfxClient Clear H264 Caps) :
    (∀ a b, (c.processPdusTraced wire d sink a).2.2 = .ok () →
      let first := c.processPdusTraced wire d sink a
      let second := first.1.processPdusTraced wire d sink b
      c.processPdusTraced wire d sink (a ++ b) =
        (second.1, first.2.1 ++ second.2.1, second.2.2)) ∧
      (∀ data, ∃ frames pdus rest,
        Parsed wire d sink c data frames pdus rest (c.processPdusTraced wire d sink data)) ∧
      ∀ data, c.processPdus wire d sink data =
        ((c.processPdusTraced wire d sink data).1, (c.processPdusTraced wire d sink data).2.2) :=
  ⟨fun a b hok => processPdusTraced_append c a b hok, parsed_processPdusTraced wire d sink c,
    processPdus_eq_traced wire d sink c⟩

end Drift.Gfx
