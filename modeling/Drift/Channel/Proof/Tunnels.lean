import Drift.Channel.Proof.Messages

/-!
# A channel keeps its tunnel

Soft-Sync selects the tunnels once. From then on a channel has its data from its tunnel alone, until the session closes
it: also when the server closes the channel and opens it again.
-/

namespace Drift.Channel

open Pdu Table

section Routes

variable {P L : Type}

/-- Tunnels are selected once, and each channel has one. -/
structure TunnelsKept (c : DrdynvcClient P L) : Prop where
  distinct : Distinct Prod.fst c.tunnelChannels
  complete : c.tunnelChannels ≠ [] → c.softSyncComplete = true

def dataFor (id : DynamicChannelId) (bytes : Bytes) : Bool :=
  match DrdynvcServerPdu.decode bytes with
  | .ok (.data data, _) => data.channelId = id
  | _ => false

/-- Data for a channel that do not come through its tunnel. -/
def ClientInput.wrongWay (id : DynamicChannelId) (tunnelType : UInt32) : ClientInput P L → Bool
  | payload bytes => dataFor id bytes
  | tunnel tunnelType' bytes => tunnelType' ≠ tunnelType && dataFor id bytes
  | _ => false

theorem decode_of_dataFor {id : DynamicChannelId} {bytes : Bytes} (h : dataFor id bytes = true) :
    ∃ data rest, DrdynvcServerPdu.decode bytes = .ok (.data data, rest) ∧ data.channelId = id := by
  unfold dataFor at h
  rcases hdecode : DrdynvcServerPdu.decode bytes with e | ⟨pdu, rest⟩
  · rw [hdecode] at h
    cases h
  rw [hdecode] at h
  cases pdu with
  | data data => exact ⟨data, rest, rfl, of_decide_eq_true h⟩
  | capabilities request => cases h
  | create request => cases h
  | close close => cases h
  | softSyncRequest request => cases h

theorem TunnelsKept.complete_of_route {c : DrdynvcClient P L} (h : TunnelsKept c) {id : DynamicChannelId}
    {tunnelType : UInt32} (hroute : c.tunnelForChannel id = some tunnelType) : c.softSyncComplete = true := by
  apply h.complete
  intro hnil
  unfold DrdynvcClient.tunnelForChannel at hroute
  rw [hnil] at hroute
  cases hroute

/-- The tunnels are kept, and a channel that has one keeps it. -/
structure RoutesKept (id : DynamicChannelId) (c c' : DrdynvcClient P L) : Prop where
  kept : TunnelsKept c'
  route : ∀ tunnelType, c.tunnelForChannel id = some tunnelType → c'.tunnelForChannel id = some tunnelType

variable {c : DrdynvcClient P L} (h : TunnelsKept c) (id : DynamicChannelId)

include h

theorem Touches.routes {id' : DynamicChannelId} {c' : DrdynvcClient P L} (htouches : Touches id' c c') :
    RoutesKept id c c' := by
  refine ⟨⟨by rw [htouches.tunnels]; exact h.distinct, ?_⟩, ?_⟩
  · rw [htouches.tunnels, htouches.complete]
    exact h.complete
  · intro tunnelType hroute
    unfold DrdynvcClient.tunnelForChannel at hroute ⊢
    rw [htouches.tunnels]
    exact hroute

theorem routes_processSoftSyncRequest (request : SoftSyncRequestPdu) :
    RoutesKept id c (c.processSoftSyncRequest request).1 := by
  unfold DrdynvcClient.processSoftSyncRequest
  by_cases hcomplete : c.softSyncComplete
  · rw [if_pos hcomplete]
    exact ⟨h, fun _ hroute => hroute⟩
  · rw [if_neg hcomplete]
    cases hselect : c.selectTunnels [] [] request.channelLists with
    | error e => exact ⟨h, fun _ hroute => hroute⟩
    | ok selected =>
        refine ⟨⟨(selectTunnels_keeps hselect List.nodup_nil).1, fun _ => rfl⟩, ?_⟩
        intro tunnelType hroute
        exact absurd (h.complete_of_route hroute) hcomplete

variable [DvcProcessor P]

theorem kept_closeChannel (id' : DynamicChannelId) :
    TunnelsKept (c.closeChannel id').1 ∧ (id' ≠ id → RoutesKept id c (c.closeChannel id').1) := by
  unfold DrdynvcClient.closeChannel
  rcases c.dynamicChannels.removeByChannelId_spec id' with ⟨-, heq⟩ | ⟨channel, typeIds, -, heq⟩
  · rw [heq]
    exact ⟨h, fun _ => ⟨h, fun _ hroute => hroute⟩⟩
  · have hcomplete : erase Prod.fst c.tunnelChannels id' ≠ [] → c.softSyncComplete = true := by
      intro herased
      apply h.complete
      intro hnil
      rw [hnil] at herased
      exact herased rfl
    have hkept : TunnelsKept { c with tunnelChannels := erase Prod.fst c.tunnelChannels id' } :=
      ⟨h.distinct.erase id', hcomplete⟩
    rw [heq]
    refine ⟨⟨hkept.distinct, hkept.complete⟩, fun hid => ⟨⟨hkept.distinct, hkept.complete⟩, ?_⟩⟩
    intro tunnelType hroute
    have hsame : lookup Prod.fst (erase Prod.fst c.tunnelChannels id') id = lookup Prod.fst c.tunnelChannels id := by
      rw [lookup_erase h.distinct, if_neg hid]
    exact (congrArg (Option.map Prod.snd) hsame).trans hroute

variable [DvcChannelListener P L] {life : Life P} (hkeeps : c.dynamicChannels.Keeps life)

include hkeeps

theorem routes_process (hgives : life.Gives (L := L)) (bytes : Bytes) : RoutesKept id c (c.process bytes).1 := by
  unfold DrdynvcClient.process
  rcases DrdynvcServerPdu.decode bytes with e | ⟨pdu, rest⟩
  · exact ⟨h, fun _ hroute => hroute⟩
  cases pdu with
  | capabilities request => exact ⟨⟨h.distinct, h.complete⟩, fun _ hroute => hroute⟩
  | create request => exact (DrdynvcClient.touches_processCreate hkeeps hgives request).routes h id
  | close pdu => exact (DrdynvcClient.touches_processClose hkeeps pdu.channelId).routes h id
  | data data =>
      by_cases hroute : (c.tunnelForChannel data.channelId).isSome
      · simp only [if_pos hroute]
        exact ⟨h, fun _ hroute => hroute⟩
      · simp only [if_neg hroute]
        exact (DrdynvcClient.touches_processData data).routes h id
  | softSyncRequest request => exact routes_processSoftSyncRequest h id request

theorem routes_step (hgives : life.Gives (L := L)) {input : ClientInput P L} (hopen : input ≠ .close id) :
    RoutesKept id c (c.step input).1 := by
  cases input with
  | attach channel => exact ⟨⟨h.distinct, h.complete⟩, fun _ hroute => hroute⟩
  | attachListener listener => exact ⟨⟨h.distinct, h.complete⟩, fun _ hroute => hroute⟩
  | attachEstablished id' channel =>
      exact (DrdynvcClient.touches_attachEstablished id' channel).1.routes h id
  | payload bytes => exact routes_process h id hkeeps hgives bytes
  | tunnel tunnelType bytes =>
      rcases DrdynvcClient.processTunnel_cases (c := c) tunnelType bytes with heq | ⟨data, rest, -, -, heq⟩
      · have hsame : (c.step (.tunnel tunnelType bytes)).1 = c := heq
        rw [hsame]
        exact ⟨h, fun _ hroute => hroute⟩
      · have hsame : (c.step (.tunnel tunnelType bytes)).1 = (c.processData data).1 :=
          congrArg Prod.fst heq
        rw [hsame]
        exact (DrdynvcClient.touches_processData data).routes h id
  | close id' =>
      apply (kept_closeChannel h id id').2
      intro hid
      exact hopen (congrArg ClientInput.close hid)
  | enableTunnel tunnelType => exact ⟨⟨h.distinct, h.complete⟩, fun _ hroute => hroute⟩
  | disableTunnel tunnelType => exact ⟨⟨h.distinct, h.complete⟩, fun _ hroute => hroute⟩

omit hkeeps in
theorem kept_tunnels (hgives : (anyLife : Life P).Gives (L := L)) (hany : c.dynamicChannels.Keeps anyLife)
    (inputs : List (ClientInput P L)) : TunnelsKept (c.run inputs).1 := by
  induction inputs generalizing c with
  | nil => exact h
  | cons input inputs ih =>
      have hkept : TunnelsKept (c.step input).1 := by
        by_cases hclose : ∃ id', input = .close id'
        · obtain ⟨id', rfl⟩ := hclose
          exact (kept_closeChannel h id' id').1
        · exact (routes_step h 0 hany hgives fun hzero => hclose ⟨0, hzero⟩).kept
      exact ih hkept (DrdynvcClient.kept_step hany hgives (unused_any input)).1

omit h hkeeps in
/-- Data that come the wrong way change nothing. -/
theorem step_wrongWay {tunnelType : UInt32} (hroute : c.tunnelForChannel id = some tunnelType)
    {input : ClientInput P L} (hwrong : input.wrongWay id tunnelType = true) : c.step input = (c, []) := by
  cases input with
  | payload bytes =>
      obtain ⟨data, rest, hdecode, hid⟩ := decode_of_dataFor hwrong
      have hrefused : c.process bytes =
          (c, [], .error (.other "received TCP data for a channel selected by Soft-Sync")) := by
        have hsome : (c.tunnelForChannel data.channelId).isSome = true := by
          rw [hid, hroute]
          rfl
        unfold DrdynvcClient.process
        rw [hdecode]
        exact if_pos hsome
      exact congrArg (fun outcome => (outcome.1, outcome.2.1)) hrefused
  | tunnel tunnelType' bytes =>
      obtain ⟨hother, hdata⟩ := (Bool.and_eq_true _ _).mp hwrong
      obtain ⟨data, rest, hdecode, hid⟩ := decode_of_dataFor hdata
      have hrefused : c.processTunnel tunnelType' bytes =
          (c, [], .error (.other "received tunneled data on a tunnel not selected for the dynamic channel")) := by
        rw [← hid] at hroute
        unfold DrdynvcClient.processTunnel
        rw [hdecode]
        simp only [hroute]
        exact if_pos (of_decide_eq_true hother)
      exact congrArg (fun outcome => (outcome.1, outcome.2.1)) hrefused
  | attach channel => cases hwrong
  | attachListener listener => cases hwrong
  | attachEstablished id' channel => cases hwrong
  | close id' => cases hwrong
  | enableTunnel tunnelType => cases hwrong
  | disableTunnel tunnelType => cases hwrong

omit h hkeeps in
theorem routes_run (hgives : (anyLife : Life P).Gives (L := L)) (h : TunnelsKept c)
    (hany : c.dynamicChannels.Keeps anyLife) {tunnelType : UInt32}
    (hroute : c.tunnelForChannel id = some tunnelType) {inputs : List (ClientInput P L)}
    (hopen : ∀ input ∈ inputs, input ≠ .close id) :
    (c.run inputs).1.tunnelForChannel id = some tunnelType ∧
      c.run inputs = c.run (inputs.filter fun input => !input.wrongWay id tunnelType) := by
  induction inputs generalizing c with
  | nil => exact ⟨hroute, rfl⟩
  | cons input inputs ih =>
      have hrest : ∀ i ∈ inputs, i ≠ .close id := fun i hi => hopen i (List.mem_cons_of_mem input hi)
      have hstep := routes_step h id hany hgives (hopen input List.mem_cons_self)
      obtain ⟨hafter, hsame⟩ := ih hstep.kept (DrdynvcClient.kept_step hany hgives (unused_any input)).1
        (hstep.route tunnelType hroute) hrest
      refine ⟨hafter, ?_⟩
      by_cases hwrong : input.wrongWay id tunnelType = true
      · have hrefused := step_wrongWay id hroute hwrong
        rw [hrefused] at hsame
        rw [List.filter_cons_of_neg (by simp [hwrong]), DrdynvcClient.run_cons, hrefused]
        exact hsame
      · rw [List.filter_cons_of_pos (by simp [hwrong]), DrdynvcClient.run_cons, DrdynvcClient.run_cons, hsame]

end Routes

theorem one_way_until_closed {P L : Type} [DvcProcessor P] [DvcChannelListener P L]
    (before : List (ClientInput P L)) {c : DrdynvcClient P L} (hreached : c = (DrdynvcClient.new.run before).1)
    {id : DynamicChannelId} {tunnelType : UInt32} (hroute : c.tunnelForChannel id = some tunnelType)
    {inputs : List (ClientInput P L)} (hopen : ∀ input ∈ inputs, input ≠ .close id) :
    (c.run inputs).1.tunnelForChannel id = some tunnelType ∧
      c.run inputs = c.run (inputs.filter fun input => !input.wrongWay id tunnelType) := by
  have hgives : (anyLife : Life P).Gives (L := L) := fun _ _ _ _ => trivial
  have hkept : TunnelsKept (DrdynvcClient.new.run before : DrdynvcClient P L × List P).1 :=
    kept_tunnels (c := .new) ⟨List.nodup_nil, fun hnil => absurd rfl hnil⟩ hgives DynamicChannelSet.keeps_new before
  have hkeeps : (DrdynvcClient.new.run before : DrdynvcClient P L × List P).1.dynamicChannels.Keeps anyLife :=
    (DrdynvcClient.kept_run DynamicChannelSet.keeps_new hgives fun input _ => unused_any input).1
  rw [← hreached] at hkept hkeeps
  exact routes_run id hgives hkept hkeeps hroute hopen

theorem one_way_until_closed_test :
    ((DrdynvcClient.new : DrdynvcClient (Recorded TestDvc) Empty).run
        [.attachEstablished 8 ⟨⟨⟩, []⟩, .enableTunnel 1,
          .payload [0x80, 0, 18, 0, 0, 0, 3, 0, 1, 0, 1, 0, 0, 0, 1, 0, 8, 0, 0, 0]]).1.run
        [.payload [0x30, 8, 1], .tunnel 1 [0x30, 8, 2], .payload [0x40, 8], .tunnel 3 [0x30, 8, 4]] =
      ((DrdynvcClient.new : DrdynvcClient (Recorded TestDvc) Empty).run
        [.attachEstablished 8 ⟨⟨⟩, []⟩, .enableTunnel 1,
          .payload [0x80, 0, 18, 0, 0, 0, 3, 0, 1, 0, 1, 0, 0, 0, 1, 0, 8, 0, 0, 0]]).1.run
        [.tunnel 1 [0x30, 8, 2], .payload [0x40, 8]] := by
  have hopen : ∀ input ∈ ([.payload [0x30, 8, 1], .tunnel 1 [0x30, 8, 2], .payload [0x40, 8],
      .tunnel 3 [0x30, 8, 4]] : List (ClientInput (Recorded TestDvc) Empty)), input ≠ .close 8 := by
    intro input hinput heq
    rw [heq] at hinput
    simp at hinput
  have hroute : ((DrdynvcClient.new : DrdynvcClient (Recorded TestDvc) Empty).run
      [.attachEstablished 8 ⟨⟨⟩, []⟩, .enableTunnel 1,
        .payload [0x80, 0, 18, 0, 0, 0, 3, 0, 1, 0, 1, 0, 0, 0, 1, 0, 8, 0, 0, 0]]).1.tunnelForChannel 8 =
      some 1 := rfl
  exact (one_way_until_closed _ rfl hroute hopen).2

end Drift.Channel
