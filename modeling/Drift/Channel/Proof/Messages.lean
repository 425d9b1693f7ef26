import Drift.Channel.Proof.Client
import Drift.Channel.Proof.Pdu
import Drift.Lib.Lockstep

/-!
# Messages reach the processor of their channel

The PDUs of a channel's messages put the messages together again, whatever else the server sends between them and
whatever the session does meanwhile: to other channels, or to this one in a way that is refused.
-/

namespace Drift.Channel

open Pdu Table

/-! ### What leaves a channel alone -/

/-- The PDU opens, closes, fills or moves the channel. -/
def DrdynvcServerPdu.concerns (id : DynamicChannelId) : DrdynvcServerPdu → Bool
  | capabilities _ => false
  | create request => request.channelId = id
  | close pdu => pdu.channelId = id
  | data pdu => pdu.channelId = id
  | softSyncRequest request => request.channelLists.any fun list => id ∈ list.channelIds

def payloadConcerns (id : DynamicChannelId) (bytes : Bytes) : Bool :=
  match DrdynvcServerPdu.decode bytes with
  | .ok (pdu, _) => pdu.concerns id
  | .error _ => false

/-- The input may change the channel. -/
def ClientInput.concerns {P L : Type} (id : DynamicChannelId) : ClientInput P L → Bool
  | payload bytes => payloadConcerns id bytes
  | close id' => id' = id
  | _ => false

section Frame

variable {P L : Type}

namespace DynamicChannelSet

theorem getByChannelId_erase {s : DynamicChannelSet P L} (h : Distinct Prod.fst s.activeChannels)
    (id id' : DynamicChannelId) (typeIds : List (TypeId × DynamicChannelId)) :
    { s with activeChannels := erase Prod.fst s.activeChannels id, typeIdToChannelId := typeIds }.getByChannelId
      id' = if id = id' then none else s.getByChannelId id' := by
  unfold getByChannelId
  rw [lookup_erase h]
  by_cases hid : id = id'
  · rw [if_pos hid, if_pos hid]
    rfl
  · rw [if_neg hid, if_neg hid]

end DynamicChannelSet

/-- The other channels are as they were, and so are the tunnels. -/
structure Touches (id' : DynamicChannelId) (c c' : DrdynvcClient P L) : Prop where
  channel : ∀ id, id' ≠ id → c'.dynamicChannels.getByChannelId id = c.dynamicChannels.getByChannelId id
  tunnels : c'.tunnelChannels = c.tunnelChannels
  complete : c'.softSyncComplete = c.softSyncComplete

/-- The channel of the number is as it was, and it was not moved to a tunnel. -/
structure Apart (id : DynamicChannelId) (c c' : DrdynvcClient P L) : Prop where
  channel : c'.dynamicChannels.getByChannelId id = c.dynamicChannels.getByChannelId id
  route : c.tunnelForChannel id = none → c'.tunnelForChannel id = none

theorem Apart.refl (id : DynamicChannelId) (c : DrdynvcClient P L) : Apart id c c := ⟨rfl, fun hroute => hroute⟩

theorem Touches.refl (id' : DynamicChannelId) (c : DrdynvcClient P L) : Touches id' c c :=
  ⟨fun _ _ => rfl, rfl, rfl⟩

theorem Touches.apart {id' id : DynamicChannelId} {c c' : DrdynvcClient P L} (h : Touches id' c c') (hid : id' ≠ id) :
    Apart id c c' where
  channel := h.channel id hid
  route hroute := (congrArg (fun rows => (lookup Prod.fst rows id).map Prod.snd) h.tunnels).trans hroute

/-! ### Tunnels -/

theorem put_tunnels (tunnelType : UInt32) (ids : List DynamicChannelId) {rows : List (DynamicChannelId × UInt32)}
    (h : Distinct Prod.fst rows) :
    Distinct Prod.fst (ids.foldl (fun rows id => put Prod.fst (id, tunnelType) rows) rows) ∧
      ∀ id, id ∉ ids → lookup Prod.fst (ids.foldl (fun rows id => put Prod.fst (id, tunnelType) rows) rows) id =
        lookup Prod.fst rows id := by
  induction ids generalizing rows with
  | nil => exact ⟨h, fun _ _ => rfl⟩
  | cons first ids ih =>
      obtain ⟨hdistinct, hlookup⟩ := ih (h.put (first, tunnelType))
      refine ⟨hdistinct, ?_⟩
      intro id hid
      have hfirst : first ≠ id := by
        intro heq
        rw [heq] at hid
        exact hid List.mem_cons_self
      refine (hlookup id fun hmem => hid (List.mem_cons_of_mem first hmem)).trans ?_
      rw [lookup_put, if_neg hfirst]

/-- A channel that no list names gets no tunnel. -/
theorem selectTunnels_keeps {c : DrdynvcClient P L} {rows : List (DynamicChannelId × UInt32)}
    {tunnels : List UInt32} {lists : List SoftSyncChannelList}
    {selected : List (DynamicChannelId × UInt32) × List UInt32}
    (h : c.selectTunnels rows tunnels lists = .ok selected) (hdistinct : Distinct Prod.fst rows) :
    Distinct Prod.fst selected.1 ∧ ∀ id, (∀ list ∈ lists, id ∉ list.channelIds) →
      lookup Prod.fst selected.1 id = lookup Prod.fst rows id := by
  induction lists generalizing rows tunnels with
  | nil =>
      rw [← Except.ok.inj h]
      exact ⟨hdistinct, fun _ _ => rfl⟩
  | cons list lists ih =>
      unfold DrdynvcClient.selectTunnels at h
      by_cases havailable : list.tunnelType ∉ c.availableTunnels
      · rw [if_pos havailable] at h
        cases h
      rw [if_neg havailable] at h
      by_cases hall : (list.channelIds.all fun id => (c.dynamicChannels.getByChannelId id).isSome)
      · rw [if_pos hall] at h
        obtain ⟨hput, hlookup⟩ := put_tunnels list.tunnelType list.channelIds hdistinct
        obtain ⟨hselected, hrest⟩ := ih h hput
        refine ⟨hselected, ?_⟩
        intro id hid
        calc
          lookup Prod.fst selected.1 id =
              lookup Prod.fst (list.channelIds.foldl
                (fun rows id => put Prod.fst (id, list.tunnelType) rows) rows) id :=
            hrest id fun l hmem => hid l (List.mem_cons_of_mem list hmem)
          _ = lookup Prod.fst rows id := hlookup id (hid list List.mem_cons_self)
      · rw [if_neg hall] at h
        obtain ⟨hselected, hrest⟩ := ih h hdistinct
        exact ⟨hselected, fun id hid => hrest id fun l hmem => hid l (List.mem_cons_of_mem list hmem)⟩

/-- A request that does not name the channel moves it nowhere. -/
theorem apart_processSoftSyncRequest {c : DrdynvcClient P L} {id : DynamicChannelId} {request : SoftSyncRequestPdu}
    (hid : ∀ list ∈ request.channelLists, id ∉ list.channelIds) :
    Apart id c (c.processSoftSyncRequest request).1 := by
  unfold DrdynvcClient.processSoftSyncRequest
  by_cases hcomplete : c.softSyncComplete
  · rw [if_pos hcomplete]
    exact .refl id c
  · rw [if_neg hcomplete]
    cases hselect : c.selectTunnels [] [] request.channelLists with
    | error e => exact .refl id c
    | ok selected =>
        refine ⟨rfl, fun _ => ?_⟩
        have hnone := (selectTunnels_keeps hselect List.nodup_nil).2 id hid
        exact congrArg (Option.map Prod.snd) hnone

/-! ### One input -/

variable [DvcProcessor P] {c : DrdynvcClient P L} {id id' : DynamicChannelId}

namespace DrdynvcClient

theorem touches_processData (data : DrdynvcDataPdu) : Touches data.channelId c (c.processData data).1 := by
  unfold processData
  cases hchannel : c.dynamicChannels.getByChannelId data.channelId with
  | none => exact .refl data.channelId c
  | some channel =>
      have hset : ∀ id, data.channelId ≠ id →
          (c.dynamicChannels.setChannel data.channelId (channel.process data).1).getByChannelId id =
            c.dynamicChannels.getByChannelId id := by
        intro id hid
        rw [DynamicChannelSet.getByChannelId_setChannel, if_neg hid]
      cases hresult : (channel.process data).2 with
      | error e =>
          simp only [hresult]
          exact ⟨hset, rfl, rfl⟩
      | ok messages =>
          simp only [hresult]
          cases encodeDvcMessages data.channelId messages with
          | error e => exact ⟨hset, rfl, rfl⟩
          | ok pdus => exact ⟨hset, rfl, rfl⟩

theorem touches_processClose {life : Life P} (h : c.dynamicChannels.Keeps life) (id' : DynamicChannelId) :
    Touches id' c (c.processClose id').1 := by
  unfold processClose
  rcases c.dynamicChannels.removeByChannelId_spec id' with ⟨-, heq⟩ | ⟨channel, typeIds, -, heq⟩
  · rw [heq]
    exact .refl id' c
  · rw [heq]
    refine ⟨?_, rfl, rfl⟩
    intro id hid
    exact (DynamicChannelSet.getByChannelId_erase h.distinct id' id typeIds).trans (if_neg hid)

theorem touches_attachEstablished (id' : DynamicChannelId) (processor : P) :
    Touches id' c (c.attachEstablishedDynamicChannel id' processor).1 ∧
      ((c.dynamicChannels.getByChannelId id').isSome →
        (c.attachEstablishedDynamicChannel id' processor).1 = c) := by
  unfold attachEstablishedDynamicChannel DynamicChannelSet.attachEstablishedChannel
  by_cases htaken : (c.dynamicChannels.getByChannelId id').isSome
  · simp only [if_pos htaken]
    exact ⟨.refl id' c, fun _ => trivial⟩
  · simp only [if_neg htaken]
    refine ⟨?_, fun hsome => absurd hsome htaken⟩
    rcases hstart : (DynamicVirtualChannel.fromBoxed processor).start id' with ⟨channel, e | messages⟩
    · exact .refl id' c
    · refine ⟨?_, rfl, rfl⟩
      intro id hid
      exact (DynamicChannelSet.getByChannelId_setChannel c.dynamicChannels id' channel id).trans (if_neg hid)

theorem apart_closeChannel {life : Life P} (h : c.dynamicChannels.Keeps life) (hid : id' ≠ id) :
    Apart id c (c.closeChannel id').1 := by
  unfold closeChannel
  rcases c.dynamicChannels.removeByChannelId_spec id' with ⟨-, heq⟩ | ⟨channel, typeIds, -, heq⟩
  · rw [heq]
    exact .refl id c
  · rw [heq]
    refine ⟨(DynamicChannelSet.getByChannelId_erase h.distinct id' id typeIds).trans (if_neg hid), ?_⟩
    intro hroute
    have hnone : lookup Prod.fst c.tunnelChannels id = none := Option.map_eq_none_iff.mp hroute
    have herased : lookup Prod.fst (erase Prod.fst c.tunnelChannels id') id = none := by
      rw [lookup_eq_none] at hnone ⊢
      exact fun hmem => hnone ((List.Sublist.map Prod.fst List.eraseP_sublist).subset hmem)
    exact congrArg (Option.map Prod.snd) herased

/-- Data comes through a tunnel to the channels of the tunnel only. -/
theorem processTunnel_cases (tunnelType : UInt32) (bytes : Bytes) :
    (c.processTunnel tunnelType bytes).1 = c ∨
      ∃ data rest, DrdynvcServerPdu.decode bytes = .ok (.data data, rest) ∧
        c.tunnelForChannel data.channelId = some tunnelType ∧
        c.processTunnel tunnelType bytes = c.processData data := by
  unfold processTunnel
  rcases hdecode : DrdynvcServerPdu.decode bytes with e | ⟨pdu, rest⟩
  · exact .inl rfl
  cases pdu with
  | data data =>
      rcases hselected : c.tunnelForChannel data.channelId with _ | selected
      · simp only [hselected]
        exact .inl trivial
      · simp only [hselected]
        by_cases htunnel : tunnelType ≠ selected
        · rw [if_pos htunnel]
          exact .inl rfl
        · rw [if_neg htunnel, not_not.mp htunnel]
          exact .inr ⟨data, rest, rfl, hselected, rfl⟩
  | capabilities request => exact .inl rfl
  | create request => exact .inl rfl
  | close close => exact .inl rfl
  | softSyncRequest request => exact .inl rfl

theorem apart_processTunnel (hroute : c.tunnelForChannel id = none) (tunnelType : UInt32) (bytes : Bytes) :
    Apart id c (c.processTunnel tunnelType bytes).1 := by
  rcases processTunnel_cases (c := c) tunnelType bytes with heq | ⟨data, rest, -, hselected, heq⟩
  · rw [heq]
    exact .refl id c
  · rw [heq]
    apply (touches_processData data).apart
    intro hid
    rw [hid, hroute] at hselected
    cases hselected

variable [DvcChannelListener P L]

theorem touches_openChannel {life : Life P} (h : c.dynamicChannels.Keeps life) (hgives : life.Gives (L := L))
    (name : String) (id' : DynamicChannelId) : Touches id' c (c.openChannel name id').1 := by
  have hsame : ∀ s' : DynamicChannelSet P L, s'.activeChannels = c.dynamicChannels.activeChannels → ∀ id,
      s'.getByChannelId id = c.dynamicChannels.getByChannelId id := by
    intro s' hactive id
    exact congrArg (fun rows => (lookup Prod.fst rows id).map Prod.snd) hactive
  unfold openChannel
  rcases h.tryCreate hgives name id' with ⟨s', -, hactive, heq⟩ | ⟨s', dropped, processor, hs', hactive, -, -, heq⟩
  · rw [heq]
    exact ⟨fun id _ => hsame s' hactive id, rfl, rfl⟩
  · rw [heq]
    rcases hstart : (DynamicVirtualChannel.fromBoxed processor).start id' with ⟨channel, e | messages⟩
    · obtain ⟨typeIds, hremove⟩ := DynamicChannelSet.removeByChannelId_setChannel s' id' channel
      simp only [hstart, DynamicChannelSet.setChannel_setChannel, hremove]
      refine ⟨?_, rfl, rfl⟩
      intro id hid
      rw [← hsame s' hactive]
      exact (DynamicChannelSet.getByChannelId_erase hs'.distinct id' id typeIds).trans (if_neg hid)
    · simp only [hstart, DynamicChannelSet.setChannel_setChannel]
      refine ⟨?_, rfl, rfl⟩
      intro id hid
      rw [← hsame s' hactive]
      exact (DynamicChannelSet.getByChannelId_setChannel s' id' channel id).trans (if_neg hid)

theorem touches_processCreate {life : Life P} (h : c.dynamicChannels.Keeps life) (hgives : life.Gives (L := L))
    (request : CreateRequestPdu) : Touches request.channelId c (c.processCreate request).1 := by
  have hanswer : ∀ c' : DrdynvcClient P L, Touches request.channelId c c' →
      c'.dynamicChannels = c.dynamicChannels → ∀ responses,
        Touches request.channelId c (c'.answerCreate responses request).1 := by
    intro c' htouches hset responses
    rw [← hset] at h
    have hopen := touches_openChannel h hgives request.channelName request.channelId
    have hafter : Touches request.channelId c (c'.openChannel request.channelName request.channelId).1 :=
      ⟨fun id hid => (hopen.channel id hid).trans (htouches.channel id hid), hopen.tunnels.trans htouches.tunnels,
        hopen.complete.trans htouches.complete⟩
    unfold answerCreate
    by_cases hnone : (c'.openChannel request.channelName request.channelId).2.2.2 = []
    · simp only [if_pos hnone]
      exact hafter
    · simp only [if_neg hnone]
      cases encodeDvcMessages request.channelId (c'.openChannel request.channelName request.channelId).2.2.2 with
      | error e => exact hafter
      | ok pdus => exact hafter
  unfold processCreate
  by_cases hdone : c.capHandshakeDone
  · rw [if_pos hdone]
    exact hanswer c (.refl _ c) rfl []
  · rw [if_neg hdone]
    exact hanswer (c.createCapabilitiesResponse .v2).1 ⟨fun _ _ => rfl, rfl, rfl⟩ rfl _

theorem apart_process {life : Life P} (h : c.dynamicChannels.Keeps life) (hgives : life.Gives (L := L))
    {bytes : Bytes} (hconcerns : payloadConcerns id bytes = false) : Apart id c (c.process bytes).1 := by
  unfold process
  unfold payloadConcerns at hconcerns
  rcases hdecode : DrdynvcServerPdu.decode bytes with e | ⟨pdu, rest⟩
  · exact .refl id c
  rw [hdecode] at hconcerns
  change pdu.concerns id = false at hconcerns
  cases pdu with
  | capabilities request => exact ⟨rfl, fun hroute => hroute⟩
  | create request => exact (touches_processCreate h hgives request).apart (of_decide_eq_false hconcerns)
  | close pdu => exact (touches_processClose h pdu.channelId).apart (of_decide_eq_false hconcerns)
  | data data =>
      by_cases hroute : (c.tunnelForChannel data.channelId).isSome
      · simp only [if_pos hroute]
        exact .refl id c
      · simp only [if_neg hroute]
        exact (touches_processData data).apart (of_decide_eq_false hconcerns)
  | softSyncRequest request =>
      apply apart_processSoftSyncRequest
      intro list hlist hmem
      exact List.any_eq_false.mp hconcerns list hlist (decide_eq_true hmem)

/-- What does not concern an open channel that has no tunnel leaves it alone. -/
theorem apart_step {life : Life P} (h : c.dynamicChannels.Keeps life) (hgives : life.Gives (L := L))
    (hactive : (c.dynamicChannels.getByChannelId id).isSome) (hroute : c.tunnelForChannel id = none)
    {input : ClientInput P L} (hconcerns : input.concerns id = false) : Apart id c (c.step input).1 := by
  cases input with
  | attach channel => exact ⟨rfl, fun _ => hroute⟩
  | attachListener listener => exact ⟨rfl, fun _ => hroute⟩
  | attachEstablished id' channel => 
      obtain ⟨htouches, hrefused⟩ := touches_attachEstablished (c := c) id' channel
      by_cases hid : id' = id
      · rw [← hid] at hactive
        have hsame : (c.step (.attachEstablished id' channel)).1 = c := hrefused hactive
        rw [hsame]
        exact .refl id c
      · exact htouches.apart hid
  | payload bytes => exact apart_process h hgives hconcerns
  | tunnel tunnelType bytes => exact apart_processTunnel hroute tunnelType bytes
  | close id' => exact apart_closeChannel h (of_decide_eq_false hconcerns)
  | enableTunnel tunnelType => exact ⟨rfl, fun _ => hroute⟩
  | disableTunnel tunnelType => exact ⟨rfl, fun _ => hroute⟩

/-- Data for an open channel that has no tunnel is processed. -/
theorem process_data {bytes : Bytes} {data : DrdynvcDataPdu} (hdecode : DrdynvcServerPdu.decode bytes =
      .ok (.data data, [])) {channel : DynamicVirtualChannel P}
    (hactive : c.dynamicChannels.getByChannelId data.channelId = some channel)
    (hroute : c.tunnelForChannel data.channelId = none) :
    (c.process bytes).1.dynamicChannels.getByChannelId data.channelId = some (channel.process data).1 ∧
      (c.process bytes).1.tunnelForChannel data.channelId = none := by
  have hset : (c.dynamicChannels.setChannel data.channelId (channel.process data).1).getByChannelId data.channelId =
      some (channel.process data).1 := by
    rw [DynamicChannelSet.getByChannelId_setChannel, if_pos rfl]
  unfold process processData
  rw [hdecode]
  simp only [hroute, hactive, Option.isSome_none, Bool.false_eq_true, if_false]
  cases hresult : (channel.process data).2 with
  | error e => exact ⟨hset, hroute⟩
  | ok messages =>
      cases hencode : encodeDvcMessages data.channelId messages with
      | error e =>
          simp only [hencode]
          exact ⟨hset, hroute⟩
      | ok pdus =>
          simp only [hencode]
          exact ⟨hset, hroute⟩

/-- A run in which the inputs that concern the channel are the PDUs. -/
theorem run_channel {life : Life P} (h : c.dynamicChannels.Keeps life) (hgives : life.Gives (L := L))
    {inputs : List (ClientInput P L)} (hunused : ∀ input ∈ inputs, input.Unused life)
    {pdus : List DrdynvcDataPdu} {sent : List Bytes} (hid : ∀ pdu ∈ pdus, pdu.channelId = id)
    (hdecode : List.Forall₂ (fun pdu bytes => DrdynvcServerPdu.decode bytes = .ok (.data pdu, [])) pdus sent)
    (hsent : inputs.filter (·.concerns id) = sent.map .payload) {channel : DynamicVirtualChannel P}
    (hactive : c.dynamicChannels.getByChannelId id = some channel) (hroute : c.tunnelForChannel id = none) :
    (c.run inputs).1.dynamicChannels.getByChannelId id =
      some (pdus.foldl (fun channel pdu => (channel.process pdu).1) channel) := by
  induction inputs generalizing c pdus sent channel with
  | nil =>
      cases hdecode with
      | nil => exact hactive
      | cons hfirst hrest => cases hsent
  | cons input inputs ih =>
      have hkeeps := (kept_step h hgives (hunused input List.mem_cons_self)).1
      have hrest : ∀ i ∈ inputs, i.Unused life := fun i hi => hunused i (List.mem_cons_of_mem input hi)
      by_cases hconcerns : input.concerns id
      · rw [List.filter_cons_of_pos hconcerns] at hsent
        cases hdecode with
        | nil => cases hsent
        | @cons pdu bytes pdus sent hfirst hdecode =>
            obtain ⟨rfl, htail⟩ := List.cons.inj hsent
            have hchannel := hid pdu List.mem_cons_self
            rw [← hchannel] at hactive hroute
            obtain ⟨hafter, hnone⟩ := process_data hfirst hactive hroute
            rw [hchannel] at hafter hnone
            exact ih hkeeps hrest (fun p hp => hid p (List.mem_cons_of_mem pdu hp)) hdecode htail hafter hnone
      · rw [List.filter_cons_of_neg hconcerns] at hsent
        have hsome : (c.dynamicChannels.getByChannelId id).isSome := by
          rw [hactive]
          rfl
        have hapart := apart_step h hgives hsome hroute (Bool.eq_false_iff.mpr hconcerns)
        exact ih hkeeps hrest hid hdecode hsent (hapart.channel.trans hactive) (hapart.route hroute)

end DrdynvcClient

end Frame

/-! ### The PDUs of a message -/

section Whole

variable {P : Type} [DvcProcessor P]

/-- The channel after PDUs. -/
def DynamicVirtualChannel.processAll (channel : DynamicVirtualChannel P) (pdus : List DrdynvcDataPdu) :
    DynamicVirtualChannel P := pdus.foldl (fun channel pdu => (channel.process pdu).1) channel

/-- The channel after its processor was given a message. -/
def DynamicVirtualChannel.deliver (id : DynamicChannelId) (channel : DynamicVirtualChannel P) (message : Bytes) :
    DynamicVirtualChannel P :=
  { channel with channelProcessor := (DvcProcessor.process channel.channelProcessor id message).1 }

theorem deliver_idle (id : DynamicChannelId) (message : Bytes) {channel : DynamicVirtualChannel P}
    (hidle : channel.completeData = .new) :
    { channel.deliver id message with completeData := .new } = channel.deliver id message := by
  rw [← hidle]
  rfl

theorem process_part {channel : DynamicVirtualChannel P} {pdu : DrdynvcDataPdu} {completeData : CompleteData}
    (h : channel.completeData.processData pdu = (completeData, none)) :
    (channel.process pdu).1 = { channel with completeData := completeData } := by
  unfold DynamicVirtualChannel.process
  rw [h]

theorem process_last {channel : DynamicVirtualChannel P} {pdu : DrdynvcDataPdu} {completeData : CompleteData}
    {message : Bytes} (h : channel.completeData.processData pdu = (completeData, some message)) :
    (channel.process pdu).1 =
      { channel.deliver pdu.channelId message with completeData := completeData } := by
  unfold DynamicVirtualChannel.process
  rw [h]
  rfl

theorem take_add (message : Bytes) (off size : Nat) :
    message.take off ++ (message.take (off + size)).drop off = message.take (off + size) := by
  have h := List.take_append_drop off (message.take (off + size))
  rwa [List.take_take, Nat.min_eq_left (Nat.le_add_right off size)] at h

theorem dataPdusFrom_end {id : DynamicChannelId} {message : Bytes} {fuel off : Nat} (h : message.length ≤ off) :
    dataPdusFrom id message fuel off = [] := by
  cases fuel with
  | zero => rfl
  | succ fuel => exact if_neg (Nat.not_lt_of_le h)

theorem processData_midway {totalSize : Nat} {data : Bytes} (h : ¬(totalSize = 0 ∧ data = [])) (pdu : DataPdu) :
    (⟨totalSize, data⟩ : CompleteData).processData (.data pdu) =
      if (data ++ pdu.data).length < totalSize then (⟨totalSize, data ++ pdu.data⟩, none)
      else if (data ++ pdu.data).length = totalSize then (.new, some (data ++ pdu.data))
      else (.new, none) := if_neg h

/-- The parts from an offset on complete a message that is not complete there. -/
theorem processAll_dataPdusFrom {id : DynamicChannelId} {message : Bytes} {fuel off : Nat}
    (hfuel : message.length ≤ off + fuel) (hoff : 0 < off) (hmidway : off < message.length)
    {channel : DynamicVirtualChannel P} (hpending : channel.completeData = ⟨message.length, message.take off⟩) :
    channel.processAll (dataPdusFrom id message fuel off) =
      { channel.deliver id message with completeData := .new } := by
  induction fuel generalizing off channel with
  | zero => omega
  | succ fuel ih =>
      unfold dataPdusFrom
      simp only [if_pos hmidway]
      generalize hsize : min (message.length - off) DrdynvcDataPdu.maxDataSize = size
      have hpos : 0 < DrdynvcDataPdu.maxDataSize := by decide
      have hzero : ¬(message.length ≥ DrdynvcDataPdu.maxDataSize ∧ off = 0) := by omega
      rw [if_neg hzero]
      have hbusy : ¬(message.length = 0 ∧ message.take off = []) := by omega
      have hactual : (message.take off ++ (message.take (off + size)).drop off).length = off + size := by
        rw [take_add, List.length_take]
        omega
      change (channel.process _).1.processAll _ = _
      by_cases hlast : off + size = message.length
      · have hdone : channel.completeData.processData (.data (.new id ((message.take (off + size)).drop off))) =
            (.new, some message) := by
          rw [hpending, processData_midway hbusy, if_neg, if_pos]
          · change (CompleteData.new, some (message.take off ++ (message.take (off + size)).drop off)) = _
            rw [take_add, hlast, List.take_length]
          · exact hactual.trans hlast
          · exact Nat.not_lt_of_le (Nat.le_of_eq (hactual.trans hlast).symm)
        rw [process_last hdone, dataPdusFrom_end (Nat.le_of_eq hlast.symm)]
        rfl
      · have hmore : channel.completeData.processData (.data (.new id ((message.take (off + size)).drop off))) =
            (⟨message.length, message.take (off + size)⟩, none) := by
          rw [hpending, processData_midway hbusy, if_pos]
          · change ((⟨message.length, message.take off ++ (message.take (off + size)).drop off⟩ : CompleteData),
              (none : Option Bytes)) = _
            rw [take_add]
          · change (message.take off ++ (message.take (off + size)).drop off).length < message.length
            omega
        rw [process_part hmore]
        exact ih (by omega) (by omega) (by omega) rfl

/-- The PDUs of a message give the processor the message, if it is not empty. -/
theorem processAll_message {id : DynamicChannelId} {message : Bytes} (hlength : message.length ≤ u32Max)
    {channel : DynamicVirtualChannel P} (hidle : channel.completeData = .new) :
    channel.processAll (dataPdusFrom id message (message.length + 1) 0) =
      if message = [] then channel else channel.deliver id message := by
  by_cases hempty : message = []
  · rw [if_pos hempty, dataPdusFrom_end (by rw [hempty]; exact Nat.zero_le 0)]
    rfl
  rw [if_neg hempty]
  have hpos : 0 < message.length := List.length_pos_iff.mpr hempty
  unfold dataPdusFrom
  simp only [if_pos hpos, Nat.sub_zero, Nat.zero_add, List.drop_zero, and_true]
  change (channel.process _).1.processAll _ = _
  by_cases hsplit : message.length ≥ DrdynvcDataPdu.maxDataSize
  · have htotal : (UInt32.ofNat message.length).toNat = message.length := by
      rw [UInt32.toNat_ofNat']
      apply Nat.mod_eq_of_lt
      exact Nat.lt_succ_of_le hlength
    have htaken : (message.take DrdynvcDataPdu.maxDataSize).length = DrdynvcDataPdu.maxDataSize := by
      rw [List.length_take]
      omega
    rw [if_pos hsplit, Nat.min_eq_right hsplit]
    by_cases hwhole : message.length = DrdynvcDataPdu.maxDataSize
    · have hdone : channel.completeData.processData
          (.dataFirst (.new id (.ofNat message.length) (message.take DrdynvcDataPdu.maxDataSize))) =
            (.new, some message) := by
        rw [hidle, ← hwhole, List.take_length]
        exact if_pos htotal
      rw [process_last hdone, dataPdusFrom_end (Nat.le_of_eq hwhole)]
      exact deliver_idle id message hidle
    · have hmore : channel.completeData.processData
          (.dataFirst (.new id (.ofNat message.length) (message.take DrdynvcDataPdu.maxDataSize))) =
            (⟨message.length, message.take DrdynvcDataPdu.maxDataSize⟩, none) := by
        change channel.completeData.processDataFirstPdu _ = _
        unfold CompleteData.processDataFirstPdu
        change (if (UInt32.ofNat message.length).toNat = (message.take DrdynvcDataPdu.maxDataSize).length then _
          else ((⟨(UInt32.ofNat message.length).toNat, message.take DrdynvcDataPdu.maxDataSize⟩ : CompleteData),
            (none : Option Bytes))) = _
        rw [htotal, htaken, if_neg hwhole]
      rw [process_part hmore]
      refine (processAll_dataPdusFrom (Nat.le_add_left _ _) (by decide)
        (Nat.lt_of_le_of_ne hsplit (Ne.symm hwhole)) rfl).trans ?_
      exact deliver_idle id message hidle
  · have hdone : channel.completeData.processData
        (.data (.new id (message.take (min message.length DrdynvcDataPdu.maxDataSize)))) = (.new, some message) := by
      have hshort : min message.length DrdynvcDataPdu.maxDataSize = message.length := by omega
      rw [hidle, hshort, List.take_length]
      rfl
    have hend : message.length ≤ min message.length DrdynvcDataPdu.maxDataSize := by omega
    rw [if_neg hsplit, process_last hdone, dataPdusFrom_end hend]
    exact deliver_idle id message hidle

theorem processAll_append (channel : DynamicVirtualChannel P) (pdus pdus' : List DrdynvcDataPdu) :
    channel.processAll (pdus ++ pdus') = (channel.processAll pdus).processAll pdus' := List.foldl_append

/-- The messages that are not empty. -/
def sentMessages (messages : List Bytes) : List Bytes := messages.filter fun message => !message.isEmpty

theorem processAll_messages {id : DynamicChannelId} {messages : List Bytes}
    (hlength : ∀ message ∈ messages, message.length ≤ u32Max) {channel : DynamicVirtualChannel P}
    (hidle : channel.completeData = .new) :
    channel.processAll (messages.flatMap fun message => dataPdusFrom id message (message.length + 1) 0) =
      (sentMessages messages).foldl (.deliver id) channel := by
  induction messages generalizing channel with
  | nil => rfl
  | cons message messages ih =>
      have hrest : ∀ m ∈ messages, m.length ≤ u32Max := fun m hm => hlength m (List.mem_cons_of_mem message hm)
      rw [List.flatMap_cons, processAll_append, processAll_message (hlength message List.mem_cons_self) hidle]
      by_cases hempty : message = []
      · rw [if_pos hempty, ih hrest hidle, hempty]
        rfl
      · have hkept : sentMessages (message :: messages) = message :: sentMessages messages :=
          List.filter_cons_of_pos (by simp [hempty])
        rw [if_neg hempty, hkept]
        exact ih hrest hidle

end Whole

/-! ### The bytes of the PDUs -/

theorem encodeVal_forVal (value : UInt32) :
    ∃ bytes, (FieldType.forVal value).encodeVal value = .ok bytes ∧ bytes.length ≤ 4 := by
  have hvalue : value.toNat < 2 ^ 32 := UInt32.toNat_lt value
  unfold FieldType.forVal
  by_cases h8 : value.toNat < 2 ^ 8
  · rw [if_pos h8]
    exact ⟨_, if_pos h8, by rw [length_toLeBytes]; decide⟩
  rw [if_neg h8]
  by_cases h16 : value.toNat < 2 ^ 16
  · rw [if_pos h16]
    exact ⟨_, if_pos h16, by rw [length_toLeBytes]; decide⟩
  · rw [if_neg h16]
    exact ⟨_, if_pos hvalue, by rw [length_toLeBytes]; decide⟩

/-- A PDU of a message for a channel. -/
inductive MessagePart (id : DynamicChannelId) : DrdynvcDataPdu → Prop where
  | first (length : UInt32) {data : Bytes} (h : data.length ≤ DrdynvcDataPdu.maxDataSize) :
    MessagePart id (.dataFirst (.new id length data))
  | rest {data : Bytes} (h : data.length ≤ DrdynvcDataPdu.maxDataSize) : MessagePart id (.data (.new id data))

theorem messagePart_dataPdusFrom {id : DynamicChannelId} {message : Bytes} {fuel off : Nat} :
    ∀ pdu ∈ dataPdusFrom id message fuel off, MessagePart id pdu := by
  induction fuel generalizing off with
  | zero => exact List.forall_mem_nil _
  | succ fuel ih =>
      unfold dataPdusFrom
      by_cases hoff : off < message.length
      · simp only [if_pos hoff]
        intro pdu hpdu
        rcases List.mem_cons.mp hpdu with rfl | hlater
        · generalize hsize : min (message.length - off) DrdynvcDataPdu.maxDataSize = size
          have hdata : ((message.take (off + size)).drop off).length ≤ DrdynvcDataPdu.maxDataSize := by
            rw [List.length_drop, List.length_take]
            omega
          by_cases hfirst : message.length ≥ DrdynvcDataPdu.maxDataSize ∧ off = 0
          · rw [if_pos hfirst]
            exact .first _ hdata
          · rw [if_neg hfirst]
            exact .rest hdata
        · exact ih pdu hlater
      · simp only [if_neg hoff]
        exact List.forall_mem_nil _

theorem MessagePart.channelId {id : DynamicChannelId} {pdu : DrdynvcDataPdu} (h : MessagePart id pdu) :
    pdu.channelId = id := by
  cases h with
  | first length h => rfl
  | rest h => rfl

/-- A part is encoded in the data and at most nine bytes, and it is decoded. -/
theorem MessagePart.encode {id : DynamicChannelId} {pdu : DrdynvcDataPdu} (h : MessagePart id pdu) :
    ∃ bytes, DrdynvcServerPdu.encode (.data pdu) = .ok bytes ∧
      bytes.length ≤ DrdynvcDataPdu.maxDataSize + 9 ∧
      DrdynvcServerPdu.decode bytes = .ok (.data pdu, []) := by
  obtain ⟨channel, hchannel, hchannelLength⟩ := encodeVal_forVal id
  cases h with
  | @first length data h =>
      obtain ⟨total, htotal, htotalLength⟩ := encodeVal_forVal length
      have hencode : DrdynvcServerPdu.encode (.data (.dataFirst (.new id length data))) =
          .ok ((Header.new id length .dataFirst).encode ++ channel ++ total ++ data) := by
        change (do
          let channelId ← (FieldType.forVal id).encodeVal id
          let length' ← (FieldType.forVal length).encodeVal length
          return (Header.new id length .dataFirst).encode ++ channelId ++ length' ++ data :
            Except EncodeError Bytes) = _
        rw [hchannel, htotal]
        rfl
      have hformed : (DrdynvcServerPdu.data (.dataFirst (.new id length data))).WellFormed := rfl
      refine ⟨_, hencode, ?_, server_decode_encode hformed hencode⟩
      simp only [List.length_append, Header.encode, List.length_singleton]
      omega
  | @rest data h =>
      have hencode : DrdynvcServerPdu.encode (.data (.data (.new id data))) =
          .ok ((Header.new id 0 .data).encode ++ channel ++ data) := by
        change (do
          let channelId ← (FieldType.forVal id).encodeVal id
          return (Header.new id 0 .data).encode ++ channelId ++ data : Except EncodeError Bytes) = _
        rw [hchannel]
        rfl
      have hformed : (DrdynvcServerPdu.data (.data (.new id data))).WellFormed := rfl
      refine ⟨_, hencode, ?_, server_decode_encode hformed hencode⟩
      simp only [List.length_append, Header.encode, List.length_singleton]
      omega

theorem encode_parts {id : DynamicChannelId} {pdus : List DrdynvcDataPdu} (h : ∀ pdu ∈ pdus, MessagePart id pdu) :
    ∃ sent, pdus.mapM (fun pdu => DrdynvcServerPdu.encode (.data pdu)) = .ok sent ∧
      (∀ bytes ∈ sent, bytes.length ≤ DrdynvcDataPdu.maxDataSize + 9) ∧
      List.Forall₂ (fun pdu bytes => DrdynvcServerPdu.decode bytes = .ok (.data pdu, [])) pdus sent := by
  induction pdus with
  | nil => exact ⟨[], rfl, List.forall_mem_nil _, .nil⟩
  | cons pdu pdus ih =>
      obtain ⟨bytes, hencode, hshort, hdecode⟩ := (h pdu List.mem_cons_self).encode
      obtain ⟨sent, hsent, hshorts, hdecodes⟩ := ih fun p hp => h p (List.mem_cons_of_mem pdu hp)
      refine ⟨bytes :: sent, ?_, List.forall_mem_cons.mpr ⟨hshort, hshorts⟩, .cons hdecode hdecodes⟩
      rw [List.mapM_cons, hencode, hsent]
      rfl

theorem encodeDvcMessages_eq {id : DynamicChannelId} {messages : List Bytes}
    (h : ∀ message ∈ messages, message.length ≤ u32Max) :
    encodeDvcMessages id messages =
      .ok (messages.flatMap fun message => dataPdusFrom id message (message.length + 1) 0) := by
  have hmap : messages.mapM (encodeDvcMessage id) =
      .ok (messages.map fun message => dataPdusFrom id message (message.length + 1) 0) := by
    induction messages with
    | nil => rfl
    | cons message messages ih =>
        have hfits := h message List.mem_cons_self
        have hencode : encodeDvcMessage id message = .ok (dataPdusFrom id message (message.length + 1) 0) :=
          if_neg (by omega)
        rw [List.mapM_cons, hencode, ih fun m hm => h m (List.mem_cons_of_mem message hm)]
        rfl
  unfold encodeDvcMessages
  rw [hmap]
  exact congrArg Except.ok List.flatMap_def.symm

/-- Nothing is asked of the processors. -/
def anyLife {P : Type} [DvcProcessor P] : Life P where
  Fresh _ := True
  Opened _ _ := True
  Finished _ := True
  refuse _ := trivial
  start _ _ := trivial
  fail _ _ := trivial
  process _ _ := trivial
  close _ := trivial

theorem unused_any {P L : Type} [DvcProcessor P] (input : ClientInput P L) : input.Unused anyLife := by
  cases input <;> trivial

theorem messageParts_of_encode {id : DynamicChannelId} {messages : List Bytes} {parts : List DrdynvcDataPdu}
    (h : encodeDvcMessages id messages = .ok parts) : ∀ pdu ∈ parts, MessagePart id pdu := by
  unfold encodeDvcMessages at h
  cases hmap : messages.mapM (encodeDvcMessage id) with
  | error e =>
      rw [hmap] at h
      cases h
  | ok lists =>
      rw [hmap] at h
      obtain rfl : lists.flatten = parts := Except.ok.inj h
      intro pdu hpdu
      obtain ⟨list, hlist, hin⟩ := List.mem_flatten.mp hpdu
      clear hpdu h
      induction messages generalizing lists with
      | nil =>
          cases hmap
          cases hlist
      | cons message messages ih =>
          obtain ⟨first, rest, hfirst, hrest, rfl⟩ := Lockstep.mapM_cons_eq_ok.mp hmap
          rcases List.mem_cons.mp hlist with rfl | hlist
          · unfold encodeDvcMessage at hfirst
            split_ifs at hfirst
            obtain rfl := Except.ok.inj hfirst
            exact messagePart_dataPdusFrom pdu hin
          · exact ih rest hrest hlist
/-- The channel of a client after the parts of messages, among any inputs. -/
theorem run_parts {P L : Type} [DvcProcessor P] [DvcChannelListener P L] (before : List (ClientInput P L))
    {id : DynamicChannelId} {pdus : List DrdynvcDataPdu} {sent : List Bytes}
    (hparts : ∀ pdu ∈ pdus, MessagePart id pdu)
    (hdecode : List.Forall₂ (fun pdu bytes => DrdynvcServerPdu.decode bytes = .ok (.data pdu, [])) pdus sent)
    {inputs : List (ClientInput P L)} (hfilter : inputs.filter (·.concerns id) = sent.map .payload)
    {channel : DynamicVirtualChannel P}
    (hactive : (DrdynvcClient.new.run before).1.dynamicChannels.getByChannelId id = some channel)
    (hroute : (DrdynvcClient.new.run before).1.tunnelForChannel id = none) :
    ((DrdynvcClient.new.run before).1.run inputs).1.dynamicChannels.getByChannelId id =
      some (channel.processAll pdus) := by
  have hkeeps : (DrdynvcClient.new.run before : DrdynvcClient P L × List P).1.dynamicChannels.Keeps anyLife :=
    (DrdynvcClient.kept_run DynamicChannelSet.keeps_new (fun _ _ _ _ => trivial) fun input _ => unused_any input).1
  exact DrdynvcClient.run_channel hkeeps (fun _ _ _ _ => trivial) (fun input _ => unused_any input)
    (fun pdu hpdu => (hparts pdu hpdu).channelId) hdecode hfilter hactive hroute

theorem messages_arrive {P L : Type} [DvcProcessor P] [DvcChannelListener P L] (before : List (ClientInput P L))
    {c : DrdynvcClient P L} (hreached : c = (DrdynvcClient.new.run before).1) {id : DynamicChannelId}
    {channel : DynamicVirtualChannel P} (hactive : c.dynamicChannels.getByChannelId id = some channel)
    (hidle : channel.completeData = .new) (hroute : c.tunnelForChannel id = none) {messages : List Bytes}
    (hlength : ∀ message ∈ messages, message.length ≤ u32Max) :
    ∃ pdus sent, encodeDvcMessages id messages = .ok pdus ∧
      pdus.mapM (fun pdu => DrdynvcServerPdu.encode (.data pdu)) = .ok sent ∧
      (∀ bytes ∈ sent, bytes.length ≤ DrdynvcDataPdu.maxDataSize + 9) ∧
      ∀ inputs : List (ClientInput P L), inputs.filter (·.concerns id) = sent.map .payload →
        (c.run inputs).1.dynamicChannels.getByChannelId id =
          some ((sentMessages messages).foldl (.deliver id) channel) := by
  have hencode : encodeDvcMessages id messages = .ok _ := encodeDvcMessages_eq hlength
  have hparts := messageParts_of_encode hencode
  obtain ⟨sent, hsent, hshort, hdecode⟩ := encode_parts hparts
  refine ⟨_, sent, hencode, hsent, hshort, ?_⟩
  intro inputs hfilter
  rw [hreached] at hactive hroute ⊢
  rw [run_parts before hparts hdecode hfilter hactive hroute]
  exact congrArg some (processAll_messages hlength hidle)

/-- What is sent on a channel concerns it. -/
theorem filter_parts {P L : Type} {id : DynamicChannelId} {pdus : List DrdynvcDataPdu} {sent : List Bytes}
    (hparts : ∀ pdu ∈ pdus, MessagePart id pdu)
    (hsent : pdus.mapM (fun pdu => DrdynvcServerPdu.encode (.data pdu)) = .ok sent) :
    pdus.length = sent.length ∧
      (sent.map (ClientInput.payload : Bytes → ClientInput P L)).filter (·.concerns id) =
        sent.map .payload := by
  obtain ⟨sent', hsent', -, hdecode⟩ := encode_parts hparts
  obtain rfl := Except.ok.inj (hsent.symm.trans hsent')
  have hconcerns : ∀ bytes ∈ sent, payloadConcerns id bytes = true := by
    clear hsent hsent'
    induction hdecode with
    | nil => exact List.forall_mem_nil _
    | cons hdecoded _ ih =>
        refine List.forall_mem_cons.mpr ⟨?_, ih fun pdu hpdu => hparts pdu (List.mem_cons_of_mem _ hpdu)⟩
        unfold payloadConcerns
        rw [hdecoded]
        exact decide_eq_true (hparts _ List.mem_cons_self).channelId
  refine ⟨hdecode.length_eq, List.filter_eq_self.mpr ?_⟩
  intro input hinput
  obtain ⟨bytes, hbytes, rfl⟩ := List.mem_map.mp hinput
  exact hconcerns bytes hbytes

/-- A message that takes two PDUs. -/
def longMessage : Bytes := List.replicate 2000 9

theorem length_longMessage : longMessage.length = 2000 := List.length_replicate

/-- Three messages, of which the second has no bytes and the third is cut. -/
theorem messages_arrive_cut :
    ∃ sent : List Bytes, sent.length = 3 ∧
      ((DrdynvcClient.new : DrdynvcClient (Recorded TestDvc) Empty).run
        (.attachEstablished 8 ⟨⟨⟩, []⟩ :: .close 9 :: sent.map .payload)).1.dynamicChannels.getByChannelId 8 =
      some ⟨⟨⟨⟩, [.start 8 true, .process 8 [1, 2], .process 8 longMessage]⟩, .new, some 8⟩ := by
  have hactive : ((DrdynvcClient.new : DrdynvcClient (Recorded TestDvc) Empty).run
      [.attachEstablished 8 ⟨⟨⟩, []⟩]).1.dynamicChannels.getByChannelId 8 =
        some ⟨⟨⟨⟩, [.start 8 true]⟩, .new, some 8⟩ := rfl
  have hlength : ∀ message ∈ [[1, 2], [], longMessage], message.length ≤ u32Max := by
    simp only [List.forall_mem_cons, length_longMessage]
    exact ⟨by decide, by decide, by decide, List.forall_mem_nil _⟩
  obtain ⟨pdus, sent, hpdus, hsent, -, hrun⟩ := messages_arrive _ rfl hactive rfl rfl hlength
  obtain ⟨hcount, hfilter⟩ := filter_parts (P := Recorded TestDvc) (L := Empty) (messageParts_of_encode hpdus) hsent
  refine ⟨sent, ?_, (hrun (.close 9 :: sent.map .payload) hfilter).trans rfl⟩
  rw [encodeDvcMessages_eq hlength] at hpdus
  obtain rfl := Except.ok.inj hpdus
  rw [← hcount]
  simp [dataPdusFrom, DrdynvcDataPdu.maxDataSize, length_longMessage]

end Drift.Channel
