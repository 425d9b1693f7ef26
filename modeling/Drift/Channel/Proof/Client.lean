import Drift.Channel.Client

/-!
# Every processor of a channel is started, used and closed once

Whatever the session and the server do, a processor is started before it is given data, it is given data for its own
channel only, and when it is dropped it was closed if it had started. What a processor is promised holds of every
way to look at it (`Life`); looked at through its calls, it is this order of calls.
-/

namespace Drift.Channel

open Pdu Table

/-- What the session does with its client. -/
inductive ClientInput (P L : Type) where
  | attach (channel : P)
  | attachListener (listener : L)
  | attachEstablished (channelId : DynamicChannelId) (channel : P)
  | payload (payload : Bytes)
  | tunnel (tunnelType : UInt32) (payload : Bytes)
  | close (channelId : DynamicChannelId)
  | enableTunnel (tunnelType : UInt32)
  | disableTunnel (tunnelType : UInt32)

section Sets

variable {P L : Type}

namespace DynamicChannelSet

theorem getByChannelId_setChannel (s : DynamicChannelSet P L) (id : DynamicChannelId)
    (channel : DynamicVirtualChannel P) (id' : DynamicChannelId) :
    (s.setChannel id channel).getByChannelId id' =
      if id = id' then some channel else s.getByChannelId id' := by
  unfold getByChannelId setChannel
  rw [lookup_put]
  by_cases h : id = id'
  · rw [if_pos h, if_pos h]
    rfl
  · rw [if_neg h, if_neg h]

theorem setChannel_setChannel (s : DynamicChannelSet P L) (id : DynamicChannelId)
    (channel channel' : DynamicVirtualChannel P) :
    (s.setChannel id channel).setChannel id channel' = s.setChannel id channel' := by
  have hrows : put Prod.fst (id, channel') (put Prod.fst (id, channel) s.activeChannels) =
      put Prod.fst (id, channel') s.activeChannels := by
    apply put_put
    rfl
  exact congrArg (fun rows => { s with activeChannels := rows }) hrows

theorem mem_of_getByChannelId {s : DynamicChannelSet P L} {id : DynamicChannelId}
    {channel : DynamicVirtualChannel P} (h : s.getByChannelId id = some channel) :
    (id, channel) ∈ s.activeChannels := by
  obtain ⟨row, hrow, rfl⟩ := Option.map_eq_some_iff.mp h
  have hid : row.1 = id := key_of_lookup hrow
  rw [← hid]
  exact mem_of_lookup hrow

end DynamicChannelSet

end Sets

namespace DrdynvcClient

variable {P L : Type} [DvcProcessor P] [DvcChannelListener P L]

/-- One input: the client after it, and the processors that were dropped. -/
def step (c : DrdynvcClient P L) : ClientInput P L → DrdynvcClient P L × List P
  | .attach channel => (c.attachDynamicChannel channel, [])
  | .attachListener listener => (c.attachListener listener, [])
  | .attachEstablished channelId channel =>
    let (c, dropped, _) := c.attachEstablishedDynamicChannel channelId channel
    (c, dropped)
  | .payload payload =>
    let (c, dropped, _) := c.process payload
    (c, dropped)
  | .tunnel tunnelType payload =>
    let (c, dropped, _) := c.processTunnel tunnelType payload
    (c, dropped)
  | .close channelId =>
    let (c, dropped, _) := c.closeChannel channelId
    (c, dropped)
  | .enableTunnel tunnelType => (c.enableSoftSyncTunnel tunnelType, [])
  | .disableTunnel tunnelType => (c.disableSoftSyncTunnel tunnelType, [])

def run (c : DrdynvcClient P L) : List (ClientInput P L) → DrdynvcClient P L × List P
  | [] => (c, [])
  | input :: inputs =>
    let (c, dropped) := c.step input
    let (c, dropped') := c.run inputs
    (c, dropped ++ dropped')

theorem run_cons (c : DrdynvcClient P L) (input : ClientInput P L) (inputs : List (ClientInput P L)) :
    c.run (input :: inputs) =
      (((c.step input).1.run inputs).1, (c.step input).2 ++ ((c.step input).1.run inputs).2) := rfl

end DrdynvcClient

/-! ### What a processor is promised -/

/-- What is true of a processor before it starts, while its channel is open, and when it is dropped. -/
structure Life (P : Type) [DvcProcessor P] where
  Fresh : P → Prop
  Opened : DynamicChannelId → P → Prop
  Finished : P → Prop
  refuse : ∀ {p : P}, Fresh p → Finished p
  start : ∀ {p q : P} {id : DynamicChannelId} {messages : List Bytes}, Fresh p →
    DvcProcessor.start p id = (q, .ok messages) → Opened id q
  fail : ∀ {p q : P} {id : DynamicChannelId} {e : PduError}, Fresh p →
    DvcProcessor.start p id = (q, .error e) → Finished q
  process : ∀ {p : P} {id : DynamicChannelId} (data : Bytes), Opened id p →
    Opened id (DvcProcessor.process p id data).1
  close : ∀ {p : P} {id : DynamicChannelId}, Opened id p → Finished (DvcProcessor.close p id)

section Promise

variable {P L : Type} [DvcProcessor P] (life : Life P)

/-- An open channel and its processor. -/
def Life.Runs (id : DynamicChannelId) (channel : DynamicVirtualChannel P) : Prop :=
  channel.channelId = some id ∧ life.Opened id channel.channelProcessor

structure DynamicChannelSet.Keeps (s : DynamicChannelSet P L) : Prop where
  distinct : Distinct Prod.fst s.activeChannels
  listeners : ∀ row ∈ s.listeners, ∀ p, row.2.listener = .once (some p) → life.Fresh p
  active : ∀ row ∈ s.activeChannels, life.Runs row.1 row.2

variable {life}

theorem Life.Runs.drop {id : DynamicChannelId} {channel : DynamicVirtualChannel P} (h : life.Runs id channel) :
    life.Finished channel.drop := by
  unfold DynamicVirtualChannel.drop
  rw [h.1]
  exact life.close h.2

theorem Life.Runs.process {pdu : DrdynvcDataPdu} {channel : DynamicVirtualChannel P}
    (h : life.Runs pdu.channelId channel) : life.Runs pdu.channelId (channel.process pdu).1 := by
  unfold DynamicVirtualChannel.process
  rcases hdata : channel.completeData.processData pdu with ⟨completeData, _ | data⟩
  · exact h
  · exact ⟨h.1, life.process data h.2⟩

namespace DynamicChannelSet

theorem keeps_new : (new : DynamicChannelSet P L).Keeps life :=
  ⟨List.nodup_nil, List.forall_mem_nil _, List.forall_mem_nil _⟩

variable {s : DynamicChannelSet P L}

theorem Keeps.runs (h : s.Keeps life) {id : DynamicChannelId} {channel : DynamicVirtualChannel P}
    (hchannel : s.getByChannelId id = some channel) : life.Runs id channel :=
  h.active (id, channel) (mem_of_getByChannelId hchannel)

theorem Keeps.setChannel (h : s.Keeps life) {id : DynamicChannelId} {channel : DynamicVirtualChannel P}
    (hruns : life.Runs id channel) : (s.setChannel id channel).Keeps life where
  distinct := h.distinct.put (id, channel)
  listeners := h.listeners
  active := by
    intro row hrow
    rcases mem_put hrow with rfl | hmem
    · exact hruns
    · exact h.active row hmem

theorem Keeps.putListener (h : s.Keeps life) (row : String × ListenerEntry P L)
    (hrow : ∀ p, row.2.listener = .once (some p) → life.Fresh p) :
    { s with listeners := put Prod.fst row s.listeners }.Keeps life where
  distinct := h.distinct
  listeners := by
    intro row' hrow'
    rcases mem_put hrow' with rfl | hmem
    · exact hrow
    · exact h.listeners row' hmem
  active := h.active

theorem Keeps.setTypeIds (h : s.Keeps life) (typeIds : List (TypeId × DynamicChannelId)) :
    { s with typeIdToChannelId := typeIds }.Keeps life := ⟨h.distinct, h.listeners, h.active⟩

theorem Keeps.erase (h : s.Keeps life) (id : DynamicChannelId) :
    { s with activeChannels := erase Prod.fst s.activeChannels id }.Keeps life where
  distinct := h.distinct.erase id
  listeners := h.listeners
  active := by
    intro row hrow
    exact h.active row (List.eraseP_sublist.subset hrow)

theorem removeByChannelId_spec (s : DynamicChannelSet P L) (id : DynamicChannelId) :
    (s.getByChannelId id = none ∧ s.removeByChannelId id = (s, none)) ∨
      ∃ channel typeIds, s.getByChannelId id = some channel ∧
        s.removeByChannelId id =
          ({ s with activeChannels := Table.erase Prod.fst s.activeChannels id, typeIdToChannelId := typeIds },
            some channel) := by
  unfold removeByChannelId
  cases hchannel : s.getByChannelId id with
  | none => exact .inl ⟨rfl, rfl⟩
  | some channel => exact .inr ⟨channel, _, rfl, rfl⟩

theorem Keeps.remove (h : s.Keeps life) (id : DynamicChannelId) :
    (s.removeByChannelId id).1.Keeps life ∧
      ∀ channel, (s.removeByChannelId id).2 = some channel → life.Finished channel.drop := by
  rcases s.removeByChannelId_spec id with ⟨-, heq⟩ | ⟨channel, typeIds, hchannel, heq⟩
  · rw [heq]
    exact ⟨h, by intro channel hnone; cases hnone⟩
  · rw [heq]
    refine ⟨(h.erase id).setTypeIds typeIds, ?_⟩
    intro channel' heq'
    rw [← Option.some.inj heq']
    exact (h.runs hchannel).drop

theorem removeByChannelId_setChannel (s : DynamicChannelSet P L) (id : DynamicChannelId)
    (channel : DynamicVirtualChannel P) :
    ∃ typeIds, (s.setChannel id channel).removeByChannelId id =
      ({ s with activeChannels := Table.erase Prod.fst s.activeChannels id, typeIdToChannelId := typeIds },
        some channel) := by
  have hchannel : (s.setChannel id channel).getByChannelId id = some channel := by
    rw [getByChannelId_setChannel, if_pos rfl]
  have herase : Table.erase Prod.fst (s.setChannel id channel).activeChannels id =
      Table.erase Prod.fst s.activeChannels id := erase_put (id, channel) s.activeChannels
  rcases (s.setChannel id channel).removeByChannelId_spec id with ⟨hnone, -⟩ | ⟨channel', typeIds, hsome, heq⟩
  · rw [hchannel] at hnone
    cases hnone
  · rw [hchannel] at hsome
    rw [← Option.some.inj hsome, herase] at heq
    exact ⟨typeIds, heq⟩

theorem Keeps.attachEstablished (h : s.Keeps life) {processor : P} (hfresh : life.Fresh processor)
    (id : DynamicChannelId) :
    (s.attachEstablishedChannel id processor).1.Keeps life ∧
      ∀ p ∈ (s.attachEstablishedChannel id processor).2.1, life.Finished p := by
  unfold attachEstablishedChannel
  by_cases htaken : (s.getByChannelId id).isSome
  · rw [if_pos htaken]
    refine ⟨h, ?_⟩
    intro p hp
    rw [List.mem_singleton.mp hp]
    exact life.refuse hfresh
  · rw [if_neg htaken]
    unfold DynamicVirtualChannel.start DynamicVirtualChannel.fromBoxed
    rcases hstart : DvcProcessor.start processor id with ⟨started, e | messages⟩
    · refine ⟨h, ?_⟩
      intro p hp
      rw [List.mem_singleton.mp hp]
      exact life.fail hfresh hstart
    · exact ⟨h.setChannel ⟨rfl, life.start hfresh hstart⟩, List.forall_mem_nil _⟩

end DynamicChannelSet

namespace DrdynvcClient

/-- What an outcome leaves is kept, and what it drops is finished. -/
def Kept {α : Type} (life : Life P) (outcome : DrdynvcClient P L × List P × α) : Prop :=
  outcome.1.dynamicChannels.Keeps life ∧ ∀ p ∈ outcome.2.1, life.Finished p

variable {c : DrdynvcClient P L}

theorem kept_processData (h : c.dynamicChannels.Keeps life) (data : DrdynvcDataPdu) :
    Kept life (c.processData data) := by
  unfold processData
  cases hchannel : c.dynamicChannels.getByChannelId data.channelId with
  | none => exact ⟨h, List.forall_mem_nil _⟩
  | some channel =>
      have hkeeps := h.setChannel (h.runs hchannel).process
      cases hresult : (channel.process data).2 with
      | error e =>
          simp only [hresult]
          exact ⟨hkeeps, List.forall_mem_nil _⟩
      | ok messages =>
          simp only [hresult]
          cases encodeDvcMessages data.channelId messages with
          | error e => exact ⟨hkeeps, List.forall_mem_nil _⟩
          | ok pdus => exact ⟨hkeeps, List.forall_mem_nil _⟩

theorem kept_processSoftSyncRequest (h : c.dynamicChannels.Keeps life) (request : SoftSyncRequestPdu) :
    Kept life (c.processSoftSyncRequest request) := by
  unfold processSoftSyncRequest
  by_cases hcomplete : c.softSyncComplete
  · rw [if_pos hcomplete]
    exact ⟨h, List.forall_mem_nil _⟩
  · rw [if_neg hcomplete]
    cases c.selectTunnels [] [] request.channelLists with
    | error e => exact ⟨h, List.forall_mem_nil _⟩
    | ok selected => exact ⟨h, List.forall_mem_nil _⟩

theorem kept_closed (h : c.dynamicChannels.Keeps life) (id : DynamicChannelId) :
    Kept life (c.processClose id) ∧ Kept life (c.closeChannel id) := by
  have hremove := h.remove id
  unfold processClose closeChannel
  rcases hresult : c.dynamicChannels.removeByChannelId id with ⟨set, _ | channel⟩
  · rw [hresult] at hremove
    exact ⟨⟨hremove.1, List.forall_mem_nil _⟩, h, List.forall_mem_nil _⟩
  · rw [hresult] at hremove
    have hdropped : ∀ p ∈ [channel.drop], life.Finished p := by
      intro p hp
      rw [List.mem_singleton.mp hp]
      exact hremove.2 channel rfl
    exact ⟨⟨hremove.1, hdropped⟩, hremove.1, hdropped⟩

theorem kept_processTunnel (h : c.dynamicChannels.Keeps life) (tunnelType : UInt32) (payload : Bytes) :
    Kept life (c.processTunnel tunnelType payload) := by
  unfold processTunnel
  rcases DrdynvcServerPdu.decode payload with e | ⟨pdu, rest⟩
  · exact ⟨h, List.forall_mem_nil _⟩
  cases pdu with
  | data data =>
      rcases hselected : c.tunnelForChannel data.channelId with _ | selected
      · simp only [hselected]
        exact ⟨h, List.forall_mem_nil _⟩
      · simp only [hselected]
        by_cases htunnel : tunnelType ≠ selected
        · rw [if_pos htunnel]
          exact ⟨h, List.forall_mem_nil _⟩
        · rw [if_neg htunnel]
          exact kept_processData h data
  | capabilities request => exact ⟨h, List.forall_mem_nil _⟩
  | create request => exact ⟨h, List.forall_mem_nil _⟩
  | close close => exact ⟨h, List.forall_mem_nil _⟩
  | softSyncRequest request => exact ⟨h, List.forall_mem_nil _⟩

theorem finished_drop (h : c.dynamicChannels.Keeps life) :
    ∀ p ∈ c.drop, life.Finished p := by
  intro p hp
  obtain ⟨row, hrow, rfl⟩ := List.mem_map.mp hp
  exact (h.active row hrow).drop

end DrdynvcClient

/-- What a listener gives was not started. -/
def Life.Gives [DvcChannelListener P L] (life : Life P) : Prop :=
  ∀ (l : L) (id : DynamicChannelId) (p : P), (DvcChannelListener.create l id).2 = some p → life.Fresh p

variable [DvcChannelListener P L]

namespace DynamicChannelSet

variable {s : DynamicChannelSet P L}

/-- A listener that was once used has no processor left. -/
theorem Keeps.create (h : s.Keeps life) (hgives : life.Gives (L := L)) {name : String}
    {row : String × ListenerEntry P L} (hrow : lookup Prod.fst s.listeners name = some row)
    (id : DynamicChannelId) :
    (∀ p, (row.2.listener.create id).1 = .once (some p) → life.Fresh p) ∧
      ∀ p, (row.2.listener.create id).2 = some p → life.Fresh p := by
  cases hlistener : row.2.listener with
  | once inner =>
      constructor
      · intro p hp
        cases hp
      · intro p hp
        change inner = some p at hp
        rw [hp] at hlistener
        exact h.listeners row (mem_of_lookup hrow) p hlistener
  | listener l =>
      constructor
      · intro p hp
        cases hp
      · exact hgives l id

theorem Keeps.tryCreate (h : s.Keeps life) (hgives : life.Gives (L := L)) (name : String)
    (id : DynamicChannelId) :
    (∃ s', s'.Keeps life ∧ s'.activeChannels = s.activeChannels ∧
        s.tryCreateChannel name id = (s', [], none)) ∨
      ∃ (s' : DynamicChannelSet P L) (dropped : List P) (processor : P), s'.Keeps life ∧
        s'.activeChannels = s.activeChannels ∧ (∀ p ∈ dropped, life.Finished p) ∧ life.Fresh processor ∧
        s.tryCreateChannel name id =
          (s'.setChannel id (.fromBoxed processor), dropped, some (.fromBoxed processor)) := by
  unfold tryCreateChannel
  cases hrow : lookup Prod.fst s.listeners name with
  | none => exact .inl ⟨s, h, rfl, rfl⟩
  | some row =>
      obtain ⟨hleft, hcreated⟩ := h.create hgives hrow id
      rcases hcreate : row.2.listener.create id with ⟨listener, _ | processor⟩
      · rw [hcreate] at hleft
        exact .inl ⟨_, h.putListener (name, ⟨listener, row.2.typeId⟩) hleft, rfl, by simp only [hcreate]⟩
      · rw [hcreate] at hleft hcreated
        refine .inr ⟨_, _, processor, (h.putListener (name, ⟨listener, row.2.typeId⟩) hleft).setTypeIds _,
          rfl, ?_, hcreated processor rfl, by simp only [hcreate]; rfl⟩
        intro p hp
        obtain ⟨channel, hchannel, rfl⟩ := List.mem_map.mp hp
        exact (h.runs (Option.mem_toList.mp hchannel)).drop

end DynamicChannelSet

namespace DrdynvcClient

variable {c : DrdynvcClient P L}

theorem kept_openChannel (h : c.dynamicChannels.Keeps life) (hgives : life.Gives (L := L)) (name : String)
    (id : DynamicChannelId) : Kept life (c.openChannel name id) := by
  unfold openChannel
  rcases h.tryCreate hgives name id with ⟨s', hs', -, heq⟩ | ⟨s', dropped, processor, hs', -, hdropped, hfresh, heq⟩
  · rw [heq]
    exact ⟨hs', List.forall_mem_nil _⟩
  · rw [heq]
    unfold DynamicVirtualChannel.start DynamicVirtualChannel.fromBoxed
    rcases hstart : DvcProcessor.start processor id with ⟨started, e | messages⟩
    · obtain ⟨typeIds, hremove⟩ := DynamicChannelSet.removeByChannelId_setChannel s' id
        ⟨started, .new, none⟩
      simp only [hstart, DynamicChannelSet.setChannel_setChannel, hremove]
      refine ⟨(hs'.erase id).setTypeIds typeIds, ?_⟩
      intro p hp
      rcases List.mem_append.mp hp with hold | hnew
      · exact hdropped p hold
      · rw [List.mem_singleton.mp hnew]
        exact life.fail hfresh hstart
    · simp only [hstart, DynamicChannelSet.setChannel_setChannel]
      exact ⟨hs'.setChannel ⟨rfl, life.start hfresh hstart⟩, hdropped⟩

theorem kept_processCreate (h : c.dynamicChannels.Keeps life) (hgives : life.Gives (L := L))
    (request : CreateRequestPdu) : Kept life (c.processCreate request) := by
  unfold processCreate
  have hopen : ∀ c' : DrdynvcClient P L, c'.dynamicChannels = c.dynamicChannels → ∀ responses,
      Kept life (c'.answerCreate responses request) := by
    intro c' hset responses
    rw [← hset] at h
    have hkept := kept_openChannel h hgives request.channelName request.channelId
    unfold answerCreate
    by_cases hnone : (c'.openChannel request.channelName request.channelId).2.2.2 = []
    · simp only [if_pos hnone]
      exact hkept
    · simp only [if_neg hnone]
      cases encodeDvcMessages request.channelId (c'.openChannel request.channelName request.channelId).2.2.2 with
      | error e => exact hkept
      | ok pdus => exact hkept
  by_cases hdone : c.capHandshakeDone
  · rw [if_pos hdone]
    exact hopen c rfl []
  · rw [if_neg hdone]
    exact hopen (c.createCapabilitiesResponse .v2).1 rfl [(c.createCapabilitiesResponse .v2).2]

theorem kept_process (h : c.dynamicChannels.Keeps life) (hgives : life.Gives (L := L)) (payload : Bytes) :
    Kept life (c.process payload) := by
  unfold process
  rcases DrdynvcServerPdu.decode payload with e | ⟨pdu, rest⟩
  · exact ⟨h, List.forall_mem_nil _⟩
  cases pdu with
  | capabilities request => exact ⟨h, List.forall_mem_nil _⟩
  | create request => exact kept_processCreate h hgives request
  | close close => exact (kept_closed h close.channelId).1
  | data data =>
      by_cases hroute : (c.tunnelForChannel data.channelId).isSome
      · simp only [if_pos hroute]
        exact ⟨h, List.forall_mem_nil _⟩
      · simp only [if_neg hroute]
        exact kept_processData h data
  | softSyncRequest request => exact kept_processSoftSyncRequest h request

end DrdynvcClient

/-- A processor that the session hands over was not started. -/
def ClientInput.Unused (life : Life P) : ClientInput P L → Prop
  | .attach channel => life.Fresh channel
  | .attachEstablished _ channel => life.Fresh channel
  | _ => True

namespace DrdynvcClient

theorem kept_step {c : DrdynvcClient P L} (h : c.dynamicChannels.Keeps life) (hgives : life.Gives (L := L))
    {input : ClientInput P L} (hunused : input.Unused life) :
    (c.step input).1.dynamicChannels.Keeps life ∧ ∀ p ∈ (c.step input).2, life.Finished p := by
  cases input with
  | attach channel =>
      refine ⟨h.putListener _ ?_, List.forall_mem_nil _⟩
      intro p hp
      cases hp
      exact hunused
  | attachListener listener =>
      refine ⟨h.putListener _ ?_, List.forall_mem_nil _⟩
      intro p hp
      cases hp
  | attachEstablished id channel => exact h.attachEstablished hunused id
  | payload payload => exact kept_process h hgives payload
  | tunnel tunnelType payload => exact kept_processTunnel h tunnelType payload
  | close id => exact (kept_closed h id).2
  | enableTunnel tunnelType => exact ⟨h, List.forall_mem_nil _⟩
  | disableTunnel tunnelType => exact ⟨h, List.forall_mem_nil _⟩

theorem kept_run {c : DrdynvcClient P L} (h : c.dynamicChannels.Keeps life) (hgives : life.Gives (L := L))
    {inputs : List (ClientInput P L)} (hunused : ∀ input ∈ inputs, input.Unused life) :
    (c.run inputs).1.dynamicChannels.Keeps life ∧ ∀ p ∈ (c.run inputs).2, life.Finished p := by
  induction inputs generalizing c with
  | nil => exact ⟨h, List.forall_mem_nil _⟩
  | cons input inputs ih =>
      have hstep := kept_step h hgives (hunused input List.mem_cons_self)
      have hrest := ih hstep.1 fun i hi => hunused i (List.mem_cons_of_mem input hi)
      refine ⟨hrest.1, ?_⟩
      intro p hp
      rcases List.mem_append.mp hp with hfirst | hlater
      · exact hstep.2 p hfirst
      · exact hrest.2 p hlater

/-- After any inputs, the processor that is asked for by its type is of that type, and runs on the channel whose
number comes with it. -/
theorem getDvc_run (hgives : life.Gives (L := L)) {inputs : List (ClientInput P L)}
    (hunused : ∀ input ∈ inputs, input.Unused life) {typeId : TypeId} {id : DynamicChannelId} {p : P}
    (hdvc : ((new : DrdynvcClient P L).run inputs).1.getDvc typeId = some (id, p)) :
    DvcProcessor.typeId p = typeId ∧ life.Opened id p ∧
      ∃ channel, ((new : DrdynvcClient P L).run inputs).1.dynamicChannels.getByChannelId id = some channel ∧
        channel.channelProcessor = p := by
  have hkeeps := (kept_run (c := new) DynamicChannelSet.keeps_new hgives hunused).1
  generalize ((new : DrdynvcClient P L).run inputs).1 = c at hkeeps hdvc ⊢
  unfold getDvc DynamicChannelSet.getByTypeId at hdvc
  simp only [Option.bind_eq_bind, Option.bind_eq_some_iff] at hdvc
  obtain ⟨channel, ⟨⟨_, key⟩, -, hchannel⟩, id', hid, hp⟩ := hdvc
  split_ifs at hp with htype
  -- The number that the channel was started with is the one that it is found by.
  obtain ⟨hkey, hopened⟩ := hkeeps.runs hchannel
  obtain rfl := Option.some.inj (hid.symm.trans hkey)
  obtain ⟨rfl, rfl⟩ := Prod.mk.inj (Option.some.inj hp)
  exact ⟨htype, hopened, channel, hchannel, rfl⟩

end DrdynvcClient

end Promise

/-! ### The calls of a processor -/

/-- A call of a processor, and whether a start succeeded. -/
inductive Call where
  | start (channelId : DynamicChannelId) (started : Bool)
  | process (channelId : DynamicChannelId) (data : Bytes)
  | close (channelId : DynamicChannelId)
  deriving DecidableEq

/-- A processor with the calls so far. -/
structure Recorded (P : Type) where
  processor : P
  calls : List Call

section Calls

variable {P L : Type} [DvcProcessor P]

instance recordedProcessor : DvcProcessor (Recorded P) where
  channelName p := DvcProcessor.channelName p.processor
  typeId p := DvcProcessor.typeId p.processor
  start p id :=
    let (processor, result) := DvcProcessor.start p.processor id
    (⟨processor, p.calls ++ [.start id result.isOk]⟩, result)
  process p id data :=
    let (processor, result) := DvcProcessor.process p.processor id data
    (⟨processor, p.calls ++ [.process id data]⟩, result)
  close p id := ⟨DvcProcessor.close p.processor id, p.calls ++ [.close id]⟩

/-- The calls while a channel is open. -/
def openCalls (id : DynamicChannelId) (data : List Bytes) : List Call := .start id true :: data.map (.process id)

/-- The calls of a processor that was refused, did not start, or was closed. -/
def FinishedCalls (calls : List Call) : Prop :=
  calls = [] ∨ (∃ id, calls = [.start id false]) ∨ ∃ id data, calls = openCalls id data ++ [.close id]

theorem openCalls_snoc (id : DynamicChannelId) (data : List Bytes) (last : Bytes) :
    openCalls id (data ++ [last]) = openCalls id data ++ [.process id last] := by
  unfold openCalls
  rw [List.map_append]
  rfl

/-- The life of a processor as its calls show it. -/
def recordedLife : Life (Recorded P) where
  Fresh p := p.calls = []
  Opened id p := ∃ data, p.calls = openCalls id data
  Finished p := FinishedCalls p.calls
  refuse h := .inl h
  start := by
    intro p q id messages hfresh hstart
    have hcalls := congrArg (fun result => result.1.calls) hstart
    have hok := congrArg (fun result => result.2.isOk) hstart
    change p.calls ++ [.start id (DvcProcessor.start p.processor id).2.isOk] = q.calls at hcalls
    change (DvcProcessor.start p.processor id).2.isOk = true at hok
    rw [hfresh, hok] at hcalls
    exact ⟨[], hcalls.symm⟩
  fail := by
    intro p q id e hfresh hstart
    have hcalls := congrArg (fun result => result.1.calls) hstart
    have hok := congrArg (fun result => result.2.isOk) hstart
    change p.calls ++ [.start id (DvcProcessor.start p.processor id).2.isOk] = q.calls at hcalls
    change (DvcProcessor.start p.processor id).2.isOk = false at hok
    rw [hfresh, hok] at hcalls
    exact .inr (.inl ⟨id, hcalls.symm⟩)
  process := by
    rintro p id last ⟨data, hdata⟩
    refine ⟨data ++ [last], ?_⟩
    change p.calls ++ [.process id last] = _
    rw [hdata, openCalls_snoc]
  close := by
    rintro p id ⟨data, hdata⟩
    refine .inr (.inr ⟨id, data, ?_⟩)
    change p.calls ++ [.close id] = _
    rw [hdata]

theorem called_in_order [DvcChannelListener (Recorded P) L]
    (hgives : (recordedLife : Life (Recorded P)).Gives (L := L)) (inputs : List (ClientInput (Recorded P) L))
    (hunused : ∀ input ∈ inputs, input.Unused recordedLife) :
    (∀ id channel,
        ((DrdynvcClient.new : DrdynvcClient (Recorded P) L).run inputs).1.dynamicChannels.getByChannelId id =
          some channel → ∃ data, channel.channelProcessor.calls = openCalls id data) ∧
      ∀ p ∈ ((DrdynvcClient.new : DrdynvcClient (Recorded P) L).run inputs).2 ++
          ((DrdynvcClient.new : DrdynvcClient (Recorded P) L).run inputs).1.drop, FinishedCalls p.calls := by
  obtain ⟨hkeeps, hdropped⟩ := DrdynvcClient.kept_run (c := .new) DynamicChannelSet.keeps_new hgives hunused
  constructor
  · intro id channel hchannel
    exact (hkeeps.runs hchannel).2
  · intro p hp
    rcases List.mem_append.mp hp with hfirst | hlast
    · exact hdropped p hfirst
    · exact DrdynvcClient.finished_drop hkeeps p hlast

end Calls

/-- A processor that answers nothing. -/
structure TestDvc where

instance testDvc : DvcProcessor TestDvc where
  channelName _ := "test"
  typeId _ := 0
  start p _ := (p, .ok [])
  process p _ _ := (p, .ok [])
  close p _ := p

instance noListener : DvcChannelListener (Recorded TestDvc) Empty where
  channelName l := l.elim
  create l _ := l.elim

/-- One channel is opened, given data and closed, another is attached. -/
def testInputs : List (ClientInput (Recorded TestDvc) Empty) :=
  [.attach ⟨⟨⟩, []⟩, .payload [0x10, 7, 0x74, 0x65, 0x73, 0x74, 0], .payload [0x30, 7, 1, 2], .payload [0x40, 7],
    .attachEstablished 8 ⟨⟨⟩, []⟩]

theorem called_in_order_test :
    (∀ id channel,
        ((DrdynvcClient.new : DrdynvcClient (Recorded TestDvc) Empty).run testInputs).1.dynamicChannels.getByChannelId
          id = some channel → ∃ data, channel.channelProcessor.calls = openCalls id data) ∧
      ∀ p ∈ ((DrdynvcClient.new : DrdynvcClient (Recorded TestDvc) Empty).run testInputs).2 ++
          ((DrdynvcClient.new : DrdynvcClient (Recorded TestDvc) Empty).run testInputs).1.drop,
        FinishedCalls p.calls :=
  called_in_order (by intro l; exact l.elim) testInputs (by
    intro input hinput
    rcases List.mem_cons.mp hinput with rfl | hinput
    · rfl
    rcases List.mem_cons.mp hinput with rfl | hinput
    · trivial
    rcases List.mem_cons.mp hinput with rfl | hinput
    · trivial
    rcases List.mem_cons.mp hinput with rfl | hinput
    · trivial
    rw [List.mem_singleton.mp hinput]
    rfl)

end Drift.Channel
