import Drift.Channel.Pdu
import Drift.Lib.Table

/-!
# The client of the dynamic channels

The server opens channels by name and by number, and the data of all of them comes in one sequence of PDUs. What
handles a channel is a `DvcProcessor`, that a listener gives for the channel. A processor is dropped with its
channel, and so every step returns the processors that it drops.
-/

namespace Drift.Channel

open Pdu Table

/-- `PduError`, with the errors of the processors. -/
inductive PduError where
  | decode (e : DecodeError)
  | encode (e : EncodeError)
  | other (reason : String)
  deriving DecidableEq

abbrev DynamicChannelId := UInt32

abbrev TypeId := Nat

/-- Processors of any type. Their messages are encoded. -/
class DvcProcessor (P : Type) where
  channelName : P → String
  typeId : P → TypeId
  start : P → DynamicChannelId → P × Except PduError (List Bytes)
  process : P → DynamicChannelId → Bytes → P × Except PduError (List Bytes)
  close : P → DynamicChannelId → P

class DvcChannelListener (P : outParam Type) (L : Type) where
  channelName : L → String
  /-- `none` rejects the channel. -/
  create : L → DynamicChannelId → L × Option P

/-! ### Messages of a channel -/

/-- The PDUs of a message from an offset on, in at most `fuel` rounds. -/
def dataPdusFrom (channelId : DynamicChannelId) (message : Bytes) : Nat → Nat → List DrdynvcDataPdu
  | 0, _ => []
  | fuel + 1, off =>
    let totalLength := message.length
    if off < totalLength then
      let size := min (totalLength - off) DrdynvcDataPdu.maxDataSize
      let data := (message.take (off + size)).drop off
      let pdu : DrdynvcDataPdu :=
        if totalLength ≥ DrdynvcDataPdu.maxDataSize ∧ off = 0 then
          .dataFirst (.new channelId (.ofNat totalLength) data)
        else .data (.new channelId data)
      pdu :: dataPdusFrom channelId message fuel (off + size)
    else []

def encodeDvcMessage (channelId : DynamicChannelId) (message : Bytes) :
    Except EncodeError (List DrdynvcDataPdu) :=
  if message.length ≥ DrdynvcDataPdu.maxDataSize ∧ message.length > u32Max then
    .error (.invalidField "total_length" "out of range integral type conversion")
  else .ok (dataPdusFrom channelId message (message.length + 1) 0)

def encodeDvcMessages (channelId : DynamicChannelId) (messages : List Bytes) :
    Except EncodeError (List DrdynvcDataPdu) := do
  let pdus ← messages.mapM (encodeDvcMessage channelId)
  return pdus.flatten

/-- Puts the parts of a message together. -/
structure CompleteData where
  totalSize : Nat
  data : Bytes
  deriving DecidableEq

namespace CompleteData

def new : CompleteData := ⟨0, []⟩

/-- What was incomplete is skipped. -/
def processDataFirstPdu (c : CompleteData) (pdu : DataFirstPdu) : CompleteData × Option Bytes :=
  if pdu.length.toNat = pdu.data.length then ({ c with data := [] }, some pdu.data)
  else (⟨pdu.length.toNat, pdu.data⟩, none)

def processDataPdu (c : CompleteData) (pdu : DataPdu) : CompleteData × Option Bytes :=
  if c.totalSize = 0 ∧ c.data = [] then (c, some pdu.data)
  else
    let actual := c.data ++ pdu.data
    if actual.length < c.totalSize then ({ c with data := actual }, none)
    else if actual.length = c.totalSize then (⟨0, []⟩, some actual)
    else (⟨0, []⟩, none)

def processData (c : CompleteData) : DrdynvcDataPdu → CompleteData × Option Bytes
  | .dataFirst pdu => c.processDataFirstPdu pdu
  | .data pdu => c.processDataPdu pdu

end CompleteData

/-! ### One channel -/

structure DynamicVirtualChannel (P : Type) where
  channelProcessor : P
  completeData : CompleteData
  /-- Set once the processor has started. -/
  channelId : Option DynamicChannelId

namespace DynamicVirtualChannel

variable {P : Type} [DvcProcessor P]

def fromBoxed (processor : P) : DynamicVirtualChannel P := ⟨processor, .new, none⟩

/-- The processor as it is dropped. -/
def drop (c : DynamicVirtualChannel P) : P :=
  match c.channelId with
  | some id => DvcProcessor.close c.channelProcessor id
  | none => c.channelProcessor

def start (c : DynamicVirtualChannel P) (channelId : DynamicChannelId) :
    DynamicVirtualChannel P × Except PduError (List Bytes) :=
  match DvcProcessor.start c.channelProcessor channelId with
  | (processor, .ok messages) =>
    ({ c with channelProcessor := processor, channelId := some channelId }, .ok messages)
  | (processor, .error e) => ({ c with channelProcessor := processor }, .error e)

def process (c : DynamicVirtualChannel P) (pdu : DrdynvcDataPdu) :
    DynamicVirtualChannel P × Except PduError (List Bytes) :=
  match c.completeData.processData pdu with
  | (completeData, none) => ({ c with completeData := completeData }, .ok [])
  | (completeData, some data) =>
    let (processor, result) := DvcProcessor.process c.channelProcessor pdu.channelId data
    (⟨processor, completeData, c.channelId⟩, result)

end DynamicVirtualChannel

/-! ### The channels by number, and the listeners by name -/

inductive Listener (P L : Type) where
  /-- `OnceListener`. -/
  | once (inner : Option P)
  | listener (listener : L)

structure ListenerEntry (P L : Type) where
  listener : Listener P L
  typeId : Option TypeId

structure DynamicChannelSet (P L : Type) where
  listeners : List (String × ListenerEntry P L)
  activeChannels : List (DynamicChannelId × DynamicVirtualChannel P)
  typeIdToChannelId : List (TypeId × DynamicChannelId)

namespace Listener

variable {P L : Type} [DvcChannelListener P L]

def create (channelId : DynamicChannelId) : Listener P L → Listener P L × Option P
  | once inner => (once none, inner)
  | listener l =>
    let (l, processor) := DvcChannelListener.create l channelId
    (listener l, processor)

end Listener

namespace DynamicChannelSet

variable {P L : Type} [DvcProcessor P] [DvcChannelListener P L]

def new : DynamicChannelSet P L := ⟨[], [], []⟩

def registerListener (s : DynamicChannelSet P L) (listener : L) : DynamicChannelSet P L :=
  let name := DvcChannelListener.channelName listener
  { s with listeners := put Prod.fst (name, ⟨.listener listener, none⟩) s.listeners }

def registerOnce (s : DynamicChannelSet P L) (channel : P) : DynamicChannelSet P L :=
  let name := DvcProcessor.channelName channel
  let entry := ⟨.once (some channel), some (DvcProcessor.typeId channel)⟩
  { s with listeners := put Prod.fst (name, entry) s.listeners }

def getByChannelId (s : DynamicChannelSet P L) (id : DynamicChannelId) : Option (DynamicVirtualChannel P) :=
  (lookup Prod.fst s.activeChannels id).map Prod.snd

def setChannel (s : DynamicChannelSet P L) (id : DynamicChannelId) (channel : DynamicVirtualChannel P) :
    DynamicChannelSet P L :=
  { s with activeChannels := put Prod.fst (id, channel) s.activeChannels }

def getByTypeId (s : DynamicChannelSet P L) (typeId : TypeId) : Option (DynamicVirtualChannel P) := do
  let (_, id) ← lookup Prod.fst s.typeIdToChannelId typeId
  s.getByChannelId id

/-- The channel is not started yet. A channel that had the number is dropped. -/
def tryCreateChannel (s : DynamicChannelSet P L) (name : String) (channelId : DynamicChannelId) :
    DynamicChannelSet P L × List P × Option (DynamicVirtualChannel P) :=
  match lookup Prod.fst s.listeners name with
  | none => (s, [], none)
  | some (_, entry) =>
    let (listener, created) := entry.listener.create channelId
    let s := { s with listeners := put Prod.fst (name, { entry with listener := listener }) s.listeners }
    match created with
    | none => (s, [], none)
    | some processor =>
      let typeIds :=
        match entry.typeId with
        | some typeId => put Prod.fst (typeId, channelId) s.typeIdToChannelId
        | none => s.typeIdToChannelId
      let channel := .fromBoxed processor
      ({ s with typeIdToChannelId := typeIds }.setChannel channelId channel,
        (s.getByChannelId channelId).toList.map DynamicVirtualChannel.drop, some channel)

def removeByChannelId (s : DynamicChannelSet P L) (id : DynamicChannelId) :
    DynamicChannelSet P L × Option (DynamicVirtualChannel P) :=
  match s.getByChannelId id with
  | none => (s, none)
  | some channel =>
    let typeId := DvcProcessor.typeId channel.channelProcessor
    let typeIds :=
      if lookup Prod.fst s.typeIdToChannelId typeId = some (typeId, id) then
        erase Prod.fst s.typeIdToChannelId typeId
      else s.typeIdToChannelId
    ({ s with activeChannels := erase Prod.fst s.activeChannels id, typeIdToChannelId := typeIds },
      some channel)

/-- A channel whose number is taken is refused. -/
def attachEstablishedChannel (s : DynamicChannelSet P L) (channelId : DynamicChannelId) (processor : P) :
    DynamicChannelSet P L × List P × Except PduError Unit :=
  if (s.getByChannelId channelId).isSome then
    (s, [processor], .error (.other "dynamic channel ID is already attached"))
  else
    match (DynamicVirtualChannel.fromBoxed processor).start channelId with
    | (channel, .error e) => (s, [channel.drop], .error e)
    | (channel, .ok _) => (s.setChannel channelId channel, [], .ok ())

end DynamicChannelSet

/-! ### The client -/

structure DrdynvcClient (P L : Type) where
  dynamicChannels : DynamicChannelSet P L
  capHandshakeDone : Bool
  availableTunnels : List UInt32
  tunnelChannels : List (DynamicChannelId × UInt32)
  softSyncComplete : Bool

namespace DrdynvcClient

variable {P L : Type} [DvcProcessor P] [DvcChannelListener P L]

/-- The client, the processors that were dropped, and the result. -/
abbrev Outcome (P L α : Type) := DrdynvcClient P L × List P × Except PduError α

def new : DrdynvcClient P L := ⟨.new, false, [], [], false⟩

def attachDynamicChannel (c : DrdynvcClient P L) (channel : P) : DrdynvcClient P L :=
  { c with dynamicChannels := c.dynamicChannels.registerOnce channel }

def attachListener (c : DrdynvcClient P L) (listener : L) : DrdynvcClient P L :=
  { c with dynamicChannels := c.dynamicChannels.registerListener listener }

def attachEstablishedDynamicChannel (c : DrdynvcClient P L) (channelId : DynamicChannelId) (channel : P) :
    Outcome P L Unit :=
  let (set, dropped, result) := c.dynamicChannels.attachEstablishedChannel channelId channel
  ({ c with dynamicChannels := set }, dropped, result)

/-- The processor of a type, and its channel. -/
def getDvc (c : DrdynvcClient P L) (typeId : TypeId) : Option (DynamicChannelId × P) := do
  let channel ← c.dynamicChannels.getByTypeId typeId
  let channelId ← channel.channelId
  if DvcProcessor.typeId channel.channelProcessor = typeId then
    return (channelId, channel.channelProcessor)
  else none

def createCapabilitiesResponse (c : DrdynvcClient P L) (serverVersion : CapsVersion) :
    DrdynvcClient P L × DrdynvcClientPdu :=
  ({ c with capHandshakeDone := true }, .capabilities (.new serverVersion))

def closeChannel (c : DrdynvcClient P L) (channelId : DynamicChannelId) :
    DrdynvcClient P L × List P × Option DrdynvcClientPdu :=
  match c.dynamicChannels.removeByChannelId channelId with
  | (_, none) => (c, [], none)
  | (set, some channel) =>
    ({ c with
        dynamicChannels := set
        tunnelChannels := erase Prod.fst c.tunnelChannels channelId },
      [channel.drop], some (.close (.new channelId)))

def enableSoftSyncTunnel (c : DrdynvcClient P L) (tunnelType : UInt32) : DrdynvcClient P L :=
  { c with availableTunnels := c.availableTunnels.insert tunnelType }

def disableSoftSyncTunnel (c : DrdynvcClient P L) (tunnelType : UInt32) : DrdynvcClient P L :=
  { c with availableTunnels := c.availableTunnels.filter (· ≠ tunnelType) }

def tunnelForChannel (c : DrdynvcClient P L) (channelId : DynamicChannelId) : Option UInt32 :=
  (lookup Prod.fst c.tunnelChannels channelId).map Prod.snd

def processData (c : DrdynvcClient P L) (data : DrdynvcDataPdu) : Outcome P L (List DrdynvcClientPdu) :=
  match c.dynamicChannels.getByChannelId data.channelId with
  | none => (c, [], .error (.other "access to non existing DVC channel"))
  | some channel =>
    let (channel, result) := channel.process data
    let c := { c with dynamicChannels := c.dynamicChannels.setChannel data.channelId channel }
    match result with
    | .error e => (c, [], .error e)
    | .ok messages =>
      match encodeDvcMessages data.channelId messages with
      | .error e => (c, [], .error (.encode e))
      | .ok pdus => (c, [], .ok (pdus.map .data))

def processTunnel (c : DrdynvcClient P L) (tunnelType : UInt32) (payload : Bytes) :
    Outcome P L (List DrdynvcClientPdu) :=
  match DrdynvcServerPdu.decode payload with
  | .error e => (c, [], .error (.decode e))
  | .ok (.data data, _) =>
    match c.tunnelForChannel data.channelId with
    | none => (c, [], .error (.other "received tunneled data for a channel not selected by Soft-Sync"))
    | some selectedTunnel =>
      if tunnelType ≠ selectedTunnel then
        (c, [], .error (.other "received tunneled data on a tunnel not selected for the dynamic channel"))
      else c.processData data
  | .ok _ => (c, [], .error (.other "only DVC data is permitted on a multitransport tunnel"))

/-- The channels that move to a tunnel, and the tunnels, after more lists. A list with a channel that does
not exist is passed over. -/
def selectTunnels (c : DrdynvcClient P L) (tunnelChannels : List (DynamicChannelId × UInt32))
    (tunnelsToSwitch : List UInt32) :
    List SoftSyncChannelList → Except PduError (List (DynamicChannelId × UInt32) × List UInt32)
  | [] => .ok (tunnelChannels, tunnelsToSwitch)
  | list :: lists =>
    if list.tunnelType ∉ c.availableTunnels then
      .error (.other "soft-sync request selected an unavailable tunnel")
    else if list.channelIds.all fun id => (c.dynamicChannels.getByChannelId id).isSome then
      c.selectTunnels
        (list.channelIds.foldl (fun rows id => put Prod.fst (id, list.tunnelType) rows) tunnelChannels)
        (tunnelsToSwitch ++ [list.tunnelType]) lists
    else c.selectTunnels tunnelChannels tunnelsToSwitch lists

def processSoftSyncRequest (c : DrdynvcClient P L) (request : SoftSyncRequestPdu) :
    Outcome P L (List DrdynvcClientPdu) :=
  if c.softSyncComplete then (c, [], .error (.other "received duplicate Soft-Sync request"))
  else
    match c.selectTunnels [] [] request.channelLists with
    | .error e => (c, [], .error e)
    | .ok (tunnelChannels, tunnelsToSwitch) =>
      ({ c with tunnelChannels := tunnelChannels, softSyncComplete := true }, [],
        .ok [.softSyncResponse ⟨tunnelsToSwitch⟩])

/-- Opens a channel: its status, and the first messages of its processor. -/
def openChannel (c : DrdynvcClient P L) (name : String) (channelId : DynamicChannelId) :
    DrdynvcClient P L × List P × UInt32 × List Bytes :=
  match c.dynamicChannels.tryCreateChannel name channelId with
  | (set, dropped, none) => ({ c with dynamicChannels := set }, dropped, creationStatusNoListener, [])
  | (set, dropped, some channel) =>
    match channel.start channelId with
    | (channel, .ok messages) =>
      ({ c with dynamicChannels := set.setChannel channelId channel }, dropped, creationStatusOk, messages)
    | (channel, .error _) =>
      let (set, removed) := (set.setChannel channelId channel).removeByChannelId channelId
      ({ c with dynamicChannels := set }, dropped ++ removed.toList.map DynamicVirtualChannel.drop,
        creationStatusNoListener, [])

/-- The responses to a request for a channel, after others. -/
def answerCreate (c : DrdynvcClient P L) (responses : List DrdynvcClientPdu) (request : CreateRequestPdu) :
    Outcome P L (List DrdynvcClientPdu) :=
  let channelId := request.channelId
  let (c, dropped, creationStatus, startMessages) := c.openChannel request.channelName channelId
  let responses := responses ++ [.create (.new channelId creationStatus)]
  if startMessages = [] then (c, dropped, .ok responses)
  else
    match encodeDvcMessages channelId startMessages with
    | .error e => (c, dropped, .error (.encode e))
    | .ok pdus => (c, dropped, .ok (responses ++ pdus.map .data))

/-- A server that has not asked for the capabilities is told them first. -/
def processCreate (c : DrdynvcClient P L) (request : CreateRequestPdu) :
    Outcome P L (List DrdynvcClientPdu) :=
  if c.capHandshakeDone then c.answerCreate [] request
  else
    let (c, response) := c.createCapabilitiesResponse .v2
    c.answerCreate [response] request

/-- A channel that the server closes keeps its tunnel. -/
def processClose (c : DrdynvcClient P L) (channelId : DynamicChannelId) :
    Outcome P L (List DrdynvcClientPdu) :=
  match c.dynamicChannels.removeByChannelId channelId with
  | (set, none) => ({ c with dynamicChannels := set }, [], .ok [])
  | (set, some channel) =>
    ({ c with dynamicChannels := set }, [channel.drop], .ok [.close (.new channelId)])

def process (c : DrdynvcClient P L) (payload : Bytes) : Outcome P L (List DrdynvcClientPdu) :=
  match DrdynvcServerPdu.decode payload with
  | .error e => (c, [], .error (.decode e))
  | .ok (.capabilities request, _) =>
    let (c, response) := c.createCapabilitiesResponse request.version
    (c, [], .ok [response])
  | .ok (.create request, _) => c.processCreate request
  | .ok (.close close, _) => c.processClose close.channelId
  | .ok (.data data, _) =>
    if (c.tunnelForChannel data.channelId).isSome then
      (c, [], .error (.other "received TCP data for a channel selected by Soft-Sync"))
    else c.processData data
  | .ok (.softSyncRequest request, _) => c.processSoftSyncRequest request

/-- The processors that go with the client. -/
def drop (c : DrdynvcClient P L) : List P :=
  c.dynamicChannels.activeChannels.map fun channel => channel.2.drop

end DrdynvcClient

end Drift.Channel
