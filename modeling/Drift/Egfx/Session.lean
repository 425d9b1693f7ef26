import Drift.Channel.Client
import Drift.Egfx.Server
import Drift.Gfx.Payload
import Drift.Zgfx.Decompressor

/-!
# The graphics channel from end to end

What the client makes of the PDUs of the server: the payloads of its channel are decompressed and decoded, and the
acknowledgements go back. And the server as a machine that its owner and the client drive.
-/

namespace Drift.Egfx

open Pdu

/-! ### The PDUs of the client -/

namespace GfxPdu

def readRectangle (r : ExclusiveRectangle) : Codec.ExclusiveRectangle :=
  ⟨r.left.toNat, r.top.toNat, r.right.toNat, r.bottom.toNat⟩

def readPoint (p : Point) : Drift.Point := ⟨p.x.toNat, p.y.toNat⟩

/-- The bytes of a capability set that the client parses. -/
def capsBytes (raw : RawCapabilitySet) : Bytes := le32 raw.version ++ raw.data

/-- What the client reads of a PDU. -/
def read : GfxPdu → Gfx.GfxPdu
  | wireToSurface1 pdu =>
    .wireToSurface1 ⟨pdu.surfaceId, pdu.codecId, pdu.pixelFormat, readRectangle pdu.destinationRectangle,
      pdu.bitmapData⟩
  | wireToSurface2 pdu => .wireToSurface2 ⟨pdu.surfaceId, pdu.codecContextId, pdu.bitmapData⟩
  | deleteEncodingContext pdu => .deleteEncodingContext pdu.surfaceId pdu.codecContextId
  | solidFill pdu =>
    .solidFill ⟨pdu.surfaceId, ⟨pdu.fillPixel.b, pdu.fillPixel.g, pdu.fillPixel.r, pdu.fillPixel.xa⟩,
      pdu.rectangles.map readRectangle⟩
  | surfaceToSurface pdu =>
    .surfaceToSurface ⟨pdu.sourceSurfaceId, pdu.destinationSurfaceId, readRectangle pdu.sourceRectangle,
      pdu.destinationPoints.map readPoint⟩
  | surfaceToCache pdu => .surfaceToCache ⟨pdu.surfaceId, pdu.cacheSlot, readRectangle pdu.sourceRectangle⟩
  | cacheToSurface pdu => .cacheToSurface ⟨pdu.cacheSlot, pdu.surfaceId, pdu.destinationPoints.map readPoint⟩
  | evictCacheEntry pdu => .evictCacheEntry pdu.cacheSlot
  | createSurface pdu => .createSurface pdu.surfaceId pdu.width pdu.height pdu.pixelFormat
  | deleteSurface pdu => .deleteSurface pdu.surfaceId
  | startFrame _ => .startFrame
  | endFrame pdu => .endFrame pdu.frameId
  | frameAcknowledge _ => .frameAcknowledge
  | resetGraphics pdu => .resetGraphics pdu.width.toNat pdu.height.toNat
  | mapSurfaceToOutput pdu => .mapSurfaceToOutput pdu.surfaceId pdu.outputOriginX.toNat pdu.outputOriginY.toNat
  | cacheImportOffer _ => .cacheImportOffer
  | cacheImportReply _ => .cacheImportReply
  | capabilitiesAdvertise _ => .capabilitiesAdvertise
  | capabilitiesConfirm raw => .capabilitiesConfirm (capsBytes raw)
  | mapSurfaceToWindow _ => .mapSurfaceToWindow
  | qoeFrameAcknowledge _ => .qoeFrameAcknowledge
  | mapSurfaceToScaledOutput pdu =>
    .mapSurfaceToScaledOutput pdu.surfaceId pdu.outputOriginX.toNat pdu.outputOriginY.toNat
  | mapSurfaceToScaledWindow _ => .mapSurfaceToScaledWindow

end GfxPdu

/-! ### The channel of the client -/

/-- How the errors of the decompressor and of the decoders are written. -/
structure Messages where
  zgfx : Zgfx.ZgfxError → String
  decode : DecodeError → String

/-- The decompressor and the decoder that the client is built with. -/
def wire (m : Messages) : Gfx.Wire Zgfx.Decompressor where
  newZgfx := .new
  decompress zgfx payload :=
    let (result, zgfx, output) := zgfx.decompress payload []
    (zgfx, (result.map fun _ => output).mapError m.zgfx)
  decodePdu bytes := ((GfxPdu.decode bytes).map fun decoded => decoded.1.read).mapError m.decode

/-- The client with what it was given, as the processor of its channel. -/
structure GfxProcessor (Clear H264 Frame Caps : Type) where
  messages : Messages
  decoders : Gfx.Decoders Clear H264 Frame Caps
  sink : Gfx.Presenter Frame
  channel : Gfx.GfxChannel Zgfx.Decompressor Clear H264 Caps
  /-- The error of the last call that failed. -/
  error : Option Gfx.GfxError

namespace GfxProcessor

variable {Clear H264 Frame Caps : Type}

def new (messages : Messages) (decoders : Gfx.Decoders Clear H264 Frame Caps) (sink : Gfx.Presenter Frame)
    (h264 : H264) : GfxProcessor Clear H264 Frame Caps :=
  ⟨messages, decoders, sink, .new (wire messages) decoders h264, none⟩

def queueDepth : Gfx.QueueDepth → QueueDepth
  | .unavailable => .unavailable
  | .availableBytes n => .availableBytes (.ofNat n)
  | .suspend => .suspend

/-- The PDU of an acknowledgement. -/
def ackPdu (ack : Gfx.FrameAcknowledge) : GfxPdu :=
  .frameAcknowledge ⟨queueDepth ack.queueDepth, ack.frameId, .ofNat ack.totalFramesDecoded⟩

/-- `drain_messages`, encoded; the encoder does not fail. -/
def ackMessages (acks : List Gfx.FrameAcknowledge) : List Bytes :=
  acks.filterMap fun ack => (ackPdu ack).encode.toOption

/-- Processes one payload, and gives the acknowledgements that are due. -/
def process (p : GfxProcessor Clear H264 Frame Caps) (payload : Bytes) :
    GfxProcessor Clear H264 Frame Caps × Except Channel.PduError (List Bytes) :=
  match p.channel.processPayload (wire p.messages) p.decoders p.sink payload with
  | (channel, .error e) => ({ p with channel := channel, error := some e }, .error (.other "graphics pipeline"))
  | (channel, .ok ()) =>
    let (acks, drained) := channel.client.acks.drain
    ({ p with channel := { channel with client := { channel.client with acks := acks } } },
      .ok (ackMessages drained))

end GfxProcessor

instance gfxProcessor {Clear H264 Frame Caps : Type} :
    Channel.DvcProcessor (GfxProcessor Clear H264 Frame Caps) where
  channelName _ := "Microsoft::Windows::RDS::Graphics"
  typeId _ := 0
  start p _ := (p, .ok capsAdvertisePdu.encode.toOption.toList)
  process p _ payload := p.process payload
  close p _ := p

/-- A processor of one kind or of another. -/
instance eitherProcessor {P Q : Type} [Channel.DvcProcessor P] [Channel.DvcProcessor Q] :
    Channel.DvcProcessor (P ⊕ Q) where
  channelName := Sum.elim Channel.DvcProcessor.channelName Channel.DvcProcessor.channelName
  typeId := Sum.elim (fun p => 2 * Channel.DvcProcessor.typeId p) fun q => 2 * Channel.DvcProcessor.typeId q + 1
  start
    | .inl p, channelId =>
      let (p, result) := Channel.DvcProcessor.start p channelId
      (.inl p, result)
    | .inr q, channelId =>
      let (q, result) := Channel.DvcProcessor.start q channelId
      (.inr q, result)
  process
    | .inl p, channelId, payload =>
      let (p, result) := Channel.DvcProcessor.process p channelId payload
      (.inl p, result)
    | .inr q, channelId, payload =>
      let (q, result) := Channel.DvcProcessor.process q channelId payload
      (.inr q, result)
  close
    | .inl p, channelId => .inl (Channel.DvcProcessor.close p channelId)
    | .inr q, channelId => .inr (Channel.DvcProcessor.close q channelId)

/-! ### Runs of the server -/

/-- What the owner of an open channel and the client do to the server. -/
inductive ServerInput where
  | setOutputDimensions (width height : UInt16)
  | createSurface (width height : UInt16) (pixelFormat : Gfx.PixelFormat)
  | deleteSurface (surfaceId : UInt16)
  | mapSurfaceToOutput (surfaceId : UInt16) (originX originY : UInt32)
  | resize (width height : UInt16) (monitors : List Monitor)
  | setMaxFramesInFlight (max : UInt32)
  | sendAvc420Frame (surfaceId : UInt16) (h264Data : Bytes) (regions : List Avc420Region) (timestampMs : UInt32)
  | sendAvc444Frame (surfaceId : UInt16) (lumaData : Bytes) (lumaRegions : List Avc420Region)
    (chromaData : Option Bytes) (chromaRegions : Option (List Avc420Region)) (timestampMs : UInt32)
  | sendAvc444v2Frame (surfaceId : UInt16) (encoding : UInt8) (stream1Data : Bytes)
    (stream1Regions : List Avc420Region) (stream2Data : Option Bytes)
    (stream2Regions : Option (List Avc420Region)) (timestampMs : UInt32)
  | sendPlanarFrame (surfaceId : UInt16) (planarData : Bytes) (destWidth destHeight : UInt16) (timestampMs : UInt32)
  | sendUncompressedFrame (surfaceId : UInt16) (bitmapData : Bytes) (destWidth destHeight : UInt16)
    (timestampMs : UInt32)
  | sendRemotefxProgressiveFrame (surfaceId : UInt16) (codecContextId : UInt32) (progressiveData : Bytes)
    (timestampMs : UInt32)
  | sendClearcodecFrame (surfaceId : UInt16) (destinationRectangle : ExclusiveRectangle) (bitmapData : Bytes)
    (timestampMs : UInt32)
  | sendMixedFrame (surfaceId : UInt16) (tiles : List MixedTilePayload) (timestampMs : UInt32)
  | pdu (pdu : GfxPdu)
  | drain
  deriving DecidableEq

namespace GraphicsPipelineServer

/-- One input, and the PDUs that leave the queue. -/
def step (h : Handler) (s : GraphicsPipelineServer) : ServerInput → GraphicsPipelineServer × List GfxPdu
  | .setOutputDimensions width height => (s.setOutputDimensions width height, [])
  | .createSurface width height pixelFormat => ((s.createSurfaceWithFormat width height pixelFormat).2, [])
  | .deleteSurface surfaceId => ((s.deleteSurface surfaceId).2, [])
  | .mapSurfaceToOutput surfaceId originX originY => ((s.mapSurfaceToOutput surfaceId originX originY).2, [])
  | .resize width height monitors => (s.resizeWithMonitors width height monitors, [])
  | .setMaxFramesInFlight max => (s.setMaxFramesInFlight max, [])
  | .sendAvc420Frame surfaceId h264Data regions timestampMs =>
    ((s.sendAvc420Frame surfaceId h264Data regions timestampMs).2, [])
  | .sendAvc444Frame surfaceId lumaData lumaRegions chromaData chromaRegions timestampMs =>
    ((s.sendAvc444Frame surfaceId lumaData lumaRegions chromaData chromaRegions timestampMs).2, [])
  | .sendAvc444v2Frame surfaceId encoding stream1Data stream1Regions stream2Data stream2Regions timestampMs =>
    ((s.sendAvc444v2Frame surfaceId encoding stream1Data stream1Regions stream2Data stream2Regions timestampMs).2,
      [])
  | .sendPlanarFrame surfaceId planarData destWidth destHeight timestampMs =>
    ((s.sendPlanarFrame surfaceId planarData destWidth destHeight timestampMs).2, [])
  | .sendUncompressedFrame surfaceId bitmapData destWidth destHeight timestampMs =>
    ((s.sendUncompressedFrame surfaceId bitmapData destWidth destHeight timestampMs).2, [])
  | .sendRemotefxProgressiveFrame surfaceId codecContextId progressiveData timestampMs =>
    ((s.sendRemotefxProgressiveFrame surfaceId codecContextId progressiveData timestampMs).2, [])
  | .sendClearcodecFrame surfaceId destinationRectangle bitmapData timestampMs =>
    ((s.sendClearcodecFrame surfaceId destinationRectangle bitmapData timestampMs).2, [])
  | .sendMixedFrame surfaceId tiles timestampMs => ((s.sendMixedFrame surfaceId tiles timestampMs).2, [])
  | .pdu pdu => (s.handlePdu h pdu, [])
  | .drain =>
    match s.drainOutput with
    | some (_, s') => (s', s.outputQueue)
    | none => (s, [])

/-- The PDUs that have left the queue in a run, and those that are still in it. -/
def queued (h : Handler) (s : GraphicsPipelineServer) (inputs : List ServerInput) : List GfxPdu :=
  (Transition.run (step h) s inputs).2 ++ (Transition.run (step h) s inputs).1.outputQueue

end GraphicsPipelineServer

/-! ### Frames and acknowledgements between the two -/

/-- The frames of the server, those whose EndFrame is on the way, the outbox of the client with the threads around it,
and the acknowledgements on the way back. -/
structure Loop where
  tracker : FrameTracker
  down : List UInt32
  client : Gfx.System
  up : List Gfx.FrameAcknowledge
  deriving DecidableEq

inductive LoopEvent where
  | send (timestamp : Timestamp)
  | arrive
  | present (index : Nat)
  | setHidden (hidden : Bool)
  | drain
  | acknowledge
  | setMaxFramesInFlight (max : UInt32)
  | resize
  deriving DecidableEq

namespace Loop

def new (h : Handler) : Loop where
  tracker := { FrameTracker.new with maxInFlight := h.maxFramesInFlight }
  down := []
  client := .new
  up := []

/-- The depth as the server reads it. -/
def wireDepth (ack : Gfx.FrameAcknowledge) : UInt32 := (GfxProcessor.queueDepth ack.queueDepth).toU32

/-- The server sends a frame unless too many are in flight. -/
def send (l : Loop) (timestamp : Timestamp) : Loop :=
  if l.tracker.shouldBackpressure then l
  else
    let (frameId, tracker) := l.tracker.beginFrame timestamp
    { l with tracker := tracker, down := l.down ++ [frameId] }

def arrive (l : Loop) : Loop :=
  match l.down with
  | [] => l
  | frameId :: down => { l with down := down, client := (l.client.step (.endFrame frameId)).1 }

def present (l : Loop) (index : Nat) : Loop := { l with client := (l.client.step (.present index)).1 }

def setHidden (l : Loop) (hidden : Bool) : Loop := { l with client := (l.client.step (.setHidden hidden)).1 }

def drain (l : Loop) : Loop := { l with client := (l.client.step .drain).1, up := l.up ++ l.client.acks.outbox }

def acknowledge (l : Loop) : Loop :=
  match l.up with
  | [] => l
  | ack :: up => { l with tracker := (l.tracker.acknowledge ack.frameId (wireDepth ack)).2, up := up }

def step (l : Loop) : LoopEvent → Loop
  | .send timestamp => l.send timestamp
  | .arrive => l.arrive
  | .present index => l.present index
  | .setHidden hidden => l.setHidden hidden
  | .drain => l.drain
  | .acknowledge => l.acknowledge
  | .setMaxFramesInFlight max => { l with tracker := { l.tracker with maxInFlight := max } }
  | .resize => { l with tracker := l.tracker.clear }

def run (l : Loop) (events : List LoopEvent) : Loop := events.foldl step l

end Loop

end Drift.Egfx
