import Drift.Clipboard.Sync
import Drift.Core.Reconnect
import Drift.Gfx.Ack
import Drift.Lib.Outcome
import Drift.Rdp.Connect
import Drift.Rdp.FastPathPdu
import Drift.Rdp.Greeter

/-!
# A live leg

The state of the session actor and what it does while a leg is up. A leg operation is an `Outcome`:
it may stop with a `LegEnd` after any of its writes. The connection is doomed by its environment:
`link` holds how many more writes it takes and how the next one fails.
-/

namespace Drift.Rdp

open Input Clipboard Gfx

variable {Geometry : Type}

inductive SessionCommand (Geometry : Type) where
  | input (event : InputEvent)
  | resize (geometry : Geometry)
  | setVisible (visible : Bool)
  | focus (focused : Bool)
  | clipboardLocalChanged (contents : ClipboardContents)
  | acceptCertificate (fingerprint : CertFingerprint) (pin : Bool)
  | rejectCertificate
  | reconnectNow
  | networkReachable (reachable : Bool)
  | cancel
  | close
  deriving DecidableEq

/-- Events for the app. The picture of a pointer is not modelled. -/
inductive SessionEvent where
  | state (state : SessionState)
  | certificatePrompt (host : String) (port : UInt16) (fingerprint : CertFingerprint)
      (role : CertificateRole)
  | certificatePinned (fingerprint : CertFingerprint)
  | capabilities (displayControl clipboard : Bool)
  | cursor
  | clipboardRemote (contents : ClipboardContents)
  deriving DecidableEq

structure Profile where
  mode : ConnectMode
  host : String
  port : UInt16
  certPin : Option CertFingerprint
  rdpUsername : String
  display : DisplayPrefs
  clipboard : ClipboardPrefs

structure SessionSecrets where
  rdpPassword : String
  linuxPassword : Option String

structure SessionOptions where
  tlsServerName : Option String
  reconnect : ReconnectConfig
  reconnectSeed : UInt64

/-- The code around the session: the layout policy for a view, the certificate functions, the image
library, and what the protocol libraries say when the clipboard channel is used before it is ready, or
was not joined. -/
structure Platform (Geometry : Type) where
  desiredLayout : LayoutPolicy Geometry
  ofDer : Bytes → CertFingerprint
  hasPublicKey : Bytes → Bool
  images : ImageCodec
  cliprdrNotReady : String
  channelNotFound : String

structure Config (Geometry : Type) where
  platform : Platform Geometry
  profile : Profile
  secrets : SessionSecrets
  options : SessionOptions

/-- What the app told the actor about the tab. -/
structure View (Geometry : Type) where
  visible : Bool
  focused : Bool
  geometry : Option Geometry

def View.default : View Geometry := ⟨true, false, none⟩

structure Io where
  state : SessionState
  leg : Nat
  sessionPin : Option CertFingerprint

/-- The tab's frame sink, as far as the actor sets it. -/
structure Graphics where
  visible : Bool
  deriving DecidableEq

structure Actor (Geometry : Type) where
  graphics : Graphics
  io : Io
  view : View Geometry
  resize : ResizeDriver Geometry
  typist : GreeterTypist
  input : InputEncoder
  clipboard : Option ClipboardSync
  clipboardLocal : Option ClipboardContents
  changeCount : Int
  policy : ReconnectPolicy
  activations : Nat
  scale : Nat

/-- A dynamic channel of a leg; a registered processor can be opened once. -/
inductive Dvc where
  | registered
  | opened
  | closed
  deriving DecidableEq

/-- The clipboard channel of a leg. The processor of a channel that was not joined stays in its
initialization, and has nowhere to send. -/
inductive Cliprdr where
  | absent
  | initializing
  | ready
  deriving DecidableEq

structure Leg where
  gfx : Dvc
  acks : Gfx.System
  displayControl : Dvc
  dispCaps : Option DisplayControlCaps
  cliprdr : Cliprdr
  output : Option Size
  desktop : Size
  link : Option (Nat × IoFailure)

def Leg.new (desktop : Size) (clipboard : Bool) (link : Option (Nat × IoFailure)) : Leg where
  gfx := .registered
  acks := .new
  displayControl := .registered
  dispCaps := none
  cliprdr := if clipboard then .initializing else .absent
  output := none
  desktop := desktop
  link := link

inductive LegEnd where
  | redirect (pdu : ServerRedirectionPdu)
  | closed
  | ended (reason : DisconnectReason)

structure InclusiveRectangle where
  left : Nat
  top : Nat
  right : Nat
  bottom : Nat
  deriving DecidableEq

/-- What the client writes to the server. -/
inductive Frame where
  | input (events : List FastPathInputEvent)
  | monitorLayout (width height scale : Nat)
  | suppressOutput (desktopRect : Option InclusiveRectangle)
  | formatList (formats : List ClipFormat)
  | formatDataRequest (formatId : Nat)
  | formatDataResponse (data : Option Bytes)
  | frameAcknowledges (acks : List FrameAcknowledge)
  | response
  | shutdownRequest
  deriving DecidableEq

/-- The loops of the actor that receive commands. -/
inductive CommandLoop where
  | startUp
  | prompt
  | active
  | backoff
  | idle
  deriving DecidableEq

/-- What a leg is activated with. -/
structure Activation (Geometry : Type) where
  geometry : Option Geometry
  visible : Bool
  focused : Option Bool
  clipboard : Option ClipboardContents
  networkReachable : Bool

/-- What happened, for the record: besides events and writes, the commands each loop received, the
calls of the clipboard state with the actions they returned, the frames with the policy of the
acknowledgements at their end, and the warnings about rejected changes of the state. -/
inductive Out (Geometry : Type) where
  | received (loop : CommandLoop) (cmd : Option (SessionCommand Geometry))
  | event (event : SessionEvent)
  | wrote (frame : Frame)
  | authenticating (auth : LegAuth) (leafDer : Bytes)
  | activated (activation : Activation Geometry)
  | clip (canSync : Bool) (input : SyncInput) (actions : List SyncAction)
  | frameEnded (frameId : UInt32) (hidden : Bool)
  | presented (frameId : UInt32) (ack : Option FrameAcknowledge)
  | rejected (next : SessionState)

/-- The actor with its leg. -/
structure Live (Geometry : Type) where
  actor : Actor Geometry
  leg : Leg

abbrev LegRun (Geometry : Type) := Outcome (Live Geometry) (Out Geometry) LegEnd

namespace Actor

def setState (a : Actor Geometry) (next : SessionState) : Actor Geometry × List (Out Geometry) :=
  if a.io.state = next then (a, [])
  else if a.io.state.allows next then
    ({ a with io := { a.io with state := next } }, [.event (.state next)])
  else (a, [.rejected next])

/-- Records app state that must survive a disconnected phase. -/
def remember [BEq Geometry] (a : Actor Geometry) (now : Instant) :
    SessionCommand Geometry → Actor Geometry
  | .resize geometry =>
    { a with
      view := { a.view with geometry := some geometry }
      resize := a.resize.onGeometry geometry now }
  | .setVisible visible => { a with view := { a.view with visible := visible } }
  | .focus focused => { a with view := { a.view with focused := focused } }
  | .clipboardLocalChanged contents => { a with clipboardLocal := some contents }
  | _ => a

end Actor

namespace Live

/-- `write_all`, with the failure classified as it is on a live leg. -/
def write (l : Live Geometry) (frame : Frame) : LegRun Geometry :=
  match l.leg.link with
  | none => .output l (.wrote frame)
  | some (0, error) => .stop l (.ended (classifyIoError error .activation))
  | some (writes + 1, error) =>
    .output { l with leg := { l.leg with link := some (writes, error) } } (.wrote frame)

/-- All frames are encoded before the first is written: input of which one cannot be is dropped. -/
def sendInputEvents (l : Live Geometry) (events : List FastPathInputEvent) : LegRun Geometry :=
  match ActiveStage.processFastpathInput (events.map (·.toPdu)) with
  | .error _ => .done l
  | .ok _ =>
    .forEach (fun l chunk => l.write (.input chunk)) l (events.toChunks FastPathInput.maxEvents)

/-! ### Visibility -/

/-- `Graphics::set_visible`: through the graphics client when its channel is open, else to the sink
alone. -/
def setVisible (l : Live Geometry) (visible : Bool) : Live Geometry :=
  { actor := { l.actor with graphics := ⟨visible⟩ }
    leg :=
      if l.leg.gfx = .opened then
        { l.leg with acks := { l.leg.acks with acks := l.leg.acks.acks.setHidden (!visible) } }
      else l.leg }

def desktopRect (desktop : Size) : InclusiveRectangle where
  left := 0
  top := 0
  right := min (desktop.width - 1) u16Max
  bottom := min (desktop.height - 1) u16Max

/-- Suppress Output and the acknowledgement policy. A show resumes acknowledging before the frame
is written, a hide stops after it. -/
def applyVisibility (l : Live Geometry) (visible : Bool) : LegRun Geometry :=
  if visible then
    (l.setVisible true).write (.suppressOutput (some (desktopRect l.leg.desktop)))
  else
    (l.write (.suppressOutput none)).andThen fun l => .done (l.setVisible false)

/-! ### Clipboard -/

section Clipboard

variable (platform : Platform Geometry)

def applyAction (l : Live Geometry) : SyncAction → LegRun Geometry
  | .sendFormatList formats =>
    if l.leg.cliprdr = .absent then
      .stop l (.ended (.protocolError ("encode clipboard messages: " ++ platform.channelNotFound)))
    else l.write (.formatList formats)
  | .requestRemoteData format =>
    match l.leg.cliprdr with
    | .absent | .initializing =>
      .stop l (.ended (.protocolError ("request clipboard data: " ++ platform.cliprdrNotReady)))
    | .ready => l.write (.formatDataRequest format.id)
  | .sendData _ data =>
    match l.leg.cliprdr with
    | .absent | .initializing =>
      .stop l (.ended (.protocolError ("answer clipboard request: " ++ platform.cliprdrNotReady)))
    | .ready => l.write (.formatDataResponse data.toOption)
  | .writePasteboard contents => .output l (.event (.clipboardRemote contents))
  | .rejected _ => .done l

def applyClipboard (l : Live Geometry) (actions : List SyncAction) : LegRun Geometry :=
  .forEach (applyAction platform) l actions

/-- The clipboard state after some inputs, the record of the calls, and all their actions. -/
def handleAll (now : Instant) (sync : ClipboardSync) :
    List SyncInput → ClipboardSync × List (Out Geometry) × List SyncAction
  | [] => (sync, [], [])
  | input :: inputs =>
    let call := sync.handle platform.images now input
    let rest := handleAll now call.1 inputs
    (rest.1, .clip sync.canSync input call.2 :: rest.2.1, call.2 ++ rest.2.2)

/-- `with_clipboard` followed by `apply_clipboard`. -/
def feed (now : Instant) (l : Live Geometry) (inputs : List SyncInput) : LegRun Geometry :=
  match l.actor.clipboard with
  | none => .done l
  | some sync =>
    let handled := handleAll platform now sync inputs
    Outcome.andThen
      ⟨{ l with actor := { l.actor with clipboard := some handled.1 } }, handled.2.1, none⟩
      fun l => l.applyClipboard platform handled.2.2

/-- Feeds local pasteboard contents under a new change count. -/
def feedLocal (now : Instant) (l : Live Geometry) (contents : ClipboardContents) :
    LegRun Geometry :=
  let changeCount := l.actor.changeCount + 1
  feed platform now { l with actor := { l.actor with changeCount := changeCount } }
    [.localChanged changeCount contents]

end Clipboard

/-! ### Activation -/

/-- After a reconnect or a redirect the server does not know what is held. -/
def resyncInput (l : Live Geometry) : LegRun Geometry :=
  if l.actor.activations = 0 then .done l
  else
    let encoded := l.actor.input.encodeAll [.releaseAll, l.actor.input.lastToggles]
    { l with actor := { l.actor with input := encoded.1 } }.sendInputEvents encoded.2

def applyHidden (l : Live Geometry) : LegRun Geometry :=
  if l.actor.view.visible then .done l else l.applyVisibility false

def replayLocal (platform : Platform Geometry) (now : Instant) (l : Live Geometry) :
    LegRun Geometry :=
  match l.actor.clipboardLocal with
  | none => .done l
  | some contents => l.feedLocal platform now contents

/-- What is in force when a leg is activated. -/
def activation (l : Live Geometry) : Activation Geometry where
  geometry := l.actor.resize.geometry
  visible := l.actor.view.visible
  focused := l.actor.clipboard.map (·.focused)
  clipboard := l.actor.clipboardLocal
  networkReachable := l.actor.policy.networkReachable

/-- The first part of `on_activated`, which writes nothing. -/
def welcome (cfg : Config Geometry) (now : Instant) (l : Live Geometry) : Live Geometry :=
  { l with
    actor := { l.actor with
      policy := l.actor.policy.onConnected now
      resize := l.actor.resize.onLegActivated
        { width := l.leg.desktop.width
          height := l.leg.desktop.height
          desktopScaleFactor := l.actor.scale
          deviceScaleFactor := deviceScaleFor l.actor.scale }
      typist :=
        if l.actor.io.state = .awaitingGreeterLogin then
          .onGreeter cfg.secrets.linuxPassword.isSome
        else .disarm } }

def onActivated (cfg : Config Geometry) (now : Instant) (l : Live Geometry) : LegRun Geometry :=
  let capabilities : SessionEvent :=
    .capabilities (modeHasDisplayControl cfg.profile.mode) (l.leg.cliprdr ≠ .absent)
  Outcome.andThen
    ⟨l.welcome cfg now, [.activated l.activation, .event capabilities], none⟩ fun l =>
  l.resyncInput.andThen fun l =>
  { l with actor := { l.actor with activations := l.actor.activations + 1 } }.applyHidden.andThen
    fun l => l.replayLocal cfg.platform now

/-! ### Timers and commands -/

def pollResize (platform : Platform Geometry) (now : Instant) (l : Live Geometry) :
    LegRun Geometry :=
  let polled := l.actor.resize.poll platform.desiredLayout now
  let l := { l with actor := { l.actor with resize := polled.1 } }
  match polled.2 with
  | none => .done l
  | some layout =>
    let l := { l with actor := { l.actor with scale := layout.desktopScaleFactor } }
    if l.leg.displayControl = .opened then
      l.write (.monitorLayout layout.width layout.height layout.desktopScaleFactor)
    else .done l

def typePassword (secrets : SessionSecrets) (now : Instant) (l : Live Geometry) : LegRun Geometry :=
  match secrets.linuxPassword with
  | none => .done l
  | some password =>
    let polled := l.actor.typist.poll now password
    let l := { l with actor := { l.actor with typist := polled.1 } }
    match polled.2 with
    | none => .done l
    | some events =>
      let encoded := l.actor.input.encodeAll events
      { l with actor := { l.actor with input := encoded.1 } }.sendInputEvents encoded.2

def onTick (cfg : Config Geometry) (now : Instant) (l : Live Geometry) : LegRun Geometry :=
  (l.pollResize cfg.platform now).andThen fun l =>
  (l.typePassword cfg.secrets now).andThen fun l => l.feed cfg.platform now [.tick]

/-- A command on a live leg, other than the end of the session. -/
def onCommand [BEq Geometry] (cfg : Config Geometry) (now : Instant) (l : Live Geometry) :
    SessionCommand Geometry → LegRun Geometry
  | .input event =>
    let encoded := l.actor.input.encode event
    { l with
      actor := { l.actor with
        typist := l.actor.typist.onInput event now
        input := encoded.1 } }.sendInputEvents encoded.2
  | .resize geometry => .done { l with actor := l.actor.remember now (.resize geometry) }
  | .setVisible visible =>
    if l.actor.view.visible = visible then .done l
    else { l with actor := l.actor.remember now (.setVisible visible) }.applyVisibility visible
  | .focus focused =>
    { l with actor := l.actor.remember now (.focus focused) }.feed cfg.platform now [.focus focused]
  | .clipboardLocalChanged contents =>
    { l with actor := l.actor.remember now (.clipboardLocalChanged contents) }.feedLocal
      cfg.platform now contents
  | .networkReachable reachable =>
    .done { l with
      actor := { l.actor with policy := l.actor.policy.setNetworkReachable reachable } }
  | .acceptCertificate _ _ | .rejectCertificate | .reconnectNow | .cancel | .close => .done l

/-! ### Server data -/

end Live

/-- What the channels of a leg do while a PDU is processed. -/
inductive ChannelEvent where
  | gfxOpened
  | gfxClosed
  | frameEnded (frameId : UInt32)
  | resetGraphics (output : Size)
  | displayControlReady (caps : DisplayControlCaps)
  | displayControlClosed
  | cliprdrReady

/-- A callback of the clipboard backend. -/
inductive BackendEvent where
  | initialFormatList
  | remoteCopy (formats : List ClipFormat)
  | dataRequest (formatId : Nat)
  | dataResponse (data : Option Bytes)

def BackendEvent.toInput : BackendEvent → SyncInput
  | initialFormatList => .initialFormatListRequested
  | remoteCopy formats => .remoteFormatList formats
  | dataRequest formatId => .remoteDataRequest formatId
  | dataResponse data => .remoteData data

inductive GracefulDisconnectReason where
  | userInitiated
  | serverInitiated
  | other

inductive ActiveStageOutput where
  | pointer
  | responseFrame
  | serverRedirect (pdu : ServerRedirectionPdu)
  | terminate (reason : GracefulDisconnectReason)
  | other

/-- A PDU, by its effects on the channels, the clipboard callbacks it makes, and the outputs or the
error of the protocol stage. -/
structure ServerPdu where
  channels : List ChannelEvent
  callbacks : List BackendEvent
  result : Except String (List ActiveStageOutput)

namespace Leg

/-- One channel event. Graphics data is processed on the open channel only. -/
def onChannel (leg : Leg) : ChannelEvent → Leg × List (Out Geometry)
  | .gfxOpened => (if leg.gfx = .registered then { leg with gfx := .opened } else leg, [])
  | .gfxClosed => (if leg.gfx = .opened then { leg with gfx := .closed } else leg, [])
  | .frameEnded frameId =>
    if leg.gfx = .opened then
      ({ leg with acks := (leg.acks.step (.endFrame frameId)).1 },
        [.frameEnded frameId leg.acks.acks.hidden])
    else (leg, [])
  | .resetGraphics output => (if leg.gfx = .opened then { leg with output := some output } else leg, [])
  | .displayControlReady caps =>
    (if leg.displayControl = .closed then leg
      else { leg with displayControl := .opened, dispCaps := some caps }, [])
  | .displayControlClosed =>
    (if leg.displayControl = .opened then { leg with displayControl := .closed } else leg, [])
  | .cliprdrReady => (if leg.cliprdr = .initializing then { leg with cliprdr := .ready } else leg, [])

def onChannels (leg : Leg) : List ChannelEvent → Leg × List (Out Geometry)
  | [] => (leg, [])
  | event :: events =>
    let first := leg.onChannel event
    let rest := first.1.onChannels events
    (rest.1, first.2 ++ rest.2)

end Leg

namespace Live

def onOutput (l : Live Geometry) : ActiveStageOutput → LegRun Geometry
  | .pointer => .output l (.event .cursor)
  | .responseFrame => l.write .response
  | .serverRedirect pdu => .stop l (.redirect pdu)
  | .terminate .userInitiated => .stop l (.ended .loggedOffRemotely)
  | .terminate _ => .stop l (.ended .serverShutdown)
  | .other => .done l

def handleOutputs (l : Live Geometry) (outputs : List ActiveStageOutput) : LegRun Geometry :=
  .forEach onOutput l outputs

def takeDispCaps (now : Instant) (l : Live Geometry) : Live Geometry :=
  match l.leg.dispCaps with
  | none => l
  | some caps =>
    { actor := { l.actor with resize := l.actor.resize.onDisplayControlReady caps now }
      leg := { l.leg with dispCaps := none } }

def afterChannelIo (platform : Platform Geometry) (now : Instant) (callbacks : List BackendEvent)
    (l : Live Geometry) : LegRun Geometry :=
  (l.takeDispCaps now).feed platform now (callbacks.map BackendEvent.toInput)

def onPdu (platform : Platform Geometry) (now : Instant) (l : Live Geometry) (pdu : ServerPdu) :
    LegRun Geometry :=
  let processed := l.leg.onChannels pdu.channels
  Outcome.andThen ⟨{ l with leg := processed.1 }, processed.2, none⟩ fun l =>
  match pdu.result with
  | .error e => .stop l (.ended (.protocolError e))
  | .ok outputs =>
    (l.handleOutputs outputs).andThen fun l => l.afterChannelIo platform now pdu.callbacks

/-- Sends the queued acknowledgements, on the open channel only. -/
def flushAcks (l : Live Geometry) : LegRun Geometry :=
  if l.leg.gfx = .opened then
    let drained := l.leg.acks.acks.drain
    if drained.2.isEmpty then .done l
    else
      { l with leg := { l.leg with acks := { l.leg.acks with acks := drained.1 } } }.write
        (.frameAcknowledges drained.2)
  else .done l

/-- The render thread calls back for a frame. -/
def present (l : Live Geometry) (index : Nat) : LegRun Geometry :=
  let presented := l.leg.acks.step (.present index)
  ⟨{ l with leg := { l.leg with acks := presented.1 } },
    presented.2.filterMap fun
      | .presented frameId ack => some (.presented frameId ack)
      | _ => none, none⟩

def onOutputSize (l : Live Geometry) : LegRun Geometry :=
  match l.leg.output with
  | none => .done l
  | some size =>
    let leg := { l.leg with output := none, desktop := size }
    match l.actor.io.state with
    | .connected _ _ =>
      let set := l.actor.setState (.connected size l.actor.scale)
      ⟨{ actor := set.1, leg := leg }, set.2, none⟩
    | _ => .done { l with leg := leg }

end Live

end Drift.Rdp
