import Drift.Rdp.Leg

/-!
# The session actor

The task behind a session: its loops, from the first connection to its exit, as one machine. An input
is either something the environment does (the app sends a command, time passes, the network or the
server does something) or one turn of the loop the actor is in. Commands wait in a queue until a loop
receives them; `closed` is set as soon as the app closes the session, so that a connection attempt
can be abandoned before `close` is received.
-/

namespace Drift.Rdp

open Input Clipboard Gfx

variable {Geometry : Type}

/-- How far `connect_leg` has come. -/
inductive Handshake where
  | negotiating
  | securing
  | finalizing
  deriving DecidableEq

inductive Phase (Geometry : Type) where
  | startUp
  | connecting (redirects : RedirectLoop) (request : LegRequest) (handshake : Handshake)
  | prompting (redirects : RedirectLoop) (request : LegRequest) (leafDer : Bytes)
  | active (redirects : RedirectLoop) (leg : Leg)
  | shuttingDown (leg : Leg)
  | backoff (deadline : Option Instant) (reason : DisconnectReason)
  | idle
  | exited

/-- The loop that receives commands in a phase, if any: a connection attempt and a shutdown leave
them in the queue. -/
def Phase.loop : Phase Geometry → Option CommandLoop
  | startUp => some .startUp
  | prompting _ _ _ => some .prompt
  | active _ _ => some .active
  | backoff _ _ => some .backoff
  | idle => some .idle
  | connecting _ _ _ | shuttingDown _ | exited => none

/-- The leg that has been activated, if one is up. -/
def Phase.leg : Phase Geometry → Option Leg
  | active _ leg | shuttingDown leg => some leg
  | _ => none

structure Session (Geometry : Type) where
  actor : Actor Geometry
  phase : Phase Geometry
  cmds : List (SessionCommand Geometry)
  handles : Bool
  closed : Bool
  now : Instant

/-- A turn of the actor; it never stops early. -/
abbrev Turn (Geometry : Type) := Outcome (Session Geometry) (Out Geometry) Empty

inductive Event (Geometry : Type) where
  | send (cmd : SessionCommand Geometry)
  | dropHandles
  | elapse (time : Duration)
  | receive
  | graceOver
  | noticeClosed
  | negotiated
  | secured (leafDer : Bytes)
  | finalized (desktop : Size) (clipboard : Bool) (link : Option (Nat × IoFailure))
  | connectFailed (failure : ConnectFailure)
  | breakLink (writes : Nat) (error : IoFailure)
  | readFailed (error : IoFailure)
  | pdu (pdu : ServerPdu)
  | present (index : Nat)
  | flushAcks
  | outputChanged
  | tick
  | shutdownOver

namespace Actor

def new (cfg : Config Geometry) : Actor Geometry where
  graphics := ⟨true⟩
  io := ⟨.idle, 1, none⟩
  view := .default
  resize := .new cfg.profile.mode cfg.profile.display
  typist := .new
  input := .default
  clipboard := none
  clipboardLocal := none
  changeCount := 0
  policy := .new cfg.options.reconnect cfg.options.reconnectSeed
  activations := 0
  scale := 100

def defaultDesktop : Size := ⟨1280, 800⟩

/-- The desktop size to connect with; the scale that goes with it becomes the requested one. -/
def requestDesktop (platform : Platform Geometry) (a : Actor Geometry) : Actor Geometry × Size :=
  match a.resize.connectLayout platform.desiredLayout with
  | none => ({ a with scale := 100 }, defaultDesktop)
  | some layout => ({ a with scale := layout.desktopScaleFactor }, ⟨layout.width, layout.height⟩)

end Actor

namespace Config

def tlsServerName (cfg : Config Geometry) : String :=
  cfg.options.tlsServerName.getD cfg.profile.host

/-- The request of leg 1, with a desktop size and scale. -/
def firstLeg (cfg : Config Geometry) (desktop : Size) (scale : Nat) : LegRequest where
  leg := 1
  mode := cfg.profile.mode
  host := cfg.profile.host
  port := cfg.profile.port
  tlsServerName := cfg.tlsServerName
  auth := .nla cfg.profile.rdpUsername cfg.secrets.rdpPassword
  expectation := cfg.profile.certPin.elim .trustOnFirstUse .pinned
  role := .server
  routingToken := none
  desktop := desktop
  scale := scale

def redirectedLeg (cfg : Config Geometry) (sessionPin : Option CertFingerprint) (next : NextLeg)
    (desktop : Size) (scale : Nat) : LegRequest where
  leg := next.leg
  mode := cfg.profile.mode
  host := next.host
  port := next.port
  tlsServerName := if next.host = cfg.profile.host then cfg.tlsServerName else next.host
  auth := .rdstls next.credentials
  expectation :=
    match next.targetCertificate with
    | some der => .exact der
    | none => (cfg.profile.certPin.or sessionPin).elim .trustOnFirstUse .pinned
  role := .redirectTarget
  routingToken := next.routingToken
  desktop := desktop
  scale := scale

end Config

namespace Session

def new (cfg : Config Geometry) : Session Geometry where
  actor := .new cfg
  phase := .startUp
  cmds := []
  handles := true
  closed := false
  now := 0

def enter (s : Session Geometry) (phase : Phase Geometry) : Turn Geometry :=
  .done { s with phase := phase }

def setState (s : Session Geometry) (next : SessionState) : Turn Geometry :=
  let set := s.actor.setState next
  ⟨{ s with actor := set.1 }, set.2, none⟩

/-- The user closed the session: the actor is done. -/
def exitUserClosed (s : Session Geometry) : Turn Geometry :=
  (s.setState (.disconnected .userClosed)).andThen (·.enter .exited)

/-- `Resume::Stop`: a terminal state, then the idle loop. -/
def stop (s : Session Geometry) (state : SessionState) : Turn Geometry :=
  (s.setState state).andThen (·.enter .idle)

def stage (s : Session Geometry) (stage : ConnectStage) : Turn Geometry :=
  s.setState (.connecting s.actor.io.leg stage)

/-! ### Connecting -/

section Connecting

variable (cfg : Config Geometry)

/-- Every leg gets a clipboard channel of its own, which starts with the focus of the view. -/
def connectOne (s : Session Geometry) (redirects : RedirectLoop) (request : LegRequest) :
    Turn Geometry :=
  let s := { s with actor := { s.actor with io := { s.actor.io with leg := request.leg } } }
  if s.closed then s.exitUserClosed
  else
    let channel := ClipboardSync.new cfg.profile.clipboard s.actor.view.focused
    let s := { s with actor := { s.actor with clipboard := some channel } }
    (s.stage .tcp).andThen (·.enter (.connecting redirects request .negotiating))

def connectLoop (s : Session Geometry) : Turn Geometry :=
  let requested := s.actor.requestDesktop cfg.platform
  { s with actor := requested.1 }.connectOne cfg
    (.new cfg.profile.mode cfg.profile.host cfg.profile.port)
    (cfg.firstLeg requested.2 requested.1.scale)

def waitBackoff (deadline : Option Instant) (reason : DisconnectReason) (s : Session Geometry) :
    Turn Geometry :=
  if deadline.any (· ≤ s.now) && s.actor.policy.networkReachable then s.connectLoop cfg
  else s.enter (.backoff deadline reason)

def enterBackoff (s : Session Geometry) (attempt : Nat) (delay : Duration)
    (reason : DisconnectReason) : Turn Geometry :=
  let shown := if delay = Duration.max then 0 else delay
  (s.setState (.reconnecting attempt shown reason)).andThen
    (waitBackoff cfg (Instant.checkedAdd s.now delay) reason)

def afterDisconnect (s : Session Geometry) (reason : DisconnectReason) : Turn Geometry :=
  if reason = .userClosed then s.exitUserClosed
  else if s.actor.activations = 0 then s.stop (terminalState reason)
  else
    let decided := s.actor.policy.onDisconnect reason s.now
    let s := { s with actor := { s.actor with policy := decided.1 } }
    match decided.2 with
    | .retry attempt delay => s.enterBackoff cfg attempt delay reason
    | .waitForNetwork attempt => s.enterBackoff cfg attempt Duration.max reason
    | .giveUp _ => s.stop (terminalState reason)

/-- The certificate is accepted: the credentials may go out. -/
def afterCertificate (s : Session Geometry) (redirects : RedirectLoop) (request : LegRequest)
    (leafDer : Bytes) : Turn Geometry :=
  if cfg.platform.hasPublicKey leafDer then
    (s.stage request.auth.stage).andThen fun s =>
    (Outcome.output s (.authenticating request.auth leafDer)).andThen
      (·.enter (.connecting redirects request .finalizing))
  else s.afterDisconnect cfg (.protocolError "server certificate has no parsable public key")

def checkLeaf (s : Session Geometry) (redirects : RedirectLoop) (request : LegRequest)
    (leafDer : Bytes) : Turn Geometry :=
  match checkCertificate cfg.platform.ofDer request.expectation leafDer with
  | .trusted => s.afterCertificate cfg redirects request leafDer
  | .mismatch => s.afterDisconnect cfg .certMismatch
  | .unknown fingerprint =>
    if s.actor.io.sessionPin = some fingerprint then
      s.afterCertificate cfg redirects request leafDer
    else
      (Outcome.output s (.event (.certificatePrompt request.tlsServerName request.port fingerprint
        request.role))).andThen (·.enter (.prompting redirects request leafDer))

/-- The stage an attempt is in, for the classification of its failures. -/
def stageOf (request : LegRequest) : Handshake → ConnectStage
  | .negotiating => .tcp
  | .securing => .tls
  | .finalizing => request.auth.stage

/-! ### Legs -/

/-- Follows a redirection, or reports why it cannot. -/
def redirect (s : Session Geometry) (redirects : RedirectLoop) (pdu : ServerRedirectionPdu) :
    Turn Geometry :=
  let followed := redirects.onRedirect pdu
  match followed.2 with
  | .error reason => s.afterDisconnect cfg reason
  | .ok next =>
    let requested := s.actor.requestDesktop cfg.platform
    { s with actor := requested.1 }.connectOne cfg followed.1
      (cfg.redirectedLeg s.actor.io.sessionPin next requested.2 requested.1.scale)

def endLeg (s : Session Geometry) (redirects : RedirectLoop) : LegEnd → Turn Geometry
  | .redirect pdu => s.redirect cfg redirects pdu
  | .closed => s.exitUserClosed
  | .ended reason => s.afterDisconnect cfg reason

/-- Goes on with the leg after one of its operations, or with what follows its end. -/
def continueLeg (s : Session Geometry) (redirects : RedirectLoop) (run : LegRun Geometry) :
    Turn Geometry :=
  Outcome.andThen
    ⟨{ s with actor := run.state.actor, phase := .active redirects run.state.leg }, run.outs, none⟩
    fun s =>
      match run.exit with
      | none => .done s
      | some legEnd => s.endLeg cfg redirects legEnd

/-- A leg comes up; its link may be broken already. -/
def activate (s : Session Geometry) (redirects : RedirectLoop) (desktop : Size)
    (clipboard : Bool) (link : Option (Nat × IoFailure)) : Turn Geometry :=
  let shown : Turn Geometry :=
    match redirects.onActivated desktop s.actor.scale with
    | none => .done s
    | some state => s.setState state
  shown.andThen fun s =>
    s.continueLeg cfg redirects
      (Live.onActivated cfg s.now ⟨s.actor, Leg.new desktop clipboard link⟩)

/-- Close on a live leg: a Shutdown Request, then a short wait for the server's answer. -/
def shutdown (s : Session Geometry) (leg : Leg) : Turn Geometry :=
  let run := Live.write ⟨s.actor, leg⟩ .shutdownRequest
  Outcome.andThen ⟨s, run.outs, none⟩ fun s =>
    match run.exit with
    | none => s.enter (.shuttingDown run.state.leg)
    | some _ => s.exitUserClosed

def isTerminate : ActiveStageOutput → Bool
  | .terminate _ => true
  | _ => false

/-- A PDU while the actor waits for the server's answer to the Shutdown Request. -/
def shutdownPdu (s : Session Geometry) (leg : Leg) (pdu : ServerPdu) : Turn Geometry :=
  let processed := leg.onChannels pdu.channels
  Outcome.andThen ⟨{ s with phase := .shuttingDown processed.1 }, processed.2, none⟩ fun s =>
    match pdu.result with
    | .error _ => s.exitUserClosed
    | .ok outputs => if outputs.any isTerminate then s.exitUserClosed else .done s

/-! ### Receiving commands -/

variable [BEq Geometry]

def rememberCmd (s : Session Geometry) (cmd : SessionCommand Geometry) : Session Geometry :=
  { s with actor := s.actor.remember s.now cmd }

/-- `collect_initial_state`. -/
def collectInitialState (s : Session Geometry) :
    Option (SessionCommand Geometry) → Turn Geometry
  | none | some .close => s.connectLoop cfg
  | some cmd => .done (s.rememberCmd cmd)

def decideCertificate (s : Session Geometry) (redirects : RedirectLoop) (request : LegRequest)
    (leafDer : Bytes) : Option (SessionCommand Geometry) → Turn Geometry
  | none | some .close => s.afterDisconnect cfg .userClosed
  | some .rejectCertificate => s.afterDisconnect cfg .certMismatch
  | some (.acceptCertificate accepted pin) =>
    if accepted = cfg.platform.ofDer leafDer then
      let s := { s with
        actor := { s.actor with io := { s.actor.io with sessionPin := some accepted } } }
      Outcome.andThen
        ⟨s, if pin then [.event (.certificatePinned accepted)] else [], none⟩
        fun s => s.afterCertificate cfg redirects request leafDer
    else .done s
  | some _ => .done s

def receiveActive (s : Session Geometry) (redirects : RedirectLoop) (leg : Leg) :
    Option (SessionCommand Geometry) → Turn Geometry
  | none | some .close => s.shutdown leg
  | some cmd => s.continueLeg cfg redirects (Live.onCommand cfg s.now ⟨s.actor, leg⟩ cmd)

def receiveBackoff (s : Session Geometry) (deadline : Option Instant) (reason : DisconnectReason) :
    Option (SessionCommand Geometry) → Turn Geometry
  | none | some .close => s.exitUserClosed
  | some .cancel =>
    { s with actor := { s.actor with policy := s.actor.policy.reset } }.stop (.disconnected reason)
  | some .reconnectNow =>
    if s.actor.policy.networkReachable then s.connectLoop cfg else s.waitBackoff cfg deadline reason
  | some (.networkReachable reachable) =>
    let s := { s with
      actor := { s.actor with policy := s.actor.policy.setNetworkReachable reachable } }
    if reachable then s.connectLoop cfg else s.waitBackoff cfg deadline reason
  | some cmd => (s.rememberCmd cmd).waitBackoff cfg deadline reason

def receiveIdle (s : Session Geometry) : Option (SessionCommand Geometry) → Turn Geometry
  | none | some .close => s.enter .exited
  | some .reconnectNow =>
    { s with
      actor := { s.actor with policy := s.actor.policy.reset.setNetworkReachable true } }.connectLoop
      cfg
  | some (.networkReachable reachable) =>
    .done { s with
      actor := { s.actor with policy := s.actor.policy.setNetworkReachable reachable } }
  | some cmd => .done (s.rememberCmd cmd)

/-- The next thing in the queue: a command, or `none` once every handle is gone; nothing while the
queue is empty and a handle is alive. -/
def next (s : Session Geometry) :
    Option (Session Geometry × Option (SessionCommand Geometry)) :=
  match s.cmds with
  | cmd :: cmds => some ({ s with cmds := cmds }, some cmd)
  | [] => if s.handles then none else some (s, none)

/-- What the loop of the phase does with what it received. -/
def handle (s : Session Geometry) (cmd : Option (SessionCommand Geometry)) : Turn Geometry :=
  match s.phase with
  | .startUp => s.collectInitialState cfg cmd
  | .prompting redirects request leafDer => s.decideCertificate cfg redirects request leafDer cmd
  | .active redirects leg => s.receiveActive cfg redirects leg cmd
  | .backoff deadline reason => s.receiveBackoff cfg deadline reason cmd
  | .idle => s.receiveIdle cfg cmd
  | .connecting _ _ _ | .shuttingDown _ | .exited => .done s

def receive (s : Session Geometry) : Turn Geometry :=
  match s.phase.loop, s.next with
  | some loop, some (s, cmd) =>
    (Outcome.output s (.received loop cmd)).andThen fun s => s.handle cfg cmd
  | _, _ => .done s

/-! ### One turn -/

def onConnect (s : Session Geometry) (redirects : RedirectLoop) (request : LegRequest) :
    Handshake → Event Geometry → Turn Geometry
  | .negotiating, .negotiated =>
    (s.stage .tls).andThen (·.enter (.connecting redirects request .securing))
  | .securing, .secured leafDer => s.checkLeaf cfg redirects request leafDer
  | .finalizing, .finalized desktop clipboard link =>
    s.activate cfg redirects desktop clipboard link
  | handshake, .connectFailed failure =>
    s.afterDisconnect cfg (failure.reason (stageOf request handshake))
  | _, .noticeClosed => if s.closed then s.exitUserClosed else .done s
  | _, _ => .done s

def onLeg (s : Session Geometry) (redirects : RedirectLoop) (leg : Leg) :
    Event Geometry → Turn Geometry
  | .breakLink writes error =>
    s.enter (.active redirects { leg with link := some (writes, error) })
  | .readFailed error => s.endLeg cfg redirects (.ended (classifyIoError error .activation))
  | .pdu pdu => s.continueLeg cfg redirects (Live.onPdu cfg.platform s.now ⟨s.actor, leg⟩ pdu)
  | .present index => s.continueLeg cfg redirects (Live.present ⟨s.actor, leg⟩ index)
  | .flushAcks => s.continueLeg cfg redirects (Live.flushAcks ⟨s.actor, leg⟩)
  | .outputChanged => s.continueLeg cfg redirects (Live.onOutputSize ⟨s.actor, leg⟩)
  | .tick => s.continueLeg cfg redirects (Live.onTick cfg s.now ⟨s.actor, leg⟩)
  | _ => .done s

/-- The app's side of the command channel; the forwarder notices the end of the session. -/
def onApp (s : Session Geometry) : Event Geometry → Session Geometry
  | .send cmd =>
    if s.handles then
      { s with cmds := s.cmds ++ [cmd], closed := s.closed || cmd matches .close }
    else s
  | .dropHandles => { s with handles := false, closed := true }
  | .elapse time => { s with now := s.now + time }
  | _ => s

/-- What happens to the connection, or time passing, in the phase the actor is in. -/
def onPhase (s : Session Geometry) (e : Event Geometry) : Turn Geometry :=
  match s.phase, e with
  | .startUp, .graceOver => s.connectLoop cfg
  | .connecting redirects request handshake, e => s.onConnect cfg redirects request handshake e
  | .prompting _ _ _, .noticeClosed => if s.closed then s.exitUserClosed else .done s
  | .active redirects leg, e => s.onLeg cfg redirects leg e
  | .shuttingDown leg, .pdu pdu => s.shutdownPdu leg pdu
  | .shuttingDown _, .shutdownOver => s.exitUserClosed
  | .backoff deadline reason, .tick => s.waitBackoff cfg deadline reason
  | _, _ => .done s

def turn (s : Session Geometry) (e : Event Geometry) : Turn Geometry :=
  match e with
  | .send _ | .dropHandles | .elapse _ => .done (s.onApp e)
  | .receive => s.receive cfg
  | e => s.onPhase cfg e

def step (s : Session Geometry) (e : Event Geometry) : Session Geometry × List (Out Geometry) :=
  ((s.turn cfg e).state, (s.turn cfg e).outs)

/-- The session after some events from its spawn, and the record of what happened. -/
def history (es : List (Event Geometry)) : Session Geometry × List (Out Geometry) :=
  Transition.run (step cfg) (new cfg) es

end Connecting

end Session

end Drift.Rdp
