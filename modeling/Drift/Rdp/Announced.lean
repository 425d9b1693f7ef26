import Drift.Rdp.Steps

/-!
# The states a session shows

What the app is shown of the state of a session, read off the record, and what it should be shown: the
state that belongs to the phase the actor is in, with legs that count the redirections, and the end of
the session as the last event.
-/

namespace Drift.Rdp

open Transition

variable {Geometry : Type}

/-- The leg a state shows, if it shows one, or else the one before. -/
def legShown (leg : Nat) : SessionState → Nat
  | .connecting leg _ => leg
  | _ => leg

/-- The state the app was shown last, the last leg, and the last event. -/
structure Announced where
  state : SessionState
  leg : Nat
  last : Option SessionEvent

namespace Announced

def start : Announced := ⟨.idle, 0, none⟩

def hear (m : Announced) : Out Geometry → Announced
  | .event (.state state) => ⟨state, legShown m.leg state, some (.state state)⟩
  | .event event => { m with last := some event }
  | _ => m

/-- A leg starts the count, or is the next one; it keeps its number while it connects. -/
def Follows (m : Announced) : SessionState → Prop
  | .connecting leg .tcp => 1 ≤ leg ∧ leg ≤ maxLeg ∧ (leg = 1 ∨ leg = m.leg + 1)
  | .connecting leg _ => leg = m.leg
  | _ => True

/-- No change of the state is rejected, and the legs follow each other. -/
def Accepts (m : Announced) : Out Geometry → Prop
  | .event (.state state) => m.Follows state
  | .rejected _ => False
  | _ => True

def watch (m : Announced) (t : SessionStep Geometry) : Announced := t.outs.foldl hear m

end Announced

/-- The state to show while a leg is up: the first leg of a remote login only leads to the greeter. -/
def RedirectLoop.Shows (r : RedirectLoop) (state : SessionState) : Prop :=
  if r.mode = .remoteLogin ∧ r.leg = 1 then state = .connecting 1 .nla
  else if r.mode = .remoteLogin ∧ r.leg = 2 then state = .awaitingGreeterLogin
  else ∃ desktop scale, state = .connected desktop scale

def Phase.Shows : Phase Geometry → SessionState → Prop
  | .startUp, state => state = .idle
  | .connecting _ request handshake, state =>
    state = .connecting request.leg (Session.stageOf request handshake)
  | .prompting _ request _, state => state = .connecting request.leg .tls
  | .active redirects _, state => redirects.Shows state
  | .shuttingDown _, state => ∃ redirects : RedirectLoop, redirects.Shows state
  | .backoff _ reason, state =>
    reason ≠ .userClosed ∧ ∃ attempt nextIn, state = .reconnecting attempt nextIn reason
  | .idle, state =>
    ∃ reason, reason ≠ .userClosed ∧ (state = .disconnected reason ∨ state = .failed reason)
  | .exited, _ => True

/-- The leg up before the step is followed by a redirected one. -/
def redirects (t : SessionStep Geometry) : Bool :=
  match t.before.phase, t.after.phase with
  | .active _ _, .connecting _ request _ => request.role = .redirectTarget
  | _, _ => false

/-- The only change of the state that may be rejected is the one to the end of the session, in a step
with which the actor of a closed session is gone. -/
def Announced.Allows (t : SessionStep Geometry) (m : Announced) : Out Geometry → Prop
  | .event (.state state) => m.Follows state
  | .rejected next =>
    next = .disconnected .userClosed ∧ t.after.closed = true ∧ t.after.phase = .exited
  | _ => True

/-- What a step has to do with the state: the app is shown the state of the actor, which is the one of
its phase, no change of it is rejected while the actor goes on, a redirection starts the next leg, and
an attempt to connect has the leg that is shown: the first one goes to the server of the profile. -/
structure Announced.Observed (m : Announced) (t : SessionStep Geometry) : Prop where
  accepted : Holds hear (Allows t) m t.outs
  shown : (m.watch t).state = t.after.actor.io.state
  phase : t.after.phase.Shows t.after.actor.io.state
  redirected : redirects t = true → (m.watch t).leg = m.leg + 1
  counted : ∀ redirects request handshake, t.after.phase = .connecting redirects request handshake →
    request.leg = (m.watch t).leg ∧ (request.role = .server ↔ request.leg = 1)

/-- The step ends the actor out of a settled state, `Disconnected` or `Failed`: the idle loop receives
the end of the session, or a `reconnectNow` after the app has closed it. -/
def Session.endsSettled (s : Session Geometry) : Event Geometry → Bool
  | .receive =>
    match s.phase, s.cmds with
    | .idle, .close :: _ => true
    | .idle, .reconnectNow :: _ => s.closed
    | .idle, [] => !s.handles
    | _, _ => false
  | _ => false

/-- A stretch of events in which everything gets a turn that ends a closed session: the loop that receives
commands, the watch of a connection attempt, and the time limit of a shutdown. -/
def IsRound (es : List (Event Geometry)) : Prop :=
  .receive ∈ es ∧ .noticeClosed ∈ es ∧ .shutdownOver ∈ es

end Drift.Rdp
