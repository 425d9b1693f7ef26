import Drift.Lib.Transition
import Drift.Rdp.Actor

/-!
# Reading the steps of a session

Two summaries of the steps of a session: which certificates the credentials may go to, and how many
attempts to reconnect the session has made by itself.
-/

namespace Drift.Rdp

variable {Geometry : Type}

abbrev SessionStep (Geometry : Type) :=
  Transition.Step (Session Geometry) (Event Geometry) (Out Geometry)

def Session.steps [BEq Geometry] (cfg : Config Geometry) (es : List (Event Geometry)) :
    List (SessionStep Geometry) :=
  (Transition.run (Transition.recorded (step cfg)) (new cfg) es).2

/-! ### Trust -/

/-- The redirection with which a PDU ends a leg. -/
def ServerPdu.redirection? (pdu : ServerPdu) : Option ServerRedirectionPdu :=
  match pdu.result with
  | .ok outputs =>
    outputs.findSome? fun
      | .serverRedirect pdu => some pdu
      | _ => none
  | .error _ => none

/-- The certificate that a redirection gave for its target. -/
def ServerRedirectionPdu.target? (pdu : ServerRedirectionPdu) : Option Bytes :=
  pdu.targetCertificate.toOption.join

/-- The redirection that the leg follows, with the certificate it gave, the fingerprint of the last
prompt, and the fingerprints the user accepted when prompted for them. -/
structure Trust where
  redirect : Option (Option Bytes)
  prompted : Option CertFingerprint
  accepted : List CertFingerprint

namespace Trust

def start : Trust := ⟨none, none, []⟩

def hear (m : Trust) : Out Geometry → Trust
  | .event (.certificatePrompt _ _ fingerprint _) => { m with prompted := some fingerprint }
  | .received .prompt (some (.acceptCertificate fingerprint _)) =>
    if m.prompted = some fingerprint then { m with accepted := fingerprint :: m.accepted } else m
  | _ => m

/-- The leg the step ended on: a first leg follows no redirection, and a redirected one that starts with
the step follows the redirection of the PDU. -/
def watch (m : Trust) (t : SessionStep Geometry) : Trust :=
  let m := t.outs.foldl hear m
  match t.after.phase with
  | .connecting _ request _ =>
    match request.role, t.before.phase, t.input with
    | .server, _, _ => { m with redirect := none }
    | .redirectTarget, .active _ _, .pdu pdu =>
      { m with redirect := some (pdu.redirection?.bind (·.target?)) }
    | .redirectTarget, _, _ => m
  | _ => m

/-- The credentials may go to a server with the certificate. -/
def Justified (cfg : Config Geometry) (m : Trust) (leafDer : Bytes) : Prop :=
  match m.redirect with
  | some (some der) => leafDer = der
  | _ =>
    cfg.profile.certPin = some (cfg.platform.ofDer leafDer) ∨
      cfg.platform.ofDer leafDer ∈ m.accepted

/-- The credentials go out where they may, and a redirected leg prompts for nothing. -/
def Guarded (cfg : Config Geometry) (m : Trust) : Out Geometry → Prop
  | .authenticating _ leafDer => m.Justified cfg leafDer
  | .event (.certificatePrompt _ _ _ _) => m.redirect = none
  | _ => True

end Trust

namespace Phase

/-- The leg has got past its authentication. -/
def isAuthenticated : Phase Geometry → Bool
  | connecting _ _ .finalizing | active _ _ => true
  | _ => false

def isOver : Phase Geometry → Bool
  | connecting _ _ .negotiating | backoff _ _ | idle | shuttingDown _ | exited => true
  | _ => false

end Phase

namespace Trust

/-- What a step has to do with the certificates: no leg gets past the check without credentials that are
justified, and a certificate for which they are not ends the leg, unless it may be prompted for. -/
structure Observed (cfg : Config Geometry) (m : Trust) (t : SessionStep Geometry) : Prop where
  credentials : Transition.Holds hear (Guarded cfg) m t.outs
  authenticated : t.after.phase.isAuthenticated = true →
    t.before.phase.isAuthenticated = true ∨ ∃ auth leafDer, .authenticating auth leafDer ∈ t.outs
  ended : ∀ redirects request leafDer, t.before.phase = .connecting redirects request .securing →
    t.input = .secured leafDer → ¬ m.Justified cfg leafDer →
      t.after.phase.isOver = true ∨
        (∃ redirects, t.after.phase = .prompting redirects request leafDer) ∧ m.redirect = none ∧
          cfg.profile.certPin = none

end Trust

/-! ### The budget of reconnect attempts -/

/-- The attempts since the last reset, the activation of the last leg while the connection lasts, and
whether the backoff was entered with the network down. -/
structure Budget where
  made : Nat
  upSince : Option Instant
  offline : Bool
  deriving DecidableEq

namespace Budget

def start : Budget := ⟨0, none, false⟩

def startsFirst : Phase Geometry → Bool
  | .connecting _ request .negotiating => request.role = .server
  | _ => false

/-- The step starts to connect a first leg. An attempt that is negotiating must have failed for that. -/
def dials (t : SessionStep Geometry) : Bool :=
  match t.before.phase, t.input with
  | .connecting _ _ .negotiating, .connectFailed _ => startsFirst t.after.phase
  | .connecting _ _ .negotiating, _ => false
  | _, _ => startsFirst t.after.phase

/-- The connection, or the attempt to make one, ended, and the session goes on. -/
def loses (t : SessionStep Geometry) : Bool :=
  match t.before.phase with
  | .connecting _ _ _ | .prompting _ _ _ | .active _ _ =>
    match t.after.phase with
    | .backoff _ _ | .idle => true
    | _ => dials t
  | _ => false

def isActivation : Out Geometry → Bool
  | .activated _ => true
  | _ => false

def isReconnectNow : Out Geometry → Bool
  | .received _ (some .reconnectNow) => true
  | _ => false

/-- The user started over from the idle loop, or cancelled a backoff. -/
def isUserReset : Out Geometry → Bool
  | .received .idle (some .reconnectNow) | .received .backoff (some .cancel) => true
  | _ => false

def isStartUp : Phase Geometry → Bool
  | .startUp => true
  | _ => false

def isBackoff : Phase Geometry → Bool
  | .backoff _ _ => true
  | _ => false

/-- The step is an attempt to reconnect that the user did not ask for. -/
def reconnects (t : SessionStep Geometry) : Bool :=
  dials t && !isStartUp t.before.phase && !t.outs.any isReconnectNow

/-- A connection that lasted long enough, or the user, resets the count. -/
def watch (stableAfter : Duration) (m : Budget) (t : SessionStep Geometry) : Budget :=
  let upSince := if t.outs.any isActivation then some t.before.now else m.upSince
  let stable := upSince.any fun since => stableAfter ≤ t.before.now - since
  let userResets := t.outs.any isUserReset
  let made := if userResets || loses t && stable then 0 else m.made
  { made := if reconnects t then made + 1 else made
    upSince := if userResets || loses t then none else upSince
    offline :=
      if isBackoff t.before.phase then m.offline else !t.after.actor.policy.networkReachable }

def Within (limit : Nat) (stableAfter : Duration) (m : Budget) (t : SessionStep Geometry) : Prop :=
  (m.watch stableAfter t).made ≤ limit

instance (limit : Nat) (stableAfter : Duration) (m : Budget) (t : SessionStep Geometry) :
    Decidable (m.Within limit stableAfter t) :=
  inferInstanceAs (Decidable (_ ≤ _))

/-- The network comes back in a backoff that was entered without it. -/
def wakesOffline (s : Session Geometry) (m : Budget) : Event Geometry → Bool
  | .receive =>
    match s.phase, s.cmds with
    | .backoff _ _, .networkReachable true :: _ => m.offline
    | _, _ => false
  | _ => false

end Budget

end Drift.Rdp
