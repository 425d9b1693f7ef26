import Drift.Core.Geometry

/-!
# Session states

The lifecycle of a session and the reasons for which it stops. `SessionState.allows` is the gate
through which the session actor changes state.
-/

namespace Drift

abbrev Duration := Nat

abbrev Instant := Nat

namespace Duration

def fromMillis (ms : Nat) : Duration := ms * 10 ^ 6

def fromSecs (s : Nat) : Duration := s * 10 ^ 9

/-- `Duration::MAX`: `u64::MAX` seconds and 999 999 999 nanoseconds. -/
def max : Duration := (2 ^ 64 - 1) * 10 ^ 9 + 999999999

/-- `Duration::checked_mul`. -/
def checkedMul (d : Duration) (factor : Nat) : Option Duration :=
  if d * factor ≤ max then some (d * factor) else none

end Duration

namespace Instant

/-- Instants hold their seconds in an `i64`. -/
def max : Instant := (2 ^ 63 - 1) * 10 ^ 9 + 999999999

/-- `Instant::checked_add`. -/
def checkedAdd (now : Instant) (d : Duration) : Option Instant :=
  if now + d ≤ max then some (now + d) else none

end Instant

def maxRedirects : Nat := 4

/-- The initial leg and the redirected ones. -/
def maxLeg : Nat := 1 + maxRedirects

inductive ConnectStage where
  | tcp
  | tls
  | nla
  | rdstls
  | activation
  deriving DecidableEq

inductive DisconnectReason where
  | network
  | tlsEof
  | serverShutdown
  | timeout
  | authFailed
  | rdstlsFailed (code : UInt32)
  | certMismatch
  | protocolError (detail : String)
  | redirectLoop
  | userClosed
  | loggedOffRemotely
  | localNetworkDenied
  deriving DecidableEq

def DisconnectReason.isRetryable : DisconnectReason → Bool
  | network | tlsEof | serverShutdown | timeout => true
  | authFailed | rdstlsFailed _ | certMismatch | protocolError _ | redirectLoop | userClosed
  | loggedOffRemotely | localNetworkDenied => false

inductive SessionState where
  | idle
  | connecting (leg : Nat) (stage : ConnectStage)
  | awaitingGreeterLogin
  | connected (desktop : Size) (scale : Nat)
  | reconnecting (attempt : Nat) (nextIn : Duration) (reason : DisconnectReason)
  | disconnected (reason : DisconnectReason)
  | failed (reason : DisconnectReason)
  deriving DecidableEq

namespace SessionState

/-- Validity of a target state, whatever the state before. -/
def validTarget : SessionState → Bool
  | connecting leg _ => 1 ≤ leg ∧ leg ≤ maxLeg
  | reconnecting attempt _ reason => attempt ≠ 0 ∧ reason.isRetryable
  | _ => true

def allows (s next : SessionState) : Bool :=
  next.validTarget && match s, next with
    | idle, connecting leg _ | disconnected _, connecting leg _ | failed _, connecting leg _ =>
      leg = 1
    | disconnected _, idle | failed _, idle => true
    | idle, disconnected reason => reason = .userClosed
    | connecting fromLeg _, connecting toLeg _ => toLeg = fromLeg ∨ toLeg = fromLeg + 1
    | connecting leg _, awaitingGreeterLogin => 2 ≤ leg
    | connecting _ _, connected _ _ => true
    | awaitingGreeterLogin, connecting leg _ | connected _ _, connecting leg _ => 2 ≤ leg
    | connected _ _, connected _ _ => true
    | connecting _ _, reconnecting _ _ _ | connecting _ _, disconnected _ | connecting _ _, failed _
    | awaitingGreeterLogin, reconnecting _ _ _ | awaitingGreeterLogin, disconnected _
    | awaitingGreeterLogin, failed _ | connected _ _, reconnecting _ _ _
    | connected _ _, disconnected _ | connected _ _, failed _ => true
    | reconnecting fromAttempt _ _, reconnecting toAttempt _ _ => fromAttempt ≤ toAttempt
    | reconnecting _ _ _, connecting leg _ => leg = 1
    | reconnecting _ _ _, disconnected _ | reconnecting _ _ _, failed _ => true
    | _, _ => false

end SessionState

/-- The terminal state for a reason: retryable reasons leave the door open. -/
def terminalState (reason : DisconnectReason) : SessionState :=
  if reason.isRetryable then .disconnected reason else .failed reason

end Drift
