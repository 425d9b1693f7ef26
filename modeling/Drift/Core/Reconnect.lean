import Drift.Core.State

/-!
# The reconnect policy

Exponential backoff with full jitter. The policy is told of drops, of established connections and of
the reachability of the network, and answers each drop with a decision; randomness comes from a
seeded generator.
-/

namespace Drift

structure ReconnectConfig where
  base : Duration
  cap : Duration
  maxAttempts : Option Nat
  stableAfter : Duration
  deriving DecidableEq

namespace ReconnectConfig

def defaultMaxAttempts : Nat := 20

def default : ReconnectConfig where
  base := .fromMillis 500
  cap := .fromSecs 30
  maxAttempts := some defaultMaxAttempts
  stableAfter := .fromSecs 60

end ReconnectConfig

inductive GiveUpReason where
  | notRetryable
  | attemptsExhausted
  deriving DecidableEq

inductive ReconnectDecision where
  | retry (attempt : Nat) (delay : Duration)
  | waitForNetwork (attempt : Nat)
  | giveUp (reason : GiveUpReason)
  deriving DecidableEq

structure SplitMix64 where
  state : UInt64
  deriving DecidableEq

namespace SplitMix64

def nextU64 (rng : SplitMix64) : SplitMix64 × UInt64 :=
  let state := rng.state + 0x9E3779B97F4A7C15
  let z := (state ^^^ (state >>> 30)) * 0xBF58476D1CE4E5B9
  let z := (z ^^^ (z >>> 27)) * 0x94D049BB133111EB
  (⟨state⟩, z ^^^ (z >>> 31))

/-- An integer from `0` to `max`. -/
def belowOrEq (rng : SplitMix64) (max : Nat) : SplitMix64 × Nat :=
  let draw := rng.nextU64
  (draw.1, draw.2.toNat * (max + 1) / 2 ^ 64)

end SplitMix64

structure ReconnectPolicy where
  config : ReconnectConfig
  rng : SplitMix64
  attempts : Nat
  connectedSince : Option Instant
  networkReachable : Bool
  deriving DecidableEq

namespace ReconnectPolicy

def new (config : ReconnectConfig) (seed : UInt64) : ReconnectPolicy where
  config := config
  rng := ⟨seed⟩
  attempts := 0
  connectedSince := none
  networkReachable := true

/-- The backoff ceiling of a 1-based attempt; the factor is a `u32` shift, saturating. -/
def ceiling (p : ReconnectPolicy) (attempt : Nat) : Duration :=
  let exp := min (attempt - 1) 63
  let factor := if exp < 32 then 2 ^ exp else u32Max
  match p.config.base.checkedMul factor with
  | none => p.config.cap
  | some d => min d p.config.cap

def onConnected (p : ReconnectPolicy) (now : Instant) : ReconnectPolicy :=
  { p with connectedSince := some now }

def setNetworkReachable (p : ReconnectPolicy) (reachable : Bool) : ReconnectPolicy :=
  { p with networkReachable := reachable }

def reset (p : ReconnectPolicy) : ReconnectPolicy :=
  { p with attempts := 0, connectedSince := none }

/-- `u32::saturating_add` of one. -/
def saturatingSucc (n : Nat) : Nat := min (n + 1) u32Max

/-- A uniformly random delay up to the ceiling of the current attempt. -/
def jitter (p : ReconnectPolicy) : ReconnectPolicy × Duration :=
  let ceilingMs := min (p.ceiling p.attempts / 10 ^ 6) (2 ^ 64 - 1)
  let draw := p.rng.belowOrEq ceilingMs
  ({ p with rng := draw.1 }, .fromMillis draw.2)

def nextDecision (p : ReconnectPolicy) (withJitter : Bool) : ReconnectPolicy × ReconnectDecision :=
  if !p.networkReachable then (p, .waitForNetwork (saturatingSucc p.attempts))
  else if p.config.maxAttempts.any (· ≤ p.attempts) then (p, .giveUp .attemptsExhausted)
  else
    let p := { p with attempts := saturatingSucc p.attempts }
    let delayed := if withJitter then p.jitter else (p, 0)
    (delayed.1, .retry p.attempts delayed.2)

def onDisconnect (p : ReconnectPolicy) (reason : DisconnectReason) (now : Instant) :
    ReconnectPolicy × ReconnectDecision :=
  let stable := p.connectedSince.any fun since => p.config.stableAfter ≤ now - since
  let p :=
    { p with connectedSince := none, attempts := if stable then 0 else p.attempts }
  if !reason.isRetryable then (p, .giveUp .notRetryable)
  else p.nextDecision true

def retryNow (p : ReconnectPolicy) : ReconnectPolicy × ReconnectDecision := p.nextDecision false

/-! ### The operations and the network -/

@[simp]
theorem networkReachable_onConnected (p : ReconnectPolicy) (now : Instant) :
    (p.onConnected now).networkReachable = p.networkReachable := rfl

@[simp]
theorem networkReachable_setNetworkReachable (p : ReconnectPolicy) (reachable : Bool) :
    (p.setNetworkReachable reachable).networkReachable = reachable := rfl

@[simp]
theorem networkReachable_reset (p : ReconnectPolicy) :
    p.reset.networkReachable = p.networkReachable := rfl

@[simp]
theorem networkReachable_jitter (p : ReconnectPolicy) :
    p.jitter.1.networkReachable = p.networkReachable := by
  -- On a variable, the equation of the projections would first compare the generators.
  cases p
  rfl

@[simp]
theorem networkReachable_nextDecision (p : ReconnectPolicy) (withJitter : Bool) :
    (p.nextDecision withJitter).1.networkReachable = p.networkReachable := by
  simp only [nextDecision]
  split_ifs <;> simp

@[simp]
theorem networkReachable_onDisconnect (p : ReconnectPolicy) (reason : DisconnectReason)
    (now : Instant) : (p.onDisconnect reason now).1.networkReachable = p.networkReachable := by
  unfold onDisconnect
  split_ifs <;> simp

/-! ### Drops -/

/-- The attempts that count when a connection ends: none after one that was stable. -/
def countAt (p : ReconnectPolicy) (now : Instant) : Nat :=
  if p.connectedSince.any fun since => p.config.stableAfter ≤ now - since then 0 else p.attempts

/-- What the policy is asked for a decision with. -/
def atDrop (p : ReconnectPolicy) (now : Instant) : ReconnectPolicy :=
  { p with connectedSince := none, attempts := p.countAt now }

theorem onDisconnect_eq (p : ReconnectPolicy) (reason : DisconnectReason) (now : Instant) :
    p.onDisconnect reason now =
      if reason.isRetryable then (p.atDrop now).nextDecision true
      else (p.atDrop now, .giveUp .notRetryable) := by
  unfold onDisconnect
  cases reason.isRetryable <;> rfl

/-- A decision moves the generator and the count only; an attempt is counted, and within the
limit. -/
theorem nextDecision_spec (p : ReconnectPolicy) (withJitter : Bool) :
    let decided := p.nextDecision withJitter
    decided.1 = { p with rng := decided.1.rng, attempts := decided.1.attempts } ∧
      match decided.2 with
      | .retry _ _ =>
        p.networkReachable = true ∧ decided.1.attempts = saturatingSucc p.attempts ∧
          ∀ limit, p.config.maxAttempts = some limit → p.attempts < limit
      | .waitForNetwork _ => p.networkReachable = false ∧ decided.1.attempts = p.attempts
      | .giveUp _ => decided.1.attempts = p.attempts := by
  unfold nextDecision
  split
  · next hdown => exact ⟨rfl, by simpa using hdown, rfl⟩
  · next hup =>
      split
      · exact ⟨rfl, rfl⟩
      · next hlimit =>
          have hreachable : p.networkReachable = true := by simpa using hup
          have hbelow : ∀ limit, p.config.maxAttempts = some limit → p.attempts < limit := by
            intro limit hsome
            simpa [hsome] using hlimit
          cases withJitter with
          | true => exact ⟨rfl, hreachable, rfl, hbelow⟩
          | false => exact ⟨rfl, hreachable, rfl, hbelow⟩

/-- A drop ends the connection and counts an attempt if one is to be made. -/
theorem onDisconnect_spec (p : ReconnectPolicy) (reason : DisconnectReason) (now : Instant) :
    let decided := p.onDisconnect reason now
    decided.1 = { p with
        rng := decided.1.rng
        attempts := decided.1.attempts
        connectedSince := none } ∧
      match decided.2 with
      | .retry _ _ =>
        p.networkReachable = true ∧ decided.1.attempts = saturatingSucc (p.countAt now) ∧
          ∀ limit, p.config.maxAttempts = some limit → p.countAt now < limit
      | .waitForNetwork _ => p.networkReachable = false ∧ decided.1.attempts = p.countAt now
      | .giveUp _ => decided.1.attempts = p.countAt now := by
  rw [onDisconnect_eq]
  split
  · obtain ⟨hframe, hdecision⟩ := (p.atDrop now).nextDecision_spec true
    refine ⟨?_, hdecision⟩
    rw [hframe]
    rfl
  · exact ⟨rfl, rfl⟩

end ReconnectPolicy

end Drift
