import Drift.Core.Reconnect
import Drift.Lib.Transition
import Mathlib.Order.MinMax
import Mathlib.Order.Monotone.Defs
import Mathlib.Tactic.Common

/-!
# The attempts of the reconnect policy

The delay of a retry stays below the backoff of its attempt, and no step of its computation overflows. The
attempts are numbered from one since the last reset, whatever the order of the operations: a ledger counts
them from the operations and the decisions alone.
-/

namespace Drift

/-- An integer, if it fits an unsigned type of that many bits. -/
def uint (bits v : Nat) : Option Nat := if v < 2 ^ bits then some v else none

theorem uint_eq {bits v : Nat} (h : v < 2 ^ bits) : uint bits v = some v := if_pos h

/-- A duration, if it is in the range of the type. -/
def Duration.checked (d : Duration) : Option Duration := if d ≤ .max then some d else none

theorem Duration.checked_eq {d : Duration} (h : d ≤ .max) : d.checked = some d := if_pos h

namespace SplitMix64

theorem belowOrEq_le (rng : SplitMix64) (max : Nat) : (rng.belowOrEq max).2 ≤ max := by
  have hdraw := rng.nextU64.2.toNat_lt
  have hproduct : rng.nextU64.2.toNat * (max + 1) < 2 ^ 64 * (max + 1) :=
    Nat.mul_lt_mul_of_pos_right hdraw (Nat.succ_pos max)
  exact Nat.le_of_lt_succ (Nat.div_lt_of_lt_mul hproduct)

/-- `belowOrEq` with the widths of the source: the product is a `u128`, the result a `u64`. -/
def belowOrEqChecked (rng : SplitMix64) (max : Nat) : Option Nat := do
  let span ← uint 128 (max + 1)
  let product ← uint 128 (rng.nextU64.2.toNat * span)
  uint 64 (product / 2 ^ 64)

theorem belowOrEqChecked_eq (rng : SplitMix64) {max : Nat} (hmax : max < 2 ^ 64) :
    rng.belowOrEqChecked max = some (rng.belowOrEq max).2 := by
  have hspan : max + 1 < 2 ^ 128 := by omega
  have hproduct : rng.nextU64.2.toNat * (max + 1) < 2 ^ 128 := by
    calc rng.nextU64.2.toNat * (max + 1) < 2 ^ 64 * (max + 1) :=
          Nat.mul_lt_mul_of_pos_right rng.nextU64.2.toNat_lt (Nat.succ_pos max)
      _ ≤ 2 ^ 64 * 2 ^ 64 := Nat.mul_le_mul_left _ hmax
      _ = 2 ^ 128 := by decide
  have hresult : rng.nextU64.2.toNat * (max + 1) / 2 ^ 64 < 2 ^ 64 :=
    Nat.lt_of_le_of_lt (rng.belowOrEq_le max) hmax
  rw [belowOrEqChecked, uint_eq hspan, Option.bind_eq_bind, Option.bind_some, uint_eq hproduct,
    Option.bind_some, uint_eq hresult, belowOrEq]

end SplitMix64

namespace ReconnectPolicy

/-! ### The backoff -/

/-- `base × 2^(attempt-1)`, at most `cap`. -/
def backoff (config : ReconnectConfig) (attempt : Nat) : Duration :=
  min config.cap (config.base * 2 ^ (attempt - 1))

/-- The factor of an attempt, which saturates with the width of its type. -/
def factor (attempt : Nat) : Nat :=
  if min (attempt - 1) 63 < 32 then 2 ^ min (attempt - 1) 63 else u32Max

theorem factor_le (attempt : Nat) : factor attempt ≤ 2 ^ (attempt - 1) := by
  unfold factor
  split
  · next hsmall => exact Nat.pow_le_pow_right (by decide) (by omega)
  · next hlarge =>
      calc u32Max ≤ 2 ^ 32 := by decide
        _ ≤ 2 ^ (attempt - 1) := Nat.pow_le_pow_right (by decide) (by omega)

theorem factor_mono : Monotone factor := by
  intro a b hab
  unfold factor
  by_cases hb : min (b - 1) 63 < 32
  · rw [if_pos hb, if_pos (by omega : min (a - 1) 63 < 32)]
    exact Nat.pow_le_pow_right (by decide) (by omega)
  · rw [if_neg hb]
    split
    · next ha =>
        calc 2 ^ min (a - 1) 63 ≤ 2 ^ 31 := Nat.pow_le_pow_right (by decide) (by omega)
          _ ≤ u32Max := by decide
    · exact le_rfl

variable {p : ReconnectPolicy}

theorem ceiling_def (p : ReconnectPolicy) (attempt : Nat) :
    p.ceiling attempt =
      (p.config.base.checkedMul (factor attempt)).elim p.config.cap (min · p.config.cap) := by
  unfold ceiling
  cases hproduct : p.config.base.checkedMul (factor attempt) with
  | none =>
      unfold factor at hproduct
      simp only [hproduct]
      rfl
  | some d =>
      unfold factor at hproduct
      simp only [hproduct]
      rfl

/-- A product that overflows would have exceeded the cap. -/
theorem ceiling_eq (hcap : p.config.cap ≤ .max) (attempt : Nat) :
    p.ceiling attempt = min (p.config.base * factor attempt) p.config.cap := by
  rw [ceiling_def, Duration.checkedMul]
  by_cases hfits : p.config.base * factor attempt ≤ .max
  · rw [if_pos hfits, Option.elim_some]
  · rw [if_neg hfits, Option.elim_none]
    exact (Nat.min_eq_right (hcap.trans (Nat.le_of_not_le hfits))).symm

theorem ceiling_le (hcap : p.config.cap ≤ .max) (attempt : Nat) :
    p.ceiling attempt ≤ backoff p.config attempt := by
  rw [ceiling_eq hcap, backoff, Nat.min_comm]
  exact min_le_min_left _ (Nat.mul_le_mul_left _ (factor_le attempt))

theorem ceiling_mono (hcap : p.config.cap ≤ .max) : Monotone p.ceiling := by
  intro a b hab
  rw [ceiling_eq hcap, ceiling_eq hcap]
  exact min_le_min_right _ (Nat.mul_le_mul_left _ (factor_mono hab))

theorem jitter_delay (p : ReconnectPolicy) :
    p.jitter.2 =
      .fromMillis (p.rng.belowOrEq (min (p.ceiling p.attempts / 10 ^ 6) (2 ^ 64 - 1))).2 := by
  unfold jitter
  dsimp only

theorem jitter_le (p : ReconnectPolicy) : p.jitter.2 ≤ p.ceiling p.attempts := by
  have hdraw := p.rng.belowOrEq_le (min (p.ceiling p.attempts / 10 ^ 6) (2 ^ 64 - 1))
  rw [jitter_delay, Duration.fromMillis]
  calc (p.rng.belowOrEq (min (p.ceiling p.attempts / 10 ^ 6) (2 ^ 64 - 1))).2 * 10 ^ 6
      ≤ p.ceiling p.attempts / 10 ^ 6 * 10 ^ 6 :=
        Nat.mul_le_mul_right _ (hdraw.trans (Nat.min_le_left _ _))
    _ ≤ p.ceiling p.attempts := Nat.div_mul_le_self _ _

/-- The delay of an attempt, with every step in the width of its type. -/
def delayChecked (p : ReconnectPolicy) (attempt : Nat) : Option Duration := do
  let factor ← uint 32 (factor attempt)
  let product := p.config.base.checkedMul factor
  let ceiling ← (product.elim p.config.cap (min · p.config.cap)).checked
  let ms ← uint 128 (ceiling / 10 ^ 6)
  let draw ← p.rng.belowOrEqChecked (min ms (2 ^ 64 - 1))
  (Duration.fromMillis draw).checked

theorem factor_lt (attempt : Nat) : factor attempt < 2 ^ 32 := by
  unfold factor
  split
  · next hsmall => exact Nat.pow_lt_pow_right (by decide) hsmall
  · decide

/-- **No overflow.** -/
theorem delayChecked_eq (hcap : p.config.cap ≤ .max) (attempt : Nat) :
    p.delayChecked attempt = some { p with attempts := attempt }.jitter.2 := by
  have hceiling : p.ceiling attempt ≤ .max :=
    (ceiling_le hcap attempt).trans ((Nat.min_le_left _ _).trans hcap)
  have hmillis : p.ceiling attempt / 10 ^ 6 < 2 ^ 128 := by
    calc p.ceiling attempt / 10 ^ 6 ≤ p.ceiling attempt := Nat.div_le_self _ _
      _ ≤ .max := hceiling
      _ < 2 ^ 128 := by decide
  have hdelay : { p with attempts := attempt }.jitter.2 ≤ .max :=
    (jitter_le { p with attempts := attempt }).trans hceiling
  rw [jitter_delay] at hdelay ⊢
  rw [delayChecked, uint_eq (factor_lt attempt), Option.bind_eq_bind, Option.bind_some]
  dsimp only
  rw [← ceiling_def, Duration.checked_eq hceiling, Option.bind_some, uint_eq hmillis, Option.bind_some,
    SplitMix64.belowOrEqChecked_eq _ (by omega), Option.bind_some]
  exact Duration.checked_eq hdelay

/-- What a decision says: the attempt is the next one, and the delay stays below its backoff. -/
theorem nextDecision_attempt (hcap : p.config.cap ≤ .max) (withJitter : Bool) :
    match (p.nextDecision withJitter).2 with
    | .retry attempt delay =>
      attempt = saturatingSucc p.attempts ∧ delay ≤ backoff p.config attempt ∧
        (withJitter = false → delay = 0)
    | .waitForNetwork attempt => attempt = saturatingSucc p.attempts
    | .giveUp _ => True := by
  unfold nextDecision
  by_cases hdown : (!p.networkReachable) = true
  · rw [if_pos hdown]
  · rw [if_neg hdown]
    by_cases hlimit : (p.config.maxAttempts.any (· ≤ p.attempts)) = true
    · rw [if_pos hlimit]
      trivial
    · rw [if_neg hlimit]
      cases withJitter with
      | true =>
          set counted : ReconnectPolicy := { p with attempts := saturatingSucc p.attempts }
          exact ⟨rfl, counted.jitter_le.trans (ceiling_le (p := counted) hcap _), nofun⟩
      | false => exact ⟨rfl, Nat.zero_le _, fun _ => rfl⟩

/-! ### The ledger -/

inductive PolicyOp where
  | onConnected (now : Instant)
  | onDisconnect (reason : DisconnectReason) (now : Instant)
  | retryNow
  | setNetworkReachable (reachable : Bool)
  | reset
  deriving DecidableEq

/-- One operation, with the decision that it returns. -/
def step (p : ReconnectPolicy) (op : PolicyOp) :
    ReconnectPolicy × List (PolicyOp × Option ReconnectDecision) :=
  match op with
  | .onConnected now => (p.onConnected now, [(op, none)])
  | .onDisconnect reason now =>
    let decided := p.onDisconnect reason now
    (decided.1, [(op, some decided.2)])
  | .retryNow =>
    let decided := p.retryNow
    (decided.1, [(op, some decided.2)])
  | .setNetworkReachable reachable => (p.setNetworkReachable reachable, [(op, none)])
  | .reset => (p.reset, [(op, none)])

/-- The retries since the last reset, and the time at which the running connection was established. -/
structure Ledger where
  made : Nat
  connectedSince : Option Instant

namespace Ledger

def new : Ledger := ⟨0, none⟩

/-- The ledger at the decision of an operation: the drop of a connection that lasted `stableAfter` is a
reset. `ends` says whether an explicit reset also ends the connection. -/
def before (ends : Bool) (stableAfter : Duration) (l : Ledger) : PolicyOp → Ledger
  | .onConnected now => { l with connectedSince := some now }
  | .onDisconnect _ now =>
    let stable := l.connectedSince.any fun since => stableAfter ≤ now - since
    ⟨if stable then 0 else l.made, none⟩
  | .reset => ⟨0, if ends then none else l.connectedSince⟩
  | .retryNow | .setNetworkReachable _ => l

/-- Only a retry is an attempt. -/
def observe (ends : Bool) (stableAfter : Duration) (l : Ledger)
    (o : PolicyOp × Option ReconnectDecision) : Ledger :=
  let l := l.before ends stableAfter o.1
  match o.2 with
  | some (.retry _ _) => { l with made := l.made + 1 }
  | _ => l

/-- A retry has the next number, which saturates, within the limit, and a delay below its backoff. -/
def Accepts (ends : Bool) (config : ReconnectConfig) (l : Ledger)
    (o : PolicyOp × Option ReconnectDecision) : Prop :=
  let next := min ((l.before ends config.stableAfter o.1).made + 1) u32Max
  match o.2 with
  | some (.retry attempt delay) =>
    attempt = next ∧ (∀ limit ∈ config.maxAttempts, attempt ≤ limit) ∧
      delay ≤ backoff config attempt ∧ (o.1 = .retryNow → delay = 0)
  | some (.waitForNetwork attempt) => attempt = next
  | _ => True

instance (ends : Bool) (config : ReconnectConfig) (l : Ledger)
    (o : PolicyOp × Option ReconnectDecision) : Decidable (Accepts ends config l o) := by
  unfold Accepts
  rcases o with ⟨_, _ | decision⟩
  · exact instDecidableTrue
  · cases decision <;> infer_instance

/-- The policy agrees with the ledger in which a reset ends the connection. -/
structure Agrees (config : ReconnectConfig) (p : ReconnectPolicy) (l : Ledger) : Prop where
  config_eq : p.config = config
  attempts_eq : p.attempts = min l.made u32Max
  since_eq : p.connectedSince = l.connectedSince

end Ledger

open Ledger

variable {config : ReconnectConfig} {l : Ledger}

theorem saturatingSucc_min (made : Nat) :
    saturatingSucc (min made u32Max) = min (made + 1) u32Max := by
  unfold saturatingSucc
  omega

/-- A decision of a policy that agrees with the ledger is accepted, and counted as the ledger does. -/
theorem agrees_nextDecision (hcap : config.cap ≤ .max) (op : PolicyOp) (withJitter : Bool)
    (h : Agrees config p (l.before true config.stableAfter op))
    (hnow : op = .retryNow → withJitter = false) :
    let decided := p.nextDecision withJitter
    Accepts true config l (op, some decided.2) ∧
      Agrees config decided.1 (l.observe true config.stableAfter (op, some decided.2)) := by
  obtain ⟨rfl, hattempts, hsince⟩ := h
  set drawn := l.before true p.config.stableAfter op
  have hnext : saturatingSucc p.attempts = min (drawn.made + 1) u32Max := by
    rw [hattempts, saturatingSucc_min]
  obtain ⟨hframe, hcount⟩ := p.nextDecision_spec withJitter
  have hattempt := nextDecision_attempt hcap withJitter
  have hagrees : ∀ made, (p.nextDecision withJitter).1.attempts = min made u32Max →
      Agrees p.config (p.nextDecision withJitter).1 ⟨made, drawn.connectedSince⟩ := by
    intro made hmade
    refine ⟨?_, hmade, ?_⟩
    · rw [hframe]
    · rw [hframe, hsince]
  dsimp only
  unfold Accepts observe
  cases hdecision : (p.nextDecision withJitter).2 with
  | retry attempt delay =>
      rw [hdecision] at hcount hattempt
      obtain ⟨-, hmoved, hlimit⟩ := hcount
      obtain ⟨hnumber, hdelay, hzero⟩ := hattempt
      refine ⟨⟨hnumber.trans hnext, fun limit hsome => ?_, hdelay, fun hop => hzero (hnow hop)⟩, ?_⟩
      · have hbelow := hlimit limit hsome
        rw [hnumber, saturatingSucc]
        omega
      · exact hagrees _ (hmoved.trans hnext)
  | waitForNetwork attempt =>
      rw [hdecision] at hcount hattempt
      exact ⟨hattempt.trans hnext, hagrees _ (hcount.2.trans hattempts)⟩
  | giveUp reason =>
      rw [hdecision] at hcount
      exact ⟨trivial, hagrees _ (hcount.trans hattempts)⟩

theorem agrees_atDrop (h : Agrees config p l) (reason : DisconnectReason) (now : Instant) :
    Agrees config (p.atDrop now) (l.before true config.stableAfter (.onDisconnect reason now)) := by
  obtain ⟨rfl, hattempts, hsince⟩ := h
  refine ⟨rfl, ?_, rfl⟩
  unfold atDrop countAt before
  rw [← hsince]
  dsimp only
  split_ifs
  · rfl
  · exact hattempts

/-- Every operation is accepted, and the policy keeps agreeing with the ledger. -/
theorem step_agrees (hcap : config.cap ≤ .max) (h : Agrees config p l) (op : PolicyOp) :
    Transition.Holds (observe true config.stableAfter) (Accepts true config) l (step p op).2 ∧
      Agrees config (step p op).1 ((step p op).2.foldl (observe true config.stableAfter) l) := by
  rw [step.eq_def]
  cases op with
  | onConnected now => exact ⟨⟨trivial, trivial⟩, h.config_eq, h.attempts_eq, rfl⟩
  | setNetworkReachable reachable =>
      exact ⟨⟨trivial, trivial⟩, h.config_eq, h.attempts_eq, h.since_eq⟩
  | reset => exact ⟨⟨trivial, trivial⟩, h.config_eq, rfl, rfl⟩
  | retryNow =>
      obtain ⟨haccepts, hagrees⟩ := agrees_nextDecision hcap .retryNow false h fun _ => rfl
      exact ⟨⟨haccepts, trivial⟩, hagrees⟩
  | onDisconnect reason now =>
      have hdrop := agrees_atDrop h reason now
      dsimp only
      rw [onDisconnect_eq]
      by_cases hretryable : reason.isRetryable = true
      · rw [if_pos hretryable]
        obtain ⟨haccepts, hagrees⟩ := agrees_nextDecision hcap _ true hdrop nofun
        exact ⟨⟨haccepts, trivial⟩, hagrees⟩
      · rw [if_neg hretryable]
        exact ⟨⟨trivial, trivial⟩, hdrop⟩

theorem agrees_new (config : ReconnectConfig) (seed : UInt64) :
    Agrees config (new config seed) .new := ⟨rfl, rfl, rfl⟩

/-- **Attempts are numbered and delayed within bounds.** In every run the ledger in which an explicit reset
ends the connection accepts each decision, and for every attempt the delay is computed without an overflow
below a ceiling that grows with the attempt. -/
theorem attempts_in_bounds (config : ReconnectConfig) (hcap : config.cap ≤ .max) (seed : UInt64)
    (ops : List PolicyOp) :
    let run := Transition.run step (new config seed) ops
    Transition.Holds (observe true config.stableAfter) (Accepts true config) .new run.2 ∧
      Monotone run.1.ceiling ∧
      ∀ attempt, run.1.ceiling attempt ≤ backoff config attempt ∧
        run.1.delayChecked attempt = some { run.1 with attempts := attempt }.jitter.2 := by
  intro run
  obtain ⟨hholds, hagrees⟩ := Transition.run_holds (P := fun _ _ _ => True) (Agrees config)
    (fun _ _ op h _ => step_agrees hcap h op) (agrees_new config seed)
    (Transition.along_of_forall (fun _ _ _ => trivial) _ _ ops)
  have hrun : run.1.config = config := hagrees.config_eq
  have hcap' : run.1.config.cap ≤ .max := hrun ▸ hcap
  refine ⟨hholds, ceiling_mono hcap', fun attempt => ⟨?_, delayChecked_eq hcap' attempt⟩⟩
  rw [← hrun]
  exact ceiling_le hcap' attempt

theorem attempts_in_bounds_default :
    ReconnectConfig.default.cap ≤ .max ∧
      Transition.Holds (observe true ReconnectConfig.default.stableAfter) (Accepts true .default) .new
        (Transition.run step (new .default 7) [.onConnected 0, .onDisconnect .network 5]).2 :=
  ⟨by decide, (attempts_in_bounds .default (by decide) 7 [.onConnected 0, .onDisconnect .network 5]).1⟩

/-- An explicit reset makes the policy forget the connection that is up: its drop, after `stableAfter`, does
not start the count again. -/
theorem reset_forgets_connection :
    ¬ Transition.Holds (observe false ReconnectConfig.default.stableAfter)
      (Accepts false .default) .new
      (Transition.run step (new .default 7)
        [.onConnected 0, .reset, .retryNow, .onDisconnect .network (Duration.fromSecs 60)]).2 := by
  decide

end ReconnectPolicy

end Drift
