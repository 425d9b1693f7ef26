import Drift.Core.State
import Drift.Lib.Transition

/-!
# Reconnect triggers

The notifications of the platform about sleep and the network are merged into at most one action for
every real change.
-/

namespace Drift

inductive Trigger where
  | networkOffline
  | networkOnline
  | wake
  deriving DecidableEq

inductive TriggerAction where
  | pauseReconnect
  | retryNow
  deriving DecidableEq

structure TriggerMerger where
  debounce : Duration
  online : Bool
  lastRetry : Option Instant
  deriving DecidableEq

namespace TriggerMerger

def defaultDebounce : Duration := .fromSecs 2

def withDebounce (online : Bool) (debounce : Duration) : TriggerMerger := ⟨debounce, online, none⟩

def new (online : Bool) : TriggerMerger := withDebounce online defaultDebounce

def isOnline (m : TriggerMerger) : Bool := m.online

def retry (m : TriggerMerger) (now : Instant) : TriggerMerger × Option TriggerAction :=
  -- `saturating_duration_since`
  if m.lastRetry.any fun t => now - t < m.debounce then (m, none)
  else ({ m with lastRetry := some now }, some .retryNow)

def onTrigger (m : TriggerMerger) (trigger : Trigger) (now : Instant) :
    TriggerMerger × Option TriggerAction :=
  match trigger with
  | .networkOffline =>
    -- The next `networkOnline` must retry even if a retry fired just before the network dropped.
    if m.online then ({ m with online := false, lastRetry := none }, some .pauseReconnect)
    else (m, none)
  | .networkOnline => if m.online then (m, none) else { m with online := true }.retry now
  | .wake => if m.online then m.retry now else (m, none)

/-- The merger as a machine: the actions, each with its time. -/
def step (m : TriggerMerger) (input : Trigger × Instant) :
    TriggerMerger × List (TriggerAction × Instant) :=
  let next := m.onTrigger input.1 input.2
  (next.1, next.2.toList.map (·, input.2))

end TriggerMerger

/-- Whether the network is there after an action. -/
def TriggerAction.online : TriggerAction → Bool
  | .pauseReconnect => false
  | .retryNow => true

end Drift
