import Drift.Core.Triggers
import Drift.Rdp.Leg

/-!
# Reconnect triggers and the sessions

What a merged trigger tells every live session.
-/

namespace Drift.App

open Rdp

variable {Geometry : Type}

/-- A session is told that the network is back before it is asked to reconnect, and only one that waits
out a backoff is asked. -/
def triggerCommands (action : TriggerAction) (reconnecting : Bool) : List (SessionCommand Geometry) :=
  match action with
  | .pauseReconnect => [.networkReachable false]
  | .retryNow =>
    if reconnecting then [.networkReachable true, .reconnectNow] else [.networkReachable true]

/-- The commands for the live sessions, given by their windows and whether they are reconnecting. -/
def applyTrigger (live : List (String × Bool)) (action : TriggerAction) :
    List (String × SessionCommand Geometry) :=
  live.flatMap fun session => (triggerCommands action session.2).map (session.1, ·)

/-- What arrives at the session of a window. -/
def received (window : String) (sent : List (String × SessionCommand Geometry)) :
    List (SessionCommand Geometry) :=
  (sent.filter (·.1 = window)).map Prod.snd

end Drift.App
