import Drift.Core.Reconnect
import Drift.Rdp.Leg

/-!
# The view of a session window

What a session window shows, folded from the events of its session, with the explanation of a
disconnect in words.
-/

namespace Drift.App

open Rdp

/-! ### Explanations -/

inductive ErrorAction where
  | reconnect
  | editProfile
  | openLocalNetworkSettings
  | close
  deriving DecidableEq

structure ErrorExplanation where
  title : String
  message : String
  nextSteps : List String
  actions : List ErrorAction
  deriving DecidableEq

def localNetworkSettingsPath : String := "System Settings › Privacy & Security › Local Network"

def credentialHint : ConnectMode → String
  | .remoteLogin =>
    "Use the system RDP credentials: on the host run “sudo grdctl --system status " ++
      "--show-credentials”."
  | .headless =>
    "Use the credentials set with “grdctl --headless rdp set-credentials” for that user on the " ++
      "host."
  | .desktopSharing => "Desktop Sharing credentials must be set in GNOME Settings on the host."

def serviceHint : ConnectMode → String
  | .remoteLogin =>
    "Check that Remote Login is enabled on the host: “sudo grdctl --system status”."
  | .headless => "Headless session not running — see host/drift-host-setup.sh."
  | .desktopSharing =>
    "Check that Desktop Sharing is on in GNOME Settings › System › Remote Desktop and that " ++
      "someone is logged in on the host."

def fingerprintHint : ConnectMode → String
  | .remoteLogin => "Compare it with “sudo grdctl --system status” on the host."
  | .headless => "Compare it with “grdctl --headless status” on the host."
  | .desktopSharing => "Compare it with “grdctl status” on the host."

/-- `{code:X}`. -/
def upperHex (code : UInt32) : String :=
  String.ofList ((Nat.toDigits 16 code.toNat).map Char.toUpper)

def explainDisconnect (reason : DisconnectReason) (mode : ConnectMode) : ErrorExplanation :=
  let checkAddress := "Check the host name and port in the profile."
  match reason with
  | .network =>
    ⟨"Can’t reach the host", "Drift couldn’t connect to the remote computer.",
      [serviceHint mode, checkAddress], [.reconnect, .editProfile]⟩
  | .timeout =>
    ⟨"The host didn’t respond", "The connection timed out.", [serviceHint mode, checkAddress],
      [.reconnect, .editProfile]⟩
  | .tlsEof =>
    ⟨"Connection interrupted", "The secure connection to the host closed unexpectedly.",
      ["Reconnect. If this keeps happening, check the network between this Mac and the host."],
      [.reconnect, .close]⟩
  | .serverShutdown =>
    ⟨"The remote desktop service stopped",
      "GNOME Remote Desktop on the host shut the connection down, for example because it " ++
        "restarted.",
      [serviceHint mode, "Then reconnect."], [.reconnect, .close]⟩
  | .authFailed =>
    ⟨"Wrong user name or password", "The host rejected the RDP credentials in this profile.",
      [credentialHint mode, "Update the user name and password in the profile."],
      [.editProfile, .reconnect]⟩
  | .rdstlsFailed code =>
    ⟨"Login hand-off failed",
      "The host rejected the one-time login that follows the GNOME login screen (code 0x" ++
        upperHex code ++ "). One-time logins can’t be reused.",
      ["Reconnect to start again from the login screen."], [.reconnect, .close]⟩
  | .certMismatch =>
    ⟨"The host’s certificate changed",
      "The certificate doesn’t match the one you trusted before. The host may have been " ++
        "reinstalled, or someone may be intercepting the connection.",
      [fingerprintHint mode,
        "If you trust the change, clear the saved certificate in the profile and connect again."],
      [.editProfile, .close]⟩
  | .protocolError detail =>
    ⟨"Unexpected data from the host",
      "The connection failed because the host sent something Drift didn’t expect (" ++ detail ++
        ").",
      ["Reconnect. If this keeps happening, check that the host runs GNOME Remote Desktop 50 or " ++
        "later."],
      [.reconnect, .close]⟩
  | .redirectLoop =>
    ⟨"Too many redirects",
      "The host kept redirecting the connection instead of opening a session.",
      ["End stale remote sessions on the host (see “loginctl list-sessions”), then reconnect."],
      [.reconnect, .close]⟩
  | .userClosed => ⟨"Disconnected", "You closed the connection.", [], [.reconnect, .close]⟩
  | .loggedOffRemotely =>
    ⟨"Logged out", "The remote session was logged out on the host.",
      ["Reconnect to log in again."], [.reconnect, .close]⟩
  | .localNetworkDenied =>
    ⟨"Drift can’t access your local network",
      "macOS blocked Drift from connecting to computers on your local network.",
      ["Open " ++ localNetworkSettingsPath ++ " and turn on Drift.", "Then reconnect."],
      [.openLocalNetworkSettings, .reconnect]⟩

/-! ### The view -/

inductive Screen where
  | profiles
  | connecting
  | certificate
  | greeterHint
  | reconnecting
  | error
  | live
  deriving DecidableEq

inductive CertificateSubject where
  | server
  | redirectTarget
  deriving DecidableEq

def CertificateSubject.ofRole : CertificateRole → CertificateSubject
  | .server => .server
  | .redirectTarget => .redirectTarget

structure CertificatePrompt where
  host : String
  port : UInt16
  fingerprint : CertFingerprint
  subject : CertificateSubject
  grdctlCommand : String
  deriving DecidableEq

/-- A statistics sample as it is displayed. -/
structure StatsView where
  fpsTenths : Nat
  mbitTenths : Nat
  latencyP95TenthsMs : Nat
  unackedFrames : Nat
  deriving DecidableEq

/-- The events of a session; a statistics sample comes in its displayed form. -/
inductive SessionEvent where
  | session (event : Rdp.SessionEvent)
  | stats (sample : StatsView)
  deriving DecidableEq

abbrev Uuid := BitVec 128

structure ConnectionProfile where
  id : Uuid
  name : String
  mode : ConnectMode
  linuxUsername : Option String
  deriving DecidableEq

structure SessionView where
  profileName : String
  mode : ConnectMode
  linuxUsername : Option String
  state : SessionState
  screen : Screen
  certificate : Option CertificatePrompt
  explanation : Option ErrorExplanation
  resuming : Bool
  maxAttempts : Option Nat
  showStats : Bool
  stats : Option StatsView
  deriving DecidableEq

def grdctlStatusCommand : ConnectMode → String
  | .remoteLogin => "sudo grdctl --system status"
  | .headless => "grdctl --headless status"
  | .desktopSharing => "grdctl status"

namespace SessionView

def refresh (view : SessionView) : SessionView :=
  { view with
    explanation :=
      match view.state with
      | .disconnected reason | .failed reason => some (explainDisconnect reason view.mode)
      | _ => none
    screen :=
      if view.certificate.isSome then .certificate
      else
        match view.state with
        | .idle => .profiles
        | .connecting _ _ => .connecting
        | .awaitingGreeterLogin => .greeterHint
        | .connected _ _ => .live
        | .reconnecting _ _ _ => .reconnecting
        | .disconnected _ | .failed _ => .error }

def new (profile : ConnectionProfile) : SessionView :=
  refresh
    { profileName := profile.name
      mode := profile.mode
      linuxUsername := profile.linuxUsername
      state := .idle
      screen := .profiles
      certificate := none
      explanation := none
      resuming := false
      maxAttempts := ReconnectConfig.default.maxAttempts
      showStats := false
      stats := none }

/-- Folds an event into the view, which is refreshed afterwards. -/
def fold (view : SessionView) : SessionEvent → SessionView
  | .session (.state state) =>
    { view with
      resuming :=
        match state with
        | .connected _ _ => true
        | .idle => false
        | _ => view.resuming
      stats :=
        match state with
        | .connected _ _ | .awaitingGreeterLogin => view.stats
        | _ => none
      state := state
      certificate := none }
  | .session (.certificatePrompt host port fingerprint role) =>
    { view with
      certificate :=
        some ⟨host, port, fingerprint, .ofRole role, grdctlStatusCommand view.mode⟩ }
  | .stats sample => { view with stats := some sample }
  | _ => view

/-- The view after an event, and whether it changed. -/
def apply (view : SessionView) (event : SessionEvent) : SessionView × Bool :=
  let next := (view.fold event).refresh
  (next, next ≠ view)

def clearCertificate (view : SessionView) : SessionView :=
  refresh { view with certificate := none }

/-- An event that does not change the view leaves it as it was. -/
theorem apply_eq_of_not_changed {view : SessionView} {event : SessionEvent}
    (h : (view.apply event).2 = false) : (view.apply event).1 = view := by
  simpa [apply] using h

theorem showStats_apply (view : SessionView) (event : SessionEvent) :
    (view.apply event).1.showStats = view.showStats := by
  cases event with
  | session event => cases event <;> rfl
  | stats sample => rfl

end SessionView

end Drift.App
