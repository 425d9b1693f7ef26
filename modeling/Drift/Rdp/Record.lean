import Drift.Clipboard.History
import Drift.Rdp.Actor

/-!
# Reading the record of a session

Summaries of a record: the commands the app gave last, and what the server was told about the
visibility of the session since the last activation. A few steps after which a summary and the state
may disagree have names, to state what holds of the runs that avoid them.
-/

namespace Drift.Rdp

open Clipboard

variable {Geometry : Type}

/-! ### The last commands -/

/-- The values of the last commands of each kind, whichever loop received them. -/
structure Recall (Geometry : Type) where
  geometry : Option Geometry
  visible : Bool
  focused : Bool
  clipboard : Option ClipboardContents
  networkReachable : Bool
  deriving DecidableEq

namespace Recall

def start : Recall Geometry where
  geometry := none
  visible := true
  focused := false
  clipboard := none
  networkReachable := true

/-- A command becomes the last of its kind. -/
def know (m : Recall Geometry) : SessionCommand Geometry → Recall Geometry
  | .resize geometry => { m with geometry := some geometry }
  | .setVisible visible => { m with visible }
  | .focus focused => { m with focused }
  | .clipboardLocalChanged contents => { m with clipboard := some contents }
  | .networkReachable reachable => { m with networkReachable := reachable }
  | _ => m

def observe (m : Recall Geometry) : Out Geometry → Recall Geometry
  | .received _ (some cmd) => m.know cmd
  | _ => m

variable [BEq Geometry]

/-- What a leg is activated with is what the last commands gave. -/
structure Agrees (m : Recall Geometry) (a : Activation Geometry) : Prop where
  geometry : ResizeDriver.SameGeometry a.geometry m.geometry
  visible : a.visible = m.visible
  focused : a.focused = some m.focused
  clipboard : a.clipboard = m.clipboard
  networkReachable : a.networkReachable = m.networkReachable

instance [DecidableEq Geometry] (m : Recall Geometry) (a : Activation Geometry) :
    Decidable (m.Agrees a) :=
  decidable_of_iff
    (ResizeDriver.SameGeometry a.geometry m.geometry ∧ a.visible = m.visible ∧
      a.focused = some m.focused ∧ a.clipboard = m.clipboard ∧
      a.networkReachable = m.networkReachable)
    ⟨fun ⟨hgeometry, hvisible, hfocused, hclipboard, hreachable⟩ =>
      ⟨hgeometry, hvisible, hfocused, hclipboard, hreachable⟩,
      fun h => ⟨h.geometry, h.visible, h.focused, h.clipboard, h.networkReachable⟩⟩

/-- Activations agree with the last commands, and the local contents fed to the clipboard are the
last ones. -/
def Accepts (m : Recall Geometry) : Out Geometry → Prop
  | .activated a => m.Agrees a
  | .clip _ (.localChanged _ contents) _ => m.clipboard = some contents
  | _ => True

instance [DecidableEq Geometry] (m : Recall Geometry) : ∀ o, Decidable (m.Accepts o)
  | .activated a => inferInstanceAs (Decidable (m.Agrees a))
  | .clip _ (.localChanged _ contents) _ =>
    inferInstanceAs (Decidable (m.clipboard = some contents))
  | .received _ _ | .event _ | .wrote _ | .authenticating _ _ | .frameEnded _ _ | .presented _ _
  | .rejected _
  | .clip _ .initialFormatListRequested _ | .clip _ (.remoteFormatList _) _
  | .clip _ (.remoteData _) _ | .clip _ (.remoteDataRequest _) _ | .clip _ (.localWritten _) _
  | .clip _ (.focus _) _ | .clip _ (.prefs _) _ | .clip _ .tick _ => isTrue trivial

end Recall

/-- The actor holds another value than the command gives. -/
def Actor.changedBy [BEq Geometry] (a : Actor Geometry) : SessionCommand Geometry → Bool
  | .resize geometry => !a.resize.geometry.any (· == geometry)
  | .setVisible visible => a.view.visible != visible
  | .focus focused => a.view.focused != focused
  | .clipboardLocalChanged contents => a.clipboardLocal != some contents
  | .networkReachable reachable => a.policy.networkReachable != reachable
  | _ => false

/-- A certificate prompt takes a command that would change what the actor holds, the start-up takes a
change of the reachability, or the user's `reconnectNow` overrides an unreachable network. -/
def Session.losesCommand [BEq Geometry] (s : Session Geometry) : Event Geometry → Bool
  | .receive =>
    match s.phase, s.cmds with
    | .prompting _ _ _, cmd :: _ => s.actor.changedBy cmd
    | .startUp, .networkReachable reachable :: _ =>
      s.actor.changedBy (.networkReachable reachable)
    | .idle, .reconnectNow :: _ => !s.actor.policy.networkReachable
    | _, _ => false
  | _ => false

/-! ### Visibility -/

/-- The last visibility the app asked for, and what the server of the leg was told. -/
structure Shown where
  last : Bool
  told : Option Bool
  deriving DecidableEq

namespace Shown

def start : Shown := ⟨true, none⟩

def observe (m : Shown) : Out Geometry → Shown
  | .received _ (some (.setVisible visible)) => { m with last := visible }
  | .activated _ => { m with told := none }
  | .wrote (.suppressOutput rect) => { m with told := some rect.isSome }
  | _ => m

/-- The sink and the server follow the last command; a server that was told nothing shows output. -/
structure Followed (m : Shown) (a : Actor Geometry) : Prop where
  sink : a.graphics.visible = m.last
  server : m.told.getD true = m.last

instance (m : Shown) (a : Actor Geometry) : Decidable (m.Followed a) :=
  decidable_of_iff (a.graphics.visible = m.last ∧ m.told.getD true = m.last)
    ⟨fun ⟨hsink, hserver⟩ => ⟨hsink, hserver⟩, fun ⟨hsink, hserver⟩ => ⟨hsink, hserver⟩⟩

/-- At the end of a frame the acknowledgements follow the last command. -/
def Acked (m : Shown) : Out Geometry → Prop
  | .frameEnded _ hidden => hidden = !m.last
  | _ => True

instance (m : Shown) : ∀ o : Out Geometry, Decidable (m.Acked o)
  | .frameEnded _ hidden => inferInstanceAs (Decidable (hidden = !m.last))
  | .received _ _ | .event _ | .wrote _ | .authenticating _ _ | .activated _ | .clip _ _ _
  | .presented _ _ | .rejected _ => isTrue trivial

end Shown

def ChannelEvent.opensGfx : ChannelEvent → Bool
  | gfxOpened => true
  | _ => false

namespace Session

/-- A certificate prompt takes a command that would change the visibility. -/
def promptTakesVisibility (s : Session Geometry) : Event Geometry → Bool
  | .receive =>
    match s.phase, s.cmds with
    | .prompting _ _ _, .setVisible visible :: _ => s.actor.view.visible != visible
    | _, _ => false
  | _ => false

/-- A leg is activated visible over a sink that is still hidden. -/
def activatesOverHiddenSink (s : Session Geometry) : Event Geometry → Bool
  | .finalized _ _ _ =>
    match s.phase with
    | .connecting _ _ .finalizing => s.actor.view.visible && !s.actor.graphics.visible
    | _ => false
  | _ => false

/-- The server opens the graphics channel of a leg while the session is hidden. -/
def opensWhileHidden (s : Session Geometry) : Event Geometry → Bool
  | .pdu pdu =>
    match s.phase.leg with
    | some leg =>
      leg.gfx == .registered && pdu.channels.any (·.opensGfx) && !s.actor.view.visible
    | none => false
  | _ => false

end Session

/-! ### Local copies -/

namespace Copies

/-- The contents that were written to the pasteboard and whose first report is still to come. -/
def observe (m : List ClipboardContents) : Out Geometry → List ClipboardContents
  | .clip _ input actions =>
    let m := match input with
      | .localChanged _ contents => m.erase contents
      | _ => m
    m ++ actions.filterMap SyncAction.write?
  | _ => m

/-- A local change that the channel could take is advertised, unless it is the first report of a
write. -/
def Advertised (prefs : ClipboardPrefs) (m : List ClipboardContents) : Out Geometry → Prop
  | .clip canSync (.localChanged _ contents) actions =>
    canSync = true → contents ∈ m ∨
      outboundFormats (filterLocal contents prefs).1 prefs ∈ actions.filterMap SyncAction.formatList?
  | _ => True

instance (prefs : ClipboardPrefs) (m : List ClipboardContents) :
    ∀ o : Out Geometry, Decidable (Advertised prefs m o)
  | .clip canSync (.localChanged _ contents) actions =>
    inferInstanceAs (Decidable (canSync = true → contents ∈ m ∨ _ ∈ actions.filterMap _))
  | .received _ _ | .event _ | .wrote _ | .authenticating _ _ | .activated _ | .frameEnded _ _
  | .presented _ _ | .rejected _ | .clip _ .initialFormatListRequested _ | .clip _ (.remoteFormatList _) _
  | .clip _ (.remoteData _) _ | .clip _ (.remoteDataRequest _) _ | .clip _ (.localWritten _) _
  | .clip _ (.focus _) _ | .clip _ (.prefs _) _ | .clip _ .tick _ => isTrue trivial

end Copies

/-- A local copy that the channel could take equals what the channel wrote last, and the report of that
write is in already. -/
def Session.repeatsWrite (s : Session Geometry) (m : List ClipboardContents) :
    Event Geometry → Bool
  | .receive =>
    match s.phase, s.cmds, s.actor.clipboard with
    | .active _ _, .clipboardLocalChanged contents :: _, some sync =>
      sync.canSync && sync.unackedWrite = some contents && !m.contains contents
    | _, _, _ => false
  | _ => false

/-! ### A sample session -/

/-- A headless profile whose views are described by a number. -/
def sampleConfig (certPin : Option CertFingerprint) : Config Nat where
  platform :=
    { desiredLayout := fun _ _ _ => ⟨1280, 800, 100, 100⟩
      ofDer := id
      hasPublicKey := fun _ => true
      images := ⟨.ok, fun _ => .error (.invalidImage "unsupported")⟩
      cliprdrNotReady := "the channel is not ready"
      channelNotFound := "channel not found" }
  profile :=
    { mode := .headless
      host := "linux"
      port := 3389
      certPin := certPin
      rdpUsername := "user"
      display := ⟨true, true⟩
      clipboard := .textAndImages }
  secrets := ⟨"password", none⟩
  options := ⟨none, .default, 0⟩

/-- A connection that succeeds with a certificate. -/
def connects (leafDer : Bytes) : List (Event Nat) :=
  [.negotiated, .secured leafDer, .finalized ⟨1280, 800⟩ true none]

/-- A command that is received as soon as it is sent. -/
def commands (cmd : SessionCommand Nat) : List (Event Nat) := [.send cmd, .receive]

end Drift.Rdp
