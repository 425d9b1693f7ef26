import Drift.App.Pump
import Drift.Rdp.Record

/-!
# A session at the desk

A session together with the pasteboard: what the session writes goes to the pasteboard in order, and the
clipboard pump polls the pasteboard for all sessions and reports its changes to this one. A user copies
things in between.
-/

namespace Drift.App

open Clipboard Rdp

variable {Geometry : Type}

/-! ### The desk -/

/-- `remote` holds the contents on their way to the pasteboard; `own` says that the pasteboard holds a
write of the session. -/
structure Desk (Geometry : Type) where
  session : Session Geometry
  remote : List ClipboardContents
  pasteboard : Pasteboard
  own : Bool
  pump : ClipboardPump

structure DeskConfig (Geometry : Type) where
  session : Config Geometry
  reps : BitmapReps
  window : String
  generation : Nat

inductive DeskEvent (Geometry : Type) where
  | session (event : Rdp.Event Geometry)
  | write
  | copy (text : Option String) (png tiff : Option Bytes)
  | tick (others : List LiveSession)

/-- What happened, for the record: besides what the session did, the reports of the pump to it, each
with whether the pasteboard held a write of the session. -/
inductive DeskOut (Geometry : Type) where
  | session (out : Rdp.Out Geometry)
  | reported (own : Bool)

def remoteContents? : Rdp.Out Geometry → Option ClipboardContents
  | .event (.clipboardRemote contents) => some contents
  | _ => none

/-- What the pump sends to the session of a window. -/
def sentTo? (window : String) : PumpOut → Option ClipboardContents
  | .read _ => none
  | .send target contents => if target = window then some contents else none

def isReport : Rdp.Event Geometry → Bool
  | .send (.clipboardLocalChanged _) => true
  | _ => false

namespace Desk

variable (cfg : DeskConfig Geometry)

def self : LiveSession := ⟨cfg.window, cfg.session.profile.clipboard, cfg.generation⟩

def new (pasteboard : Pasteboard) : Desk Geometry where
  session := .new cfg.session
  remote := []
  pasteboard := pasteboard
  own := false
  pump := .new pasteboard

variable [BEq Geometry]

def step (d : Desk Geometry) : DeskEvent Geometry → Desk Geometry × List (DeskOut Geometry)
  | .session event =>
    if isReport event then (d, [])
    else
      let next := d.session.step cfg.session event
      ({ d with session := next.1, remote := d.remote ++ next.2.filterMap remoteContents? },
        next.2.map .session)
  | .write =>
    match d.remote with
    | [] => (d, [])
    | contents :: remote =>
      ({ d with
          remote := remote
          pasteboard := d.pasteboard.write cfg.reps contents
          own := true }, [])
  | .copy text png tiff =>
    ({ d with pasteboard := ⟨d.pasteboard.changeCount + 1, text, png, tiff⟩, own := false }, [])
  | .tick others =>
    let ticked := d.pump.tick cfg.reps d.pasteboard (others ++ [self cfg])
    match ticked.2.findSome? (sentTo? cfg.window) with
    | none => ({ d with pump := ticked.1 }, [])
    | some contents =>
      if d.session.handles then
        ({ d with
            pump := ticked.1
            session := d.session.onApp (.send (.clipboardLocalChanged contents)) },
          [.reported d.own])
      else ({ d with pump := ticked.1 }, [])

/-- The desk after some events, and the record of what happened. -/
def history (pasteboard : Pasteboard) (es : List (DeskEvent Geometry)) :
    Desk Geometry × List (DeskOut Geometry) :=
  Transition.run (step cfg) (new cfg pasteboard) es

end Desk

/-! ### Where local contents come from -/

/-- Which of the reports on their way are about a write of the session itself, and whether the contents
the actor remembers and those the channel of the leg knows are such a write. -/
structure Provenance where
  reports : List Bool
  remembered : Bool
  known : Bool
  deriving DecidableEq

namespace Provenance

def start : Provenance := ⟨[], false, false⟩

def observe (m : Provenance) : Rdp.Out Geometry → Provenance
  | .received loop (some (.clipboardLocalChanged _)) =>
    { m with
      reports := m.reports.tail
      remembered := if loop = .prompt then m.remembered else m.reports.head?.getD false }
  | .activated _ => { m with known := false }
  | .clip _ (.localChanged _ _) _ => { m with known := m.remembered }
  | _ => m

/-- No write of the session itself is advertised; the initial list may be empty. -/
def Faithful (m : Provenance) : Rdp.Out Geometry → Prop
  | .clip _ input actions =>
    match input with
    | .localChanged _ _ => m.remembered = true → actions.filterMap SyncAction.formatList? = []
    | .initialFormatListRequested =>
      m.known = true → ∀ formats ∈ actions.filterMap SyncAction.formatList?, formats = []
    | _ => m.known = true → actions.filterMap SyncAction.formatList? = []
  | _ => True

instance (m : Provenance) : ∀ o : Rdp.Out Geometry, Decidable (m.Faithful o)
  | .clip _ (.localChanged _ _) _ | .clip _ (.remoteFormatList _) _ | .clip _ (.remoteData _) _
  | .clip _ (.remoteDataRequest _) _ | .clip _ (.localWritten _) _ | .clip _ (.focus _) _
  | .clip _ (.prefs _) _ | .clip _ .tick _ => inferInstanceAs (Decidable (_ = true → _ = _))
  | .clip _ .initialFormatListRequested actions =>
    inferInstanceAs (Decidable (_ = true → ∀ formats ∈ actions.filterMap _, _))
  | .received _ _ | .event _ | .wrote _ | .authenticating _ _ | .activated _ | .frameEnded _ _
  | .presented _ _ | .rejected _ => isTrue trivial

def observeDesk (m : Provenance) : DeskOut Geometry → Provenance
  | .session out => m.observe out
  | .reported own => { m with reports := m.reports ++ [own] }

def FaithfulDesk (m : Provenance) : DeskOut Geometry → Prop
  | .session out => m.Faithful out
  | .reported _ => True

instance (m : Provenance) : ∀ o : DeskOut Geometry, Decidable (m.FaithfulDesk o)
  | .session out => inferInstanceAs (Decidable (m.Faithful out))
  | .reported _ => isTrue trivial

end Provenance

/-- The session is about to take a write of its own for a local copy: a report of it that differs from the
last write is received by a channel that can sync, or the channel, which knows such contents as the
local ones, gains the focus with a change to advertise or answers a request for the initial list. -/
def takesOwnForCopy (s : Session Geometry) (m : Provenance) : Rdp.Event Geometry → Bool
  | .receive =>
    match s.phase, s.cmds, s.actor.clipboard with
    | .active _ _, .clipboardLocalChanged contents :: _, some sync =>
      m.reports.head?.getD false && sync.canSync && sync.unackedWrite ≠ some contents
    | .active _ _, .focus true :: _, some sync => m.known && sync.pendingLocal
    | _, _, _ => false
  | .pdu pdu =>
    match s.phase, s.actor.clipboard with
    | .active _ _, some sync =>
      m.known && sync.focused && sync.prefs ≠ .off && sync.local'.isSome &&
        sync.localFormats ≠ [] && pdu.callbacks.any (· matches .initialFormatList)
    | _, _ => false
  | _ => false

def takesOwn (d : Desk Geometry) (m : Provenance) : DeskEvent Geometry → Bool
  | .session event => takesOwnForCopy d.session m event
  | .write | .copy _ _ _ | .tick _ => false

end Drift.App
