import Drift.Clipboard.Pasteboard
import Mathlib.Data.Finset.Image

/-!
# The clipboard pump

`ClipboardPump` polls the pasteboard on a timer and tells the live sessions about local copies. It remembers
which sessions it has told or seeded by their window and generation, as a window that reconnects gets a
session that knows nothing. `Fanout` is the system around it: the pasteboard that anyone may change, the
sessions of the manager, and what each of them was last told.
-/

namespace Drift.App

open Clipboard

/-- What the pump remembers a session by: its window and its generation. -/
abbrev SessionKey := String × Nat

/-- One live session, as the pump sees it. -/
structure LiveSession where
  window : String
  clipboard : ClipboardPrefs
  generation : Nat
  deriving DecidableEq

def LiveSession.key (session : LiveSession) : SessionKey := (session.window, session.generation)

def rank : ClipboardPrefs → Nat
  | .off => 0
  | .text => 1
  | .textAndImages => 2

/-- The level that a single read must satisfy for every session; the last of several maxima. -/
def mostPermissive (levels : List ClipboardPrefs) : ClipboardPrefs :=
  levels.foldl (fun best level => if rank best ≤ rank level then level else best) .off

/-- What a tick does to the outside: it reads the pasteboard and sends contents to windows. -/
inductive PumpOut where
  | read (level : ClipboardPrefs)
  | send (window : String) (contents : ClipboardContents)
  deriving DecidableEq

structure ClipboardPump where
  watcher : PasteboardWatcher
  seeded : Finset SessionKey
  deriving DecidableEq

namespace ClipboardPump

/-- The state of the pasteboard at the start is not a change. -/
def new (pb : Pasteboard) : ClipboardPump := ⟨⟨pb.changeCount⟩, ∅⟩

def syncing (live : List LiveSession) : List LiveSession :=
  live.filter fun session => session.clipboard ≠ .off

def tick (reps : BitmapReps) (pump : ClipboardPump) (pb : Pasteboard) (live : List LiveSession) :
    ClipboardPump × List PumpOut :=
  let level := mostPermissive (live.map (·.clipboard))
  let keys := (live.map (·.key)).toFinset
  match pump.watcher.poll reps pb level with
  | (watcher, some change) =>
    -- Everyone hears about a real change, so nobody needs seeding afterwards.
    (⟨watcher, keys⟩,
      .read level :: (syncing live).map fun session => .send session.window change.contents)
  | (watcher, none) =>
    let fresh := (syncing live).filter fun session => session.key ∉ pump.seeded
    let pump : ClipboardPump := ⟨watcher, keys⟩
    if fresh.isEmpty then (pump, [])
    else
      let snapshot := PasteboardWatcher.snapshot reps pb level
      let reads := if level = .off then [] else [.read level]
      if snapshot.contents.isEmpty then (pump, reads)
      else (pump, reads ++ fresh.map fun session => .send session.window snapshot.contents)

end ClipboardPump

/-! ### The system -/

/-- The pasteboard, the live sessions with what each was last told and whether the last command to it
failed, and the pump, which the first tick makes. -/
structure Fanout where
  pb : Pasteboard
  sessions : List LiveSession
  nextGeneration : Nat
  pump : Option ClipboardPump
  told : SessionKey → Option ClipboardContents
  failed : SessionKey → Bool

namespace Fanout

def new (pb : Pasteboard) : Fanout where
  pb := pb
  sessions := []
  nextGeneration := 0
  pump := none
  told := fun _ => none
  failed := fun _ => false

/-- What happens between ticks, and a tick with the windows whose commands arrive. -/
inductive Input where
  | change (skipped : Nat) (text : Option String) (png tiff : Option Bytes)
  | opened (window : String) (clipboard : ClipboardPrefs)
  | ended (window : String)
  | tick (arrives : String → Bool)

/-- Anyone writes to the pasteboard; its change count moves on. -/
def change (s : Fanout) (skipped : Nat) (text : Option String) (png tiff : Option Bytes) : Fanout :=
  { s with pb := ⟨s.pb.changeCount + 1 + skipped, text, png, tiff⟩ }

def ended (s : Fanout) (window : String) : Fanout :=
  { s with sessions := s.sessions.filter fun session => session.window ≠ window }

/-- A window gets a session of a new generation, in place of one it may have. -/
def opened (s : Fanout) (window : String) (clipboard : ClipboardPrefs) : Fanout :=
  { s.ended window with
    sessions := ⟨window, clipboard, s.nextGeneration + 1⟩ :: (s.ended window).sessions
    nextGeneration := s.nextGeneration + 1 }

/-- Contents sent to a window reach its session, or are lost. -/
def deliver (arrives : String → Bool) (s : Fanout) : PumpOut → Fanout
  | .read _ => s
  | .send window contents =>
    match s.sessions.find? fun session => session.window = window with
    | none => s
    | some session =>
      if arrives window then
        { s with
          told := Function.update s.told session.key (some contents)
          failed := Function.update s.failed session.key false }
      else { s with failed := Function.update s.failed session.key true }

def tick (reps : BitmapReps) (s : Fanout) (arrives : String → Bool) : Fanout × List PumpOut :=
  let pump := s.pump.getD (.new s.pb)
  let (pump, outs) := pump.tick reps s.pb s.sessions
  (outs.foldl (deliver arrives) { s with pump := some pump }, outs)

def step (reps : BitmapReps) (s : Fanout) : Input → Fanout × List PumpOut
  | .change skipped text png tiff => (s.change skipped text png tiff, [])
  | .opened window clipboard => (s.opened window clipboard, [])
  | .ended window => (s.ended window, [])
  | .tick arrives => s.tick reps arrives

end Fanout

end Drift.App
