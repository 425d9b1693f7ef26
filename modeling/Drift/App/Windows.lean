import Drift.Lib.Transition
import Mathlib.Logic.Function.Basic

/-!
# Windows and their recordings

A window has a render thread, whose compositor owns the sender of the captured frames, and, while it is
recorded, the handle of the recording thread, which reads them. Both are let go of on the main thread,
which waits for the threads that it joins.
-/

namespace Drift.App

open Transition

/-- A render thread, and the stream that its compositor feeds while it is recorded. -/
structure RenderThread where
  stopped : Bool
  recorder : Option Nat
  deriving DecidableEq

/-- A stream of captured frames: the deliveries of command buffers that are in flight, each with a sender
of its own, the frames that wait in the channel, and whether the recording thread goes on reading. -/
structure FrameStream where
  deliveries : Nat
  queued : Nat
  reading : Bool
  deriving DecidableEq

namespace FrameStream

def queueDepth : Nat := 4

/-- A command buffer completes, and delivers its frame if the receiver is there and has room. -/
def deliver (t : FrameStream) : FrameStream :=
  if t.deliveries = 0 then t
  else
    { t with
      deliveries := t.deliveries - 1
      queued := if t.reading && t.queued < queueDepth then t.queued + 1 else t.queued }

/-- The recording thread takes a frame, or finds the stream ended, or waits; it may also be done by itself,
which drops the receiver. -/
def read (t : FrameStream) (ended done : Bool) : FrameStream :=
  if !t.reading then t
  else if done then { t with queued := 0, reading := false }
  else if 0 < t.queued then { t with queued := t.queued - 1 }
  else if ended && t.deliveries = 0 then { t with reading := false }
  else t

end FrameStream

/-- The render thread and the recording of a window, by their numbers. -/
structure WindowPlatform where
  render : Option Nat
  recording : Option Nat
  deriving DecidableEq

/-- What the main thread does with the threads of a window. -/
inductive Op (Label : Type) where
  | shutdown (render : Nat)
  | stopRecording (render : Nat)
  | startRecording (label : Label) (render : Nat) (spawned : Bool)
  | join (recording : Nat)

/-- `todo` is what the main thread has still to do on its present path. -/
structure Windows (Label : Type) where
  platforms : Label → Option WindowPlatform
  renders : List RenderThread
  streams : List FrameStream
  todo : List (Op Label)

namespace Windows

variable {Label : Type} [DecidableEq Label]

def new : Windows Label := ⟨fun _ => none, [], [], []⟩

/-- A compositor owns the sender of the stream. -/
def feeds (s : Windows Label) (stream : Nat) : Bool := s.renders.any (·.recorder = some stream)

def setPlatform (s : Windows Label) (label : Label) (plat : Option WindowPlatform) : Windows Label :=
  { s with platforms := Function.update s.platforms label plat }

/-- The render thread has done what it was asked for, and the sender that it replaces or drops is gone.
When the recording thread is not spawned, its receiver is gone as well. -/
def exec (s : Windows Label) : Op Label → Windows Label
  | .shutdown render => { s with renders := s.renders.modify render fun _ => ⟨true, none⟩ }
  | .stopRecording render =>
    { s with renders := s.renders.modify render fun t => { t with recorder := none } }
  | .startRecording label render spawned =>
    if (s.renders[render]?).all (·.stopped) then s
    else
      let stream := s.streams.length
      let s := { s with
        renders := s.renders.modify render fun t => { t with recorder := some stream }
        streams := s.streams ++ [⟨0, 0, spawned⟩] }
      if spawned then
        s.setPlatform label ((s.platforms label).map fun plat => { plat with recording := some stream })
      else s
  | .join _ => s

/-! ### The paths of the main thread -/

def releaseSession (s : Windows Label) (label : Label) : Windows Label :=
  match s.platforms label with
  | none => s
  | some plat =>
    { s.setPlatform label (some ⟨none, none⟩) with
      todo := (plat.recording.map .join).toList ++ (plat.render.map .shutdown).toList }

def toggleRecording (s : Windows Label) (label : Label) (spawned : Bool) : Windows Label :=
  match s.platforms label with
  | none => s
  | some plat =>
    match plat.recording with
    | some recording =>
      { s.setPlatform label (some { plat with recording := none }) with
        todo := (plat.render.map .stopRecording).toList ++ [.join recording] }
    | none =>
      match plat.render with
      | none => s
      | some render => { s with todo := [.startRecording label render spawned] }

/-- The window is taken out of the table, and its fields are dropped in their order. -/
def removeWindow (s : Windows Label) (label : Label) : Windows Label :=
  match s.platforms label with
  | none => s
  | some plat =>
    { s.setPlatform label none with
      todo := (plat.render.map .shutdown).toList ++ (plat.recording.map .join).toList }

def prepareWindow (s : Windows Label) (label : Label) : Windows Label :=
  (s.removeWindow label).setPlatform label (some ⟨none, none⟩)

/-- A new render thread. The one before is shut down when it is dropped. -/
def createRenderSink (s : Windows Label) (label : Label) (spawned : Bool) : Windows Label :=
  match s.platforms label with
  | none => s
  | some plat =>
    if spawned then
      { s.setPlatform label (some { plat with render := some s.renders.length }) with
        renders := s.renders ++ [⟨false, none⟩]
        todo := (plat.render.map .shutdown).toList }
    else s

/-! ### The other threads -/

/-- A frame is composed; where there is a recorder and a buffer for it, it is captured. -/
def compose (s : Windows Label) (render : Nat) (slot : Bool) : Windows Label :=
  match (s.renders[render]?).bind (·.recorder) with
  | some stream =>
    if slot then
      { s with streams := s.streams.modify stream fun t => { t with deliveries := t.deliveries + 1 } }
    else s
  | none => s

/-! ### Steps -/

inductive Input (Label : Type) where
  | prepared (label : Label)
  | connected (label : Label) (spawned : Bool)
  | toggled (label : Label) (spawned : Bool)
  | sessionEnded (label : Label)
  | closed (label : Label)
  | main
  | composed (render : Nat) (slot : Bool)
  | completed (stream : Nat)
  | read (stream : Nat) (done : Bool)

/-- The main thread begins to wait for a recording thread, and whether the stream has ended by then. -/
structure Join where
  recording : Nat
  ended : Bool
  deriving DecidableEq

/-- The main thread is about to wait for a recording thread. -/
def arrive (s : Windows Label) : Windows Label × List Join :=
  (s, match s.todo with
    | .join recording :: _ => [⟨recording, !s.feeds recording⟩]
    | _ => [])

/-- A path begins when the main thread is free. -/
def begin (s : Windows Label) (path : Windows Label → Windows Label) : Windows Label × List Join :=
  if s.todo.isEmpty then (path s).arrive else (s, [])

def isReading (s : Windows Label) (stream : Nat) : Bool := (s.streams[stream]?).any (·.reading)

def goOn (s : Windows Label) : Windows Label × List Join :=
  match s.todo with
  | [] => (s, [])
  | .join recording :: rest =>
    if s.isReading recording then (s, []) else ({ s with todo := rest } : Windows Label).arrive
  | op :: rest => ({ s with todo := rest } : Windows Label).exec op |>.arrive

def step (s : Windows Label) : Input Label → Windows Label × List Join
  | .prepared label => s.begin (·.prepareWindow label)
  | .connected label spawned => s.begin (·.createRenderSink label spawned)
  | .toggled label spawned => s.begin (·.toggleRecording label spawned)
  | .sessionEnded label => s.begin (·.releaseSession label)
  | .closed label => s.begin (·.removeWindow label)
  | .main => s.goOn
  | .composed render slot => (s.compose render slot, [])
  | .completed stream => ({ s with streams := s.streams.modify stream FrameStream.deliver }, [])
  | .read stream done =>
    ({ s with streams := s.streams.modify stream (·.read (!s.feeds stream) done) }, [])

/-- A session that ends leaves no recording whose frames still come. -/
def EndsUnrecorded (s : Windows Label) : Input Label → Prop
  | .sessionEnded label => s.todo = [] → ∀ plat recording, s.platforms label = some plat →
      plat.recording = some recording → s.feeds recording = false
  | _ => True

end Windows

end Drift.App
