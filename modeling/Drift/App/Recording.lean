import Drift.Video.Encoder

/-!
# The recording thread

The thread of a recording takes captured frames, encodes them, with an encoder for their size, and appends
the pictures that come out to the file, until the stream of frames ends.
-/

namespace Drift.App

open Transition Drift.Video

/-- What the platform does when the thread is done: it is told to complete the frames, and the file is
finished. -/
structure StreamEnd where
  completed : Int
  writer : Platform

/-- `ended` says that the thread has returned. -/
structure RecordingThread where
  recorder : Recorder
  encoder : Option VtEncoder
  ended : Bool

/-- Appends frames; the flag says that the recorder stopped by itself. -/
def append (recorder : Recorder) : List Encoded → Recorder × List Happening × Bool
  | [] => (recorder, [], false)
  | frame :: frames =>
    let (recorder, events, result) := recorder.append frame.picture.writer frame
    match result with
    | .ok .recording =>
      let (recorder, happened, stopped) := append recorder frames
      (recorder, events.map .event ++ .appended frame :: happened, stopped)
    | .ok (.stopped _) | .error _ => (recorder, events.map .event, true)

namespace RecordingThread

def start (p : Platform) (path : Path) : RecordingThread × List Happening :=
  let (recorder, events, result) := Recorder.new.start p path
  (⟨recorder, none, !result.isOk⟩, events.map .event)

def stop (c : StreamEnd) (t : RecordingThread) : RecordingThread × List Happening :=
  let (recorder, events, _) := t.recorder.stop c.writer
  ({ t with recorder := recorder, ended := true }, events.map .event)

/-- After the loop: what the encoder holds back is appended, and the recording stopped. -/
def close (c : StreamEnd) (t : RecordingThread) : RecordingThread × List Happening :=
  match t.encoder with
  | none => t.stop c
  | some encoder =>
    match (encoder.flush c.completed).2 with
    | .error _ => t.stop c
    | .ok tail =>
      let (recorder, happened, stopped) := append t.recorder tail
      let t := { t with recorder := recorder, encoder := none }
      if stopped then ({ t with ended := true }, happened)
      else
        let (t, rest) := t.stop c
        (t, happened ++ rest)

/-- An encoder for the size of the frame, in place of another one. -/
def encoderFor (t : RecordingThread) (shot : Shot) :
    List Happening × Except EncodeError VtEncoder :=
  match t.encoder with
  | some encoder =>
    if encoder.size = shot.size then ([], .ok encoder)
    else
      match VtEncoder.new shot.size shot.created with
      | .ok new => ([.replaced], .ok new)
      | .error e => ([], .error e)
  | none => ([], VtEncoder.new shot.size shot.created)

def frame (c : StreamEnd) (t : RecordingThread) (shot : Shot) : RecordingThread × List Happening :=
  match t.encoderFor shot with
  | (_, .error _) => t.close c
  | (replaced, .ok encoder) =>
    let (encoder, accepted, result) := encoder.encode shot
    let t := { t with encoder := some encoder }
    match result with
    | .error _ =>
      let (t, rest) := t.close c
      (t, replaced ++ accepted ++ rest)
    | .ok encoded =>
      let (recorder, appended, stopped) := append t.recorder encoded
      ({ t with recorder := recorder, ended := stopped }, replaced ++ accepted ++ appended)

/-- What the thread receives: a frame, or the end of the stream. -/
inductive Input where
  | frame (shot : Shot)
  | ended

def step (c : StreamEnd) (t : RecordingThread) (i : Input) : RecordingThread × List Happening :=
  if t.ended then (t, [])
  else
    match i with
    | .frame shot => t.frame c shot
    | .ended => t.close c

/-- The thread, from its start to the end of the stream. -/
def record (p : Platform) (path : Path) (c : StreamEnd) (shots : List Shot) : List Happening :=
  let (t, started) := start p path
  started ++ (run (step c) t (shots.map .frame ++ [.ended])).2

end RecordingThread

/-! ### What a recording owes to its frames -/

/-- The frames that were accepted by encoders, and those that were appended. -/
structure Tally where
  accepted : List Encoded
  appended : List Encoded

namespace Tally

def new : Tally := ⟨[], []⟩

def note (m : Tally) : Happening → Tally
  | .accepted frame => { m with accepted := m.accepted ++ [frame] }
  | .appended frame => { m with appended := m.appended ++ [frame] }
  | .replaced | .event _ => m

/-- The times of the frames that are appended increase, and nothing is left when an encoder is replaced or
the recording stops. -/
def Accepts (m : Tally) : Happening → Prop
  | .appended frame => ∀ earlier ∈ m.appended, earlier.pts < frame.pts
  | .replaced | .event (.stopped _ _ _) => m.appended = m.accepted
  | .accepted _ | .event (.started _) => True

end Tally

/-- The recording appends the frames of its encoders, with times that increase. -/
def KeepsFrames (happened : List Happening) : Prop :=
  Holds Tally.note Tally.Accepts Tally.new happened

/-! ### When it does -/

namespace RecordingThread

/-- The frames that the encoder holds back. -/
def pending (t : RecordingThread) : List Encoded :=
  ((t.encoder.bind (·.session)).map (·.pending)).getD []

def Clears (c : StreamEnd) (t : RecordingThread) : Prop := c.completed = 0 ∨ t.pending = []

/-- No frame is lost or out of order. A frame of the size of the encoder is not accepted, or is later in
microseconds than the one before and kept. Where there is no encoder for it and none can be made, the old
one can be flushed; where one is made, the old one holds nothing back, and the frame is not accepted unless
it is the first one, and kept. -/
def Smooth (c : StreamEnd) (t : RecordingThread) : Input → Prop
  | .ended => t.Clears c
  | .frame shot =>
    match t.encoder.filter (·.size = shot.size) with
    | some encoder =>
      match shot.accepted? encoder.timeline with
      | some micros => (∀ last ∈ encoder.timeline.last, last / 1000 < micros) ∧ shot.Kept false
      | none => t.Clears c
    | none =>
      if shot.fitsSession then
        t.pending = [] ∧ (shot.accepted? .new = none ∨ t.encoder = none ∧ shot.Kept true)
      else t.Clears c

end RecordingThread

end Drift.App
