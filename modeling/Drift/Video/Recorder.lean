import Drift.Lib.Transition
import Mathlib.Data.List.Range

/-!
# The recorder

A recording is an MP4 file that encoded frames are appended to. It ends when it is stopped, and by itself
when the disk is full or the writer fails. Times are counted in microseconds.
-/

namespace Drift.Video

abbrev Path := String

inductive RecordingError where
  | notStarted
  | alreadyStarted
  | writer (message : String)
  deriving DecidableEq, Repr

def RecordingError.toString : RecordingError → String
  | notStarted => "no recording in progress"
  | alreadyStarted => "a recording is already in progress"
  | writer message => "MP4 writer error: " ++ message

inductive StopReason where
  | requested
  | diskFull
  | writerFailed (message : String)
  deriving DecidableEq, Repr

inductive RecordingEvent where
  | started (path : Path)
  | stopped (path : Path) (reason : StopReason) (frames : Nat)
  deriving DecidableEq, Repr

inductive RecorderState where
  | idle
  | recording
  deriving DecidableEq, Repr

namespace RecorderState

def start : RecorderState → Except RecordingError RecorderState
  | idle => .ok recording
  | recording => .error .alreadyStarted

def stop : RecorderState → Except RecordingError RecorderState
  | idle => .error .notStarted
  | recording => .ok idle

end RecorderState

def defaultMinFreeBytes : Nat := 256 * 1024 * 1024

structure RecordingSummary where
  path : Path
  frames : Nat
  deriving DecidableEq, Repr

inductive AppendOutcome where
  | recording
  | stopped (reason : StopReason)
  deriving DecidableEq, Repr

/-- An encoded picture. The recorder passes it on, and looks only at its time. -/
structure EncodedFrame (Picture : Type) where
  pts : Nat
  picture : Picture

variable {Picture : Type}

/-! ### The writer -/

/-- What the platform answers during one call: the probe of the free space, the requests of the writer in
their order (`readyAt` for each time it is asked, `finishWriting` for the time at which the session of the file
ends), and the description of an error. -/
structure Platform where
  availableBytes : Except String Nat
  removeFile : Except String Unit
  utf8Path : Bool
  fileType : Bool
  assetWriter : Except String Unit
  mediaType : Bool
  canAddInput : Bool
  startWriting : Bool
  readyAt : Nat → Bool
  appendSampleBuffer : Bool
  writing : Bool
  finishWriting : Nat → Bool
  completed : Bool
  error : Option String

namespace Platform

def failure (p : Platform) (what : String) : RecordingError :=
  .writer (match p.error with
    | some detail => what ++ ": " ++ detail
    | none => what)

/-- The writer is asked until it is ready, and 200 times more at most. -/
def ready (p : Platform) : Bool := (List.range 201).any p.readyAt

/-- Whether the writer takes a frame; with the first one, the session of the file begins. -/
def writes (p : Platform) (first : Bool) : Bool :=
  (!first || p.mediaType && p.canAddInput && p.startWriting) && p.ready && p.appendSampleBuffer

/-- Whether there is enough space, as far as the probe says. -/
def enough (p : Platform) (minFreeBytes : Nat) : Bool :=
  match p.availableBytes with
  | .ok n => minFreeBytes ≤ n
  | .error _ => true

def takes (p : Platform) (minFreeBytes : Nat) (first : Bool) : Bool :=
  p.enough minFreeBytes && p.writes first

end Platform

/-- `input` says whether the session of the file has begun. -/
structure Mp4Writer where
  path : Path
  input : Bool
  frames : Nat
  firstPts : Option Nat
  lastPts : Option Nat
  lastGap : Option Nat
  deriving DecidableEq, Repr

namespace Mp4Writer

/-- A file that is not there need not be removed. -/
def create (p : Platform) (path : Path) : Except RecordingError Mp4Writer := do
  match p.removeFile with
  | .ok () => pure ()
  | .error e => throw (.writer ("removing " ++ path ++ ": " ++ e))
  if !p.utf8Path then throw (.writer "non-UTF-8 path")
  if !p.fileType then throw (.writer "AVFileTypeMPEG4 missing")
  p.assetWriter.mapError .writer
  return ⟨path, false, 0, none, none, none⟩

def begin (p : Platform) (w : Mp4Writer) (frame : EncodedFrame Picture) :
    Mp4Writer × Except RecordingError Unit :=
  if !p.mediaType then (w, .error (.writer "AVMediaTypeVideo missing"))
  else if !p.canAddInput then (w, .error (.writer "cannot add H.264 passthrough input"))
  else if !p.startWriting then (w, .error (p.failure "startWriting failed"))
  else ({ w with firstPts := some frame.pts, input := true }, .ok ())

def append (p : Platform) (w : Mp4Writer) (frame : EncodedFrame Picture) :
    Mp4Writer × Except RecordingError Unit :=
  let (w, begun) := if w.input then (w, .ok ()) else w.begin p frame
  match begun with
  | .error e => (w, .error e)
  | .ok () =>
    if !p.ready then (w, .error (p.failure "writer not ready for more media data"))
    else if !p.appendSampleBuffer then (w, .error (p.failure "appendSampleBuffer failed"))
    else
      let lastGap := match w.lastPts with
        | some last => if last ≤ frame.pts then some (frame.pts - last) else none
        | none => w.lastGap
      ({ w with lastGap := lastGap, lastPts := some frame.pts, frames := w.frames + 1 }, .ok ())

/-- The time at which the session of the file ends: the last frame is taken to last as long as the one
before. -/
def endTime (w : Mp4Writer) : Nat := w.lastPts.getD 0 + w.lastGap.getD 16667

/-- Without a session nothing was written, and there is nothing to finish. -/
def finish (p : Platform) (w : Mp4Writer) : Except RecordingError Unit :=
  if !w.input then .ok ()
  else if !p.writing then .error (p.failure "writer is not writing")
  else if !p.finishWriting w.endTime then .error (.writer "finishWriting timed out")
  else if !p.completed then .error (p.failure "finishWriting failed")
  else .ok ()

end Mp4Writer

/-! ### The recorder -/

structure Recorder where
  state : RecorderState
  minFreeBytes : Nat
  writer : Option Mp4Writer
  deriving DecidableEq, Repr

namespace Recorder

def new : Recorder := ⟨.idle, defaultMinFreeBytes, none⟩

def withFreeSpace (r : Recorder) (minFreeBytes : Nat) : Recorder := { r with minFreeBytes }

def start (p : Platform) (r : Recorder) (path : Path) :
    Recorder × List RecordingEvent × Except RecordingError Unit :=
  match r.state.start with
  | .error e => (r, [], .error e)
  | .ok next =>
    match Mp4Writer.create p path with
    | .error e => (r, [], .error e)
    | .ok writer => ({ r with writer := some writer, state := next }, [.started path], .ok ())

/-- An automatic stop. An error of the writer is only logged. -/
def finish (r : Recorder) (reason : StopReason) : Recorder × List RecordingEvent :=
  ({ r with state := .idle, writer := none },
    match r.writer with
    | some writer => [.stopped writer.path reason writer.frames]
    | none => [])

/-- Whether the probe says that there is too little space; an error of the probe does not count. -/
def lowSpace (p : Platform) (r : Recorder) : Bool :=
  match p.availableBytes with
  | .ok n => n < r.minFreeBytes
  | .error _ => false

def append (p : Platform) (r : Recorder) (frame : EncodedFrame Picture) :
    Recorder × List RecordingEvent × Except RecordingError AppendOutcome :=
  match r.writer with
  | none => (r, [], .error .notStarted)
  | some writer =>
    if r.lowSpace p then
      let (r, events) := r.finish .diskFull
      (r, events, .ok (.stopped .diskFull))
    else
      let (writer, result) := writer.append p frame
      let r := { r with writer := some writer }
      match result with
      | .ok () => (r, [], .ok .recording)
      | .error (.writer message) =>
        let (r, events) := r.finish (.writerFailed message)
        (r, events, .ok (.stopped (.writerFailed message)))
      | .error e => (r, [], .error e)

def stop (p : Platform) (r : Recorder) :
    Recorder × List RecordingEvent × Except RecordingError RecordingSummary :=
  match r.state.stop with
  | .error e => (r, [], .error e)
  | .ok _ =>
    match r.writer with
    | none => (r, [], .error .notStarted)
    | some writer =>
      let r := { r with writer := none, state := .idle }
      match writer.finish p with
      | .ok () =>
        (r, [.stopped writer.path .requested writer.frames], .ok ⟨writer.path, writer.frames⟩)
      | .error e =>
        (r, [.stopped writer.path (.writerFailed e.toString) writer.frames], .error e)

end Recorder

/-! ### Runs -/

inductive RecorderCall (Picture : Type) where
  | start (path : Path)
  | append (frame : EncodedFrame Picture)
  | stop

inductive Reply where
  | start (result : Except RecordingError Unit)
  | append (result : Except RecordingError AppendOutcome)
  | stop (result : Except RecordingError RecordingSummary)

/-- A call that has returned: the events it sent, and what it returned. -/
structure Returned where
  events : List RecordingEvent
  reply : Reply

namespace Recorder

def call (r : Recorder) : Platform × RecorderCall Picture → Recorder × List Returned
  | (p, .start path) =>
    let (r, events, result) := r.start p path
    (r, [⟨events, .start result⟩])
  | (p, .append frame) =>
    let (r, events, result) := r.append p frame
    (r, [⟨events, .append result⟩])
  | (p, .stop) =>
    let (r, events, result) := r.stop p
    (r, [⟨events, .stop result⟩])

end Recorder

/-! ### What a recording looks like -/

/-- The file that is being written, after an event. -/
def RecordingEvent.opened (_ : Option Path) : RecordingEvent → Option Path
  | started path => some path
  | stopped _ _ _ => none

/-- A recording starts when there is none, and the one that stops is the one that is running. -/
def RecordingEvent.TakesTurn : Option Path → RecordingEvent → Prop
  | none, started _ => True
  | some path, stopped path' _ _ => path' = path
  | _, _ => False

namespace Returned

/-- The file that is being written, and the frames that were appended to it since it was started. -/
def follow (m : Option (Path × Nat)) (t : Returned) : Option (Path × Nat) :=
  match t.reply with
  | .start (.ok ()) => (t.events.foldl RecordingEvent.opened none).map (·, 0)
  | .append (.ok .recording) => m.map fun ongoing => (ongoing.1, ongoing.2 + 1)
  | .append (.ok (.stopped _)) | .stop _ => none
  | .start (.error _) | .append (.error _) => m

/-- What a call sends and returns, by the recording that is running. The count of a Stopped event and of a
summary is the one of `follow`. -/
def Fits (m : Option (Path × Nat)) (t : Returned) : Prop :=
  match t.reply with
  | .start (.ok ()) => m = none ∧ ∃ path, t.events = [.started path]
  | .start (.error e) => t.events = [] ∧ (e = .alreadyStarted ↔ m.isSome)
  | .append (.ok .recording) => m.isSome ∧ t.events = []
  | .append (.ok (.stopped reason)) =>
    ∃ path frames, m = some (path, frames) ∧ t.events = [.stopped path reason frames]
  | .append (.error e) => m = none ∧ t.events = [] ∧ e = .notStarted
  | .stop (.ok summary) =>
    m = some (summary.path, summary.frames) ∧
      t.events = [.stopped summary.path .requested summary.frames]
  | .stop (.error e) =>
    match m with
    | none => t.events = [] ∧ e = .notStarted
    | some (path, frames) => t.events = [.stopped path (.writerFailed e.toString) frames]

end Returned

end Drift.Video
