import Drift.Core.Geometry
import Drift.Lib.Transition
import Drift.Video.Recorder

/-!
# The encoder

An encoder gives each captured frame a presentation time and passes it to a compression session of the
platform, which hands the encoded pictures back later, in their order. Instants are counted in
nanoseconds.
-/

namespace Drift.Video

inductive EncodeError where
  | os (call : String) (status : Int)
  | nonMonotonic (pts previous : Nat)
  | invalidFrame (message : String)
  | badSample (message : String)
  deriving DecidableEq, Repr

def os (call : String) (status : Int) : Except EncodeError Unit :=
  if status = 0 then .ok () else .error (.os call status)

/-! ### The timeline -/

structure Timeline where
  origin : Option Nat
  last : Option Nat
  deriving DecidableEq, Repr

namespace Timeline

def new : Timeline := ⟨none, none⟩

/-- The presentation time of a frame that was captured at an instant. -/
def pts (t : Timeline) (time : Nat) : Timeline × Except EncodeError Nat :=
  let origin := t.origin.getD time
  let t := { t with origin := some origin }
  let pts := time - origin
  match t.last with
  | some previous =>
    if pts ≤ previous then (t, .error (.nonMonotonic pts previous))
    else ({ t with last := some pts }, .ok pts)
  | none => ({ t with last := some pts }, .ok pts)

end Timeline

/-! ### What the platform does -/

/-- What becomes of a frame that a session accepted. -/
inductive Fate where
  | encoded
  | dropped
  | failed (e : EncodeError)
  deriving DecidableEq, Repr

/-- A captured frame, with what the platform does about it: `created` is the answer when a session is made
for it, `finished` and `status` those of the calls of `encode`, `completed` the number of pictures that
come out of the session meanwhile; once it is accepted, `fate` says what comes out for it, and `writer`
what the file is told when it is appended. -/
structure Shot where
  size : Size
  time : Nat
  created : Except EncodeError Unit
  finished : Int
  status : Int
  completed : Nat
  fate : Fate
  writer : Platform

abbrev Encoded := EncodedFrame Shot

/-- A compression session, with the frames that it has accepted and holds back. -/
structure Session where
  size : Size
  pending : List Encoded

/-- What the callback of a session leaves for a frame. A dropped frame leaves nothing. -/
def Fate.output (frame : Encoded) : Fate → List (Except EncodeError Encoded)
  | encoded => [.ok frame]
  | dropped => []
  | failed e => [.error e]

def callback (frame : Encoded) : List (Except EncodeError Encoded) := frame.picture.fate.output frame

/-! ### The encoder -/

/-- `outputs` is what the callback left since it was last asked for. -/
structure VtEncoder where
  size : Size
  timeline : Timeline
  session : Option Session
  outputs : List (Except EncodeError Encoded)

/-- What is seen from outside: the frames that a session accepts, those that are appended to the file,
encoders that are replaced, and the events of the recorder. -/
inductive Happening where
  | accepted (frame : Encoded)
  | appended (frame : Encoded)
  | replaced
  | event (e : RecordingEvent)

namespace VtEncoder

def createSession (size : Size) (created : Except EncodeError Unit) : Except EncodeError Session := do
  if 2 ^ 31 ≤ size.width then throw (.invalidFrame "width")
  if 2 ^ 31 ≤ size.height then throw (.invalidFrame "height")
  created
  return ⟨size, []⟩

def new (size : Size) (created : Except EncodeError Unit) : Except EncodeError VtEncoder := do
  let session ← createSession size created
  return ⟨size, .new, some session, []⟩

/-- The first pictures that the session holds back come out. -/
def complete (e : VtEncoder) (n : Nat) : VtEncoder :=
  match e.session with
  | some session =>
    { e with
      session := some { session with pending := session.pending.drop n }
      outputs := e.outputs ++ (session.pending.take n).flatMap callback }
  | none => e

/-- All pictures come out, unless that fails. -/
def finish (e : VtEncoder) (status : Int) : VtEncoder × Except EncodeError Unit :=
  match e.session with
  | some session =>
    match os "VTCompressionSessionCompleteFrames" status with
    | .ok () => (e.complete session.pending.length, .ok ())
    | .error error => (e, .error error)
  | none => (e, .ok ())

def drain (e : VtEncoder) : VtEncoder × Except EncodeError (List Encoded) :=
  ({ e with outputs := [] }, e.outputs.mapM id)

/-- The session is dropped, which completes its frames, before there is a new one. -/
def rebuild (e : VtEncoder) (size : Size) (created : Except EncodeError Unit) :
    VtEncoder × Except EncodeError Unit :=
  let e := (e.finish 0).1
  match createSession size created with
  | .ok session => ({ e with session := some session, size := size }, .ok ())
  | .error error => ({ e with session := none }, .error error)

def resize (e : VtEncoder) (shot : Shot) : VtEncoder × Except EncodeError Unit :=
  if e.session.all (·.size ≠ shot.size) then
    match e.finish shot.finished with
    | (e, .ok ()) => e.rebuild shot.size shot.created
    | (e, .error error) => (e, .error error)
  else (e, .ok ())

def submit (e : VtEncoder) (shot : Shot) (pts : Nat) :
    VtEncoder × List Happening × Except EncodeError (List Encoded) :=
  match e.session with
  | none => (e, [], .error (.invalidFrame "no compression session"))
  | some session =>
    let micros := pts / 1000
    if 2 ^ 63 ≤ micros then (e, [], .error (.invalidFrame "pts overflow"))
    else
      match os "VTCompressionSessionEncodeFrame" shot.status with
      | .error error => (e, [], .error error)
      | .ok () =>
        let frame : Encoded := ⟨micros, shot⟩
        let e := { e with session := some { session with pending := session.pending ++ [frame] } }
        let (e, result) := (e.complete shot.completed).drain
        (e, [.accepted frame], result)

def encode (e : VtEncoder) (shot : Shot) :
    VtEncoder × List Happening × Except EncodeError (List Encoded) :=
  if shot.size.width = 0 ∨ shot.size.height = 0 then
    (e, [], .error (.invalidFrame (toString shot.size.width ++ "x" ++ toString shot.size.height)))
  else
    let (timeline, pts) := e.timeline.pts shot.time
    let e := { e with timeline := timeline }
    match pts with
    | .error error => (e, [], .error error)
    | .ok pts =>
      match e.resize shot with
      | (e, .error error) => (e, [], .error error)
      | (e, .ok ()) => e.submit shot pts

def flush (e : VtEncoder) (status : Int) : VtEncoder × Except EncodeError (List Encoded) :=
  match e.finish status with
  | (e, .ok ()) => e.drain
  | (e, .error error) => (e, .error error)

end VtEncoder

/-! ### Which frames are kept -/

namespace Shot

def fitsSession (shot : Shot) : Bool :=
  shot.size.width < 2 ^ 31 && shot.size.height < 2 ^ 31 && shot.created.isOk

/-- The time, in microseconds, with which a session of its size accepts the frame. -/
def accepted? (shot : Shot) (t : Timeline) : Option Nat :=
  if shot.size.width = 0 ∨ shot.size.height = 0 then none
  else
    match (t.pts shot.time).2 with
    | .ok pts => if pts / 1000 < 2 ^ 63 ∧ shot.status = 0 then some (pts / 1000) else none
    | .error _ => none

/-- The platform encodes the frame, and the file takes it. -/
def Kept (first : Bool) (shot : Shot) : Prop :=
  shot.fate = .encoded ∧ shot.writer.takes defaultMinFreeBytes first

end Shot

end Drift.Video
