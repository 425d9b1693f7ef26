import Drift.Profiles.Service
import Std.Data.ExtTreeMap

/-!
# The window frames

The last frame of each window, in a file and cached in memory. The numbers of a frame are floating point, so
their equality is only that of the source: a frame that is not a number differs from itself. The file is
replaced by renaming a temporary one, so a step of a write that fails leaves it as it was.
-/

namespace Drift.App

open Drift.Profiles (CommandError WriteFailure)

structure Frame (α : Type) where
  x : α
  y : α
  width : α
  height : α
  deriving BEq

abbrev Frames (α : Type) := Std.ExtTreeMap String (Frame α)

/-- The JSON of the file. -/
structure FrameJson (α : Type) where
  toText : Frames α → String
  ofText : String → Option (Frames α)

/-- The text that is written for the frames reads as them. -/
def FrameJson.ReadsBack {α : Type} (json : FrameJson α) (frames : Frames α) : Prop :=
  json.ofText (json.toText frames) = some frames

/-- The text of an error, as the store reports it. -/
def WriteFailure.message : WriteFailure → String
  | .createDir e | .write e | .rename e => e

/-- The text of `window-frames.json`, if it can be read, and the frames in memory. -/
structure FrameStore (α : Type) where
  file : Option String
  frames : Frames α

namespace FrameStore

variable {α : Type}

/-- A missing or unreadable file holds no frames. -/
def load (json : FrameJson α) (file : Option String) : Frames α := (file.bind json.ofText).getD ∅

def ofFile (json : FrameJson α) (file : Option String) : FrameStore α := ⟨file, load json file⟩

def write (json : FrameJson α) (failure : Option WriteFailure) (s : FrameStore α) :
    FrameStore α × Except CommandError Unit :=
  match failure with
  | some failure => (s, .error (.storage (WriteFailure.message failure)))
  | none => ({ s with file := some (json.toText s.frames) }, .ok ())

variable [BEq α]

def set (json : FrameJson α) (failure : Option WriteFailure) (s : FrameStore α) (key : String)
    (frame : Frame α) : FrameStore α × Except CommandError Unit :=
  if s.frames[key]? == some frame then (s, .ok ())
  else { s with frames := s.frames.insert key frame }.write json failure

def remove (json : FrameJson α) (failure : Option WriteFailure) (s : FrameStore α) (key : String) :
    FrameStore α × Except CommandError Unit :=
  if s.frames[key]?.isNone then (s, .ok ())
  else { s with frames := s.frames.erase key }.write json failure

end FrameStore

inductive FrameCall (α : Type) where
  | set (key : String) (frame : Frame α)
  | remove (key : String)

variable {α : Type} [BEq α]

namespace FrameCall

/-- The frames that a call leads to, if it changes them. -/
def change (frames : Frames α) : FrameCall α → Option (Frames α)
  | set key frame => if frames[key]? == some frame then none else some (frames.insert key frame)
  | remove key => if frames[key]?.isNone then none else some (frames.erase key)

/-- The frames are as the call wants them. -/
def Stored (frames : Frames α) : FrameCall α → Prop
  | set key frame => frames[key]? = some frame
  | remove key => frames[key]? = none

/-- The frame that is set is equal to itself: all its numbers are numbers. -/
def Reflexive : FrameCall α → Prop
  | set _ frame => (frame == frame) = true
  | remove _ => True

end FrameCall

namespace FrameStore

/-- A call whose write fails, or not. -/
def call (json : FrameJson α) (s : FrameStore α) :
    FrameCall α × Option WriteFailure → FrameStore α × Except CommandError Unit
  | (.set key frame, failure) => s.set json failure key frame
  | (.remove key, failure) => s.remove json failure key

def step (json : FrameJson α) (s : FrameStore α) (c : FrameCall α × Option WriteFailure) :
    FrameStore α × List (Except CommandError Unit) :=
  let called := s.call json c
  (called.1, [called.2])

/-- The file holds the frames in memory: it reads as them, or it is what is written for them. -/
def InStep (json : FrameJson α) (s : FrameStore α) : Prop :=
  load json s.file = s.frames ∨ s.file = some (json.toText s.frames)

/-- A call changes nothing, or writes what it changes the frames to. -/
theorem call_eq (json : FrameJson α) (s : FrameStore α) (c : FrameCall α)
    (failure : Option WriteFailure) :
    s.call json (c, failure) =
      match c.change s.frames with
      | none => (s, .ok ())
      | some frames => { s with frames := frames }.write json failure := by
  cases c with
  | set key frame =>
      simp only [call, set, FrameCall.change]
      by_cases hsame : (s.frames[key]? == some frame) = true
      · rw [if_pos hsame, if_pos hsame]
      · rw [if_neg hsame, if_neg hsame]
  | remove key =>
      simp only [call, remove, FrameCall.change]
      by_cases hnone : s.frames[key]?.isNone = true
      · rw [if_pos hnone, if_pos hnone]
      · rw [if_neg hnone, if_neg hnone]

end FrameStore

end Drift.App
