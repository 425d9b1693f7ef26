import Drift.Clipboard.Formats

/-!
# The pasteboard

The system pasteboard with the representations the app reads and writes, and the watcher that polls its
change count. The bitmap conversions of the system are parameters.
-/

namespace Drift.Clipboard

/-- `NSBitmapImageRep`: any image as PNG, and a PNG as TIFF. -/
structure BitmapReps where
  toPng : Bytes → Option Bytes
  toTiff : Bytes → Option Bytes

structure Pasteboard where
  changeCount : Int
  text : Option String
  png : Option Bytes
  tiff : Option Bytes
  deriving DecidableEq

namespace Pasteboard

/-- `clearContents`. -/
def clear (pb : Pasteboard) : Pasteboard := ⟨pb.changeCount + 1, none, none, none⟩

def read (reps : BitmapReps) (pb : Pasteboard) (level : ClipboardPrefs) : ClipboardContents :=
  if level = .off then .empty
  else
    ⟨(pb.text.map ClipboardItem.text).toList ++
      if level = .textAndImages then
        match pb.png, pb.tiff with
        | some png, _ => [.png png]
        | none, some tiff => ((reps.toPng tiff).map ClipboardItem.png).toList ++ [.tiff tiff]
        | none, none => []
      else []⟩

/-- One item of a write; a PNG also offers TIFF when the contents have none. -/
def writeItem (reps : BitmapReps) (hasTiff : Bool) (pb : Pasteboard) : ClipboardItem → Pasteboard
  | .text text => { pb with text := some text }
  | .png png =>
    { pb with
      png := some png
      tiff := if hasTiff then pb.tiff else (reps.toTiff png).or pb.tiff }
  | .tiff tiff => { pb with tiff := some tiff }

def write (reps : BitmapReps) (pb : Pasteboard) (contents : ClipboardContents) : Pasteboard :=
  contents.items.foldl (writeItem reps (contents.items.any (· matches .tiff _))) pb.clear

end Pasteboard

/-- A detected local change. -/
structure LocalChange where
  changeCount : Int
  contents : ClipboardContents

structure PasteboardWatcher where
  lastSeen : Int
  deriving DecidableEq

namespace PasteboardWatcher

/-- The change, when the change count moved and someone wants it. -/
def poll (reps : BitmapReps) (w : PasteboardWatcher) (pb : Pasteboard) (level : ClipboardPrefs) :
    PasteboardWatcher × Option LocalChange :=
  if pb.changeCount = w.lastSeen then (w, none)
  else
    (⟨pb.changeCount⟩,
      if level = .off then none else some ⟨pb.changeCount, pb.read reps level⟩)

/-- The current contents, to seed a new session. -/
def snapshot (reps : BitmapReps) (pb : Pasteboard) (level : ClipboardPrefs) : LocalChange :=
  ⟨pb.changeCount, if level = .off then .empty else pb.read reps level⟩

end PasteboardWatcher

end Drift.Clipboard
