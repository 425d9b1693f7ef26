import Drift.Codec.Tile
import Std.Data.ExtTreeMap

/-!
# The frame sink

`SinkCall` lists the calls a client makes on a `FrameSink`. The contract of the sink is a checker
that follows a history of calls: it knows the surfaces and the filled cache slots from the history
alone, and refuses a call that names anything else or leaves a surface.
-/

namespace Drift.Gfx

open Std Drift.Codec

inductive SinkCall (Frame : Type) where
  | reset (output : Size)
  | createSurface (id : UInt16) (size : Size)
  | deleteSurface (id : UInt16)
  | mapSurfaceToOutput (id : UInt16) (origin : Point)
  | blitBgra (id : UInt16) (rect : Rect) (stride : Nat) (data : Bytes)
  | blitNv12 (id : UInt16) (frame : Frame) (regions : List Rect)
  | solidFill (id : UInt16) (color : Bgra) (rects : List Rect)
  | surfaceToSurface (src dst : UInt16) (rect : Rect) (dests : List Point)
  | surfaceToCache (id : UInt16) (rect : Rect) (slot : UInt16)
  | cacheToSurface (slot id : UInt16) (dests : List Point)
  | evictCache (slot : UInt16)
  | endFrame (frameId : UInt32)
  | setVisible (visible : Bool)

/-- What a history of calls says: the size of each surface that exists and of the image in each
filled cache slot. -/
structure SinkView where
  surfaces : ExtTreeMap UInt16 Size
  slots : ExtTreeMap UInt16 Size

/-- An image of the given size lies in the surface at every destination point. -/
def DestsInside (size bounds : Size) (dests : List Point) : Prop :=
  ∀ p ∈ dests, Rect.Inside ⟨p.x, p.y, size.width, size.height⟩ bounds

instance (size bounds : Size) (dests : List Point) : Decidable (DestsInside size bounds dests) :=
  inferInstanceAs (Decidable (∀ p ∈ dests, _))

namespace SinkView

def empty : SinkView := ⟨∅, ∅⟩

/-- Accepts a use of an existing surface whose size meets a condition. -/
def onSurface (v : SinkView) (id : UInt16) (ok : Size → Bool) : Option SinkView :=
  match v.surfaces[id]? with
  | some bounds => if ok bounds then some v else none
  | none => none

/-- The view after a call, unless the call breaks the contract. -/
def check {Frame : Type} (v : SinkView) : SinkCall Frame → Option SinkView
  | .reset _ => some empty
  | .createSurface id size =>
    if v.surfaces.contains id then none
    else some { v with surfaces := v.surfaces.insert id size }
  | .deleteSurface id =>
    if v.surfaces.contains id then some { v with surfaces := v.surfaces.erase id } else none
  | .mapSurfaceToOutput id _ => v.onSurface id fun _ => true
  | .blitBgra id rect stride data =>
    v.onSurface id fun bounds =>
      rect.Inside bounds ∧ neededBytes rect stride ≤ data.length
  | .blitNv12 id _ regions => v.onSurface id fun bounds => ∀ r ∈ regions, r.Inside bounds
  | .solidFill id _ rects => v.onSurface id fun bounds => ∀ r ∈ rects, r.Inside bounds
  | .surfaceToSurface src dst rect dests =>
    (v.onSurface src fun bounds => rect.Inside bounds).bind fun v =>
      v.onSurface dst fun bounds => DestsInside rect.size bounds dests
  | .surfaceToCache id rect slot =>
    (v.onSurface id fun bounds => rect.Inside bounds).map fun v =>
      { v with slots := v.slots.insert slot rect.size }
  | .cacheToSurface slot id dests =>
    match v.slots[slot]? with
    | some size => v.onSurface id fun bounds => DestsInside size bounds dests
    | none => none
  | .evictCache slot =>
    if v.slots.contains slot then some { v with slots := v.slots.erase slot } else none
  | .endFrame _ => some v
  | .setVisible _ => some v

end SinkView

end Drift.Gfx
