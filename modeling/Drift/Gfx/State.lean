import Drift.Codec.Tile
import Drift.Codec.Region
import Std.Data.ExtTreeMap

/-!
# Surfaces and cache slots

The bookkeeping of a graphics session, and the checks that every rectangle and point of the server
passes before anything reaches the sink.
-/

namespace Drift.Gfx

open Std Drift.Codec

inductive GfxError where
  | zgfx (detail : String)
  | decode (detail : String)
  | unsupportedCodec (codec : String)
  | unexpectedPdu (name : String)
  | unknownSurface (id : UInt16)
  | invalidSurface (id : UInt16) (detail : String)
  | outOfBounds (surface : UInt16) (detail : String)
  | invalidCacheSlot (slot : UInt16)
  | codec (e : CodecError)
  | h264 (detail : String)
  deriving DecidableEq

inductive PixelFormat where
  | xRgb
  | aRgb
  deriving DecidableEq

abbrev maxCacheSlots : UInt16 := 25600

structure Surface where
  size : Size
  format : PixelFormat

/-- The surfaces, and the size of the image in each occupied cache slot. -/
structure GfxState where
  surfaces : ExtTreeMap UInt16 Surface
  cache : ExtTreeMap UInt16 Size

namespace GfxState

def empty : GfxState := ⟨∅, ∅⟩

/-- Drops every surface and cache slot; gives the dropped surface ids. -/
def reset (s : GfxState) : GfxState × List UInt16 := (empty, s.surfaces.keys)

def create (s : GfxState) (id : UInt16) (size : Size) (format : PixelFormat) :
    Except GfxError GfxState :=
  if size.width = 0 ∨ size.height = 0 then .error (.invalidSurface id "empty surface")
  else if s.surfaces.contains id then .error (.invalidSurface id "surface id already exists")
  else .ok { s with surfaces := s.surfaces.insert id ⟨size, format⟩ }

/-- Removes a surface; tells whether it existed. -/
def delete (s : GfxState) (id : UInt16) : GfxState × Bool :=
  ({ s with surfaces := s.surfaces.erase id }, s.surfaces.contains id)

def surface (s : GfxState) (id : UInt16) : Except GfxError Surface :=
  match s.surfaces[id]? with
  | some surface => .ok surface
  | none => .error (.unknownSurface id)

def checkSlot (slot : UInt16) : Except GfxError Unit :=
  if slot = 0 ∨ slot > maxCacheSlots then .error (.invalidCacheSlot slot) else .ok ()

def cacheStore (s : GfxState) (slot : UInt16) (size : Size) : Except GfxError GfxState := do
  checkSlot slot
  return { s with cache := s.cache.insert slot size }

def cacheEntry (s : GfxState) (slot : UInt16) : Except GfxError Size :=
  match s.cache[slot]? with
  | some size => .ok size
  | none => .error (.invalidCacheSlot slot)

/-- Frees a slot; tells whether it was occupied. -/
def cacheEvict (s : GfxState) (slot : UInt16) : Except GfxError (GfxState × Bool) := do
  checkSlot slot
  return ({ s with cache := s.cache.erase slot }, s.cache.contains slot)

end GfxState

/-- The debug form of a structure with numeric fields. -/
def debugStruct (name : String) (fields : List (String × Nat)) : String :=
  name ++ " \x7b " ++ ", ".intercalate (fields.map fun f => f.1 ++ ": " ++ toString f.2) ++ " \x7d"

/-- A rectangle of the wire, with exclusive right and bottom. -/
def rect (r : ExclusiveRectangle) : Except GfxError Rect :=
  match Rect.fromLtrb r.left r.top r.right r.bottom with
  | some rect => .ok rect
  | none =>
    .error (.decode ("inverted rectangle " ++ debugStruct "ExclusiveRectangle"
      [("left", r.left), ("top", r.top), ("right", r.right), ("bottom", r.bottom)]))

/-- The rectangle must lie in a surface of the given size. -/
def ensureWithin (surface : UInt16) (bounds : Size) (r : Rect) (what : String) :
    Except GfxError Unit :=
  if r.fitsWithin bounds then .ok ()
  else
    .error (.outOfBounds surface (what ++ " " ++ debugStruct "Rect"
      [("x", r.x), ("y", r.y), ("width", r.width), ("height", r.height)] ++ " exceeds " ++
      toString bounds.width ++ "x" ++ toString bounds.height))

/-- The rectangle cut to a surface of the given size, unless nothing is left. -/
def clip (r : Rect) (bounds : Size) : Option Rect :=
  match Rect.fromLtrb r.x r.y (min r.right bounds.width) (min r.bottom bounds.height) with
  | none => none
  | some clipped => if clipped.isEmpty then none else some clipped

/-! ### What the checks guarantee -/

/-- A surface whose sides are 16-bit numbers. -/
def Surface.Wire (s : Surface) : Prop := s.size.width ≤ u16Max ∧ s.size.height ≤ u16Max

theorem inside_of_ensureWithin {id : UInt16} {s : Surface} {r : Rect} {what : String} {u : Unit}
    (hs : s.Wire) (h : ensureWithin id s.size r what = .ok u) : r.Inside s.size := by
  unfold ensureWithin at h
  split at h
  · next hfits =>
    have hmax : u16Max < u32Max := by decide
    exact Rect.inside_of_fitsWithin (Nat.lt_of_le_of_lt hs.1 hmax)
      (Nat.lt_of_le_of_lt hs.2 hmax) hfits
  · cases h

theorem inside_of_clip {r clipped : Rect} {bounds : Size} (h : clip r bounds = some clipped) :
    clipped.Inside bounds := by
  unfold clip at h
  split at h
  · cases h
  · next found hfound =>
    split at h
    · cases h
    · obtain rfl := Option.some.inj h
      obtain ⟨hx, hy, rfl⟩ := Rect.fromLtrb_eq_some hfound
      exact ⟨by simp only; omega, by simp only; omega⟩

end Drift.Gfx
