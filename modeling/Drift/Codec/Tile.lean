import Drift.Core.Geometry

/-!
# Decoded tiles

`BgraTile` is what every codec of the CPU produces: a pixel buffer with a place on a surface, of which
only the update rectangles may be written. `blits` cuts it into the writes to do, and every write it
gives has the data that its rectangle needs (`mem_blits`).
-/

namespace Drift.Codec

inductive CodecKind where
  | progressive
  | planar
  | uncompressed
  | clearCodec
  deriving DecidableEq

inductive CodecError where
  | malformed (codec : CodecKind) (detail : String)
  | sizeMismatch (codec : CodecKind) (expected actual : Nat)
  | invalidRect (codec : CodecKind) (rect : Rect)
  | surfaceTooLarge (codec : CodecKind) (width height : Nat)
  deriving DecidableEq

abbrev bpp : Nat := 4

/-- Pixels of `size`, row by row and tightly packed, whose top left one lies at `origin`. -/
structure BgraTile where
  origin : Point
  size : Size
  data : Bytes
  updateRects : List Rect
  deriving DecidableEq

/-- One write taken from a tile: `data` starts at the top left pixel of `rect`. -/
structure Blit where
  rect : Rect
  stride : Nat
  data : Bytes
  deriving DecidableEq

/-- The bytes a write of `rect` with the given stride reads. -/
def neededBytes (rect : Rect) (stride : Nat) : Nat := (rect.height - 1) * stride + rect.width * bpp

def contains (outer inner : Rect) : Bool :=
  inner.x ≥ outer.x ∧ inner.y ≥ outer.y ∧ inner.right ≤ outer.right ∧ inner.bottom ≤ outer.bottom

namespace BgraTile

/-- A tile covering `rect` exactly, updated in full. -/
def full (rect : Rect) (data : Bytes) : BgraTile where
  origin := ⟨rect.x, rect.y⟩
  size := rect.size
  data := data
  updateRects := [rect]

def stride (tile : BgraTile) : Nat := tile.size.width * bpp

def footprint (tile : BgraTile) : Rect :=
  ⟨tile.origin.x, tile.origin.y, tile.size.width, tile.size.height⟩

/-- The write for one update rectangle, unless it is empty, leaves the buffer or has no data. -/
def blit? (tile : BgraTile) (rect : Rect) : Option Blit :=
  if rect.isEmpty || !contains tile.footprint rect then none
  else
    let start := (rect.y - tile.origin.y) * tile.stride + (rect.x - tile.origin.x) * bpp
    if start > tile.data.length then none
    else
      let data := tile.data.drop start
      if data.length ≥ neededBytes rect tile.stride then some ⟨rect, tile.stride, data⟩ else none

def blits (tile : BgraTile) : List Blit := tile.updateRects.filterMap tile.blit?

theorem mem_blits {tile : BgraTile} {b : Blit} (h : b ∈ tile.blits) :
    neededBytes b.rect b.stride ≤ b.data.length := by
  obtain ⟨rect, _, hblit⟩ := List.mem_filterMap.mp h
  unfold blit? at hblit
  split at hblit
  · cases hblit
  simp only at hblit
  split at hblit
  · cases hblit
  split at hblit
  · next hneeded =>
    obtain rfl := Option.some.inj hblit
    exact hneeded
  · cases hblit

end BgraTile

/-- The largest destination rectangle a codec decodes, in pixels. -/
abbrev maxDestPixels : Nat := 2 ^ 25

/-- The dimensions of a destination rectangle, unless it is empty or too large. -/
def validateDest (codec : CodecKind) (rect : Rect) : Except CodecError (Nat × Nat) :=
  if rect.width > u16Max ∨ rect.height > u16Max then .error (.invalidRect codec rect)
  else if rect.width = 0 ∨ rect.height = 0 ∨ rect.width * rect.height > maxDestPixels then
    .error (.invalidRect codec rect)
  else .ok (rect.width, rect.height)

inductive UncompressedFormat where
  | xrgb
  | argb
  deriving DecidableEq

def forceOpaque : Bytes → Bytes
  | b :: g :: r :: _ :: rest => b :: g :: r :: 0xFF :: forceOpaque rest
  | rest => rest

def decodeUncompressed (dest : Rect) (format : UncompressedFormat) (data : Bytes) :
    Except CodecError BgraTile := do
  let (w, h) ← validateDest .uncompressed dest
  let expected := w * h * bpp
  if data.length ≠ expected then
    throw (.sizeMismatch .uncompressed expected data.length)
  let px := if format = .xrgb then forceOpaque data else data
  return .full dest px

end Drift.Codec
