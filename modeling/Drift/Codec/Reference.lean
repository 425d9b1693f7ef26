import Drift.Codec.Stream

/-!
# The sequential progressive decoder

`ProgressiveDecoder` is the decoder of IronRDP, which `ProgressiveCodec` mirrors. It decodes the
tiles of a REGION one after another, in the order of the stream, and reconstructs each at once. What
a failed call leaves behind is left out.
-/

namespace Drift.Codec

open Std

inductive ProgressiveDecodeError where
  | pdu (detail : String)
  | rlgr (detail : String)
  | srl (detail : String)
  | missingBlock (name : String)
  | tileOutOfBounds (xIdx yIdx : UInt16)
  | invalidQuantIndex (index tableLen : Nat)
  | missingTileReference (xIdx yIdx : UInt16)
  | surfaceTooLarge (width height : Nat)
  deriving DecidableEq

/-- The RGBA pixels of a tile. -/
structure DecodedTile where
  xIdx : UInt16
  yIdx : UInt16
  pixels : Bytes
  updateRectangles : List ExclusiveRectangle
  deriving DecidableEq

structure ProgressiveDecoder where
  contexts : ExtTreeMap ContextKey SurfaceTiles contextOrder
  references : References
  frameTiles : ExtTreeMap ContextKey TileSet contextOrder
  frameActive : Bool
  surfaceContextFlags : ExtTreeMap UInt16 Bool

namespace ProgressiveDecoder

def new : ProgressiveDecoder where
  contexts := ∅
  references := ∅
  frameTiles := ∅
  frameActive := false
  surfaceContextFlags := ∅

def beginFrame (decoder : ProgressiveDecoder) : ProgressiveDecoder :=
  { decoder with frameTiles := ∅, frameActive := true }

def endFrame (decoder : ProgressiveDecoder) : ProgressiveDecoder :=
  { decoder with frameTiles := ∅, frameActive := false }

def deleteContext (decoder : ProgressiveDecoder) (surfaceId : UInt16) (codecContextId : UInt32) :
    ProgressiveDecoder :=
  { decoder with
    contexts := decoder.contexts.erase (surfaceId, codecContextId)
    frameTiles := decoder.frameTiles.erase (surfaceId, codecContextId) }

def deleteSurface (decoder : ProgressiveDecoder) (surfaceId : UInt16) : ProgressiveDecoder :=
  { decoder with
    contexts := decoder.contexts.filter fun key _ => key.1 ≠ surfaceId
    references := decoder.references.filter fun key _ => key.1 ≠ surfaceId
    frameTiles := decoder.frameTiles.filter fun key _ => key.1 ≠ surfaceId
    surfaceContextFlags := decoder.surfaceContextFlags.erase surfaceId }

def reset (decoder : ProgressiveDecoder) : ProgressiveDecoder :=
  { decoder with contexts := ∅, frameTiles := ∅, frameActive := false }

end ProgressiveDecoder

def chargeRegionClippingWork (used units : Nat) : Except ProgressiveDecodeError Nat :=
  if used + units ≤ maxRegionClippingWork then .ok (used + units)
  else .error (.pdu "progressive REGION clipping work limit exceeded")

def progressiveQuantFor (quality : UInt8) (progQuantVals : List ProgressiveCodecQuant) :
    Except ProgressiveDecodeError ProgressiveCodecQuant :=
  if quality = 0xFF then .ok ⟨quality, .lossless, .lossless, .lossless⟩
  else
    match progQuantVals[quality.toNat]? with
    | some quant => .ok quant
    | none => .error (.invalidQuantIndex quality.toNat progQuantVals.length)

section Tiles

variable (tr : Transforms) (surfaceId : UInt16)

/-- A tile with a new state, its coefficients retained as a reference. -/
def TileStore.retain (store : TileStore) (key : TileKey) (index : Nat) (state : TileState) :
    TileStore where
  grid := store.grid.setAt index (some state)
  references := store.references.insert (surfaceId, key) state.coefficients

/-- The pixels of a tile, before it is clipped. -/
def reconstructed (key : TileKey) (state : TileState) : DecodedTile where
  xIdx := key.1
  yIdx := key.2
  pixels := (tr.reconstructToRgba state).toList
  updateRectangles := []

/-- A TILE_SIMPLE or TILE_FIRST with the progressive quants and the quality it selects. The tile is
created before the quant indices are checked, which only a failed call would show. -/
def decodeFirstBlock (store : TileStore) (key : TileKey) (flags : UInt8)
    (quantIdx : Components UInt8) (data : Components Bytes) (quantVals : List ComponentCodecQuant)
    (quant : Except ProgressiveDecodeError (Components ComponentCodecQuant × UInt8))
    (useReduceExtrapolate : Bool) :
    Except ProgressiveDecodeError (TileStore × List DecodedTile) :=
  let isDifference := flags &&& tileFlagDifference != 0
  match store.grid.tileIndex key with
  | none => .error (.tileOutOfBounds key.1 key.2)
  | some index =>
    let reference := if isDifference then store.references[(surfaceId, key)]? else none
    if isDifference && reference.isNone then .error (.missingTileReference key.1 key.2)
    else
      match quantVals[quantIdx.y.toNat]?, quantVals[quantIdx.cb.toNat]?,
        quantVals[quantIdx.cr.toNat]? with
      | some y, some cb, some cr => do
        let (prog, quality) ← quant
        let state ← (TileState.decodeFirstWithDifference tr data ⟨y, cb, cr⟩ prog reference
          quantIdx quality useReduceExtrapolate).mapError .rlgr
        return (store.retain surfaceId key index state, [reconstructed tr key state])
      | _, _, _ =>
        let worst := max quantIdx.y (max quantIdx.cb quantIdx.cr)
        .error (.invalidQuantIndex worst.toNat quantVals.length)

def decodeTileBlock (store : TileStore) (tileBlock : ProgressiveTile)
    (quantVals : List ComponentCodecQuant) (progQuantVals : List ProgressiveCodecQuant)
    (useReduceExtrapolate : Bool) :
    Except ProgressiveDecodeError (TileStore × List DecodedTile) :=
  match tileBlock with
  | .simple tile =>
    decodeFirstBlock tr surfaceId store (tile.xIdx, tile.yIdx) tile.flags tile.quantIdx tile.data
      quantVals (.ok (.replicate .lossless, 0xFF)) useReduceExtrapolate
  | .first tile =>
    decodeFirstBlock tr surfaceId store (tile.xIdx, tile.yIdx) tile.flags tile.quantIdx tile.data
      quantVals
      ((progressiveQuantFor tile.quality progQuantVals).map fun pq =>
        (⟨pq.yQuant, pq.cbQuant, pq.crQuant⟩, tile.quality))
      useReduceExtrapolate
  | .upgrade tile =>
    let key := (tile.xIdx, tile.yIdx)
    match store.grid.tileIndex key with
    | none => .error (.tileOutOfBounds tile.xIdx tile.yIdx)
    | some index =>
      let state := (store.grid.get key).getD store.grid.freshTile
      -- If this tile has not had a first pass, the upgrade is skipped; the tile stays created.
      if state.pass = 0 then
        .ok ({ store with grid := store.grid.setAt index (some state) }, [])
      else do
        let pq ← progressiveQuantFor tile.quality progQuantVals
        let state ← (state.decodeUpgrade tr tile.srlData tile.rawData
          ⟨pq.yQuant, pq.cbQuant, pq.crQuant⟩ tile.quality).mapError .srl
        return (store.retain surfaceId key index state, [reconstructed tr key state])

/-- What the tile blocks of a REGION change: the tiles and references, the tiles of the frame and
the tiles of the REGION. -/
structure RegionState where
  store : TileStore
  frameTiles : TileSet
  regionTiles : ExtTreeMap TileKey DecodedTile tileOrder

def RegionState.add (st : RegionState) (tile : DecodedTile) : RegionState :=
  { st with
    frameTiles := st.frameTiles.insert (tile.xIdx, tile.yIdx)
    regionTiles := st.regionTiles.insert (tile.xIdx, tile.yIdx) tile }

def RegionState.decode (region : ProgressiveRegion) (useReduceExtrapolate : Bool)
    (st : RegionState) (tileBlock : ProgressiveTile) :
    Except ProgressiveDecodeError RegionState := do
  let (store, tiles) ← decodeTileBlock tr surfaceId st.store tileBlock region.quantVals
    region.quantProgVals useReduceExtrapolate
  return tiles.foldl RegionState.add { st with store := store }

end Tiles

/-! ### Clipping -/

/-- The union of the rectangles of a REGION and the clipping work so far. -/
def clipRegion (surfaceWidth surfaceHeight : Nat) :
    Region → Nat → List RfxRectangle → Except ProgressiveDecodeError (Region × Nat)
  | clippingRegion, work, [] => .ok (clippingRegion, work)
  | clippingRegion, work, rectangle :: rectangles => do
    let left := min rectangle.x.toNat surfaceWidth
    let top := min rectangle.y.toNat surfaceHeight
    let right := min (min (rectangle.x.toNat + rectangle.width.toNat) u16Max) surfaceWidth
    let bottom := min (min (rectangle.y.toNat + rectangle.height.toNat) u16Max) surfaceHeight
    if left < right ∧ top < bottom then
      let work ← chargeRegionClippingWork work (clippingRegion.rectangles.length + 1)
      clipRegion surfaceWidth surfaceHeight
        (clippingRegion.unionRectangle ⟨left, top, right - 1, bottom - 1⟩) work rectangles
    else clipRegion surfaceWidth surfaceHeight clippingRegion work rectangles

/-- The exclusive rectangle of an inclusive one, in `u16`. -/
def exclusive (r : InclusiveRectangle) : ExclusiveRectangle where
  left := r.left
  top := r.top
  right := (r.right + 1) % 2 ^ 16
  bottom := (r.bottom + 1) % 2 ^ 16

/-- The part of a tile inside the clipping region; none for a tile outside the surface. -/
def updateRectangles (clippingRegion : Region) (key : TileKey) (surfaceWidth surfaceHeight : Nat) :
    List ExclusiveRectangle :=
  let left := min (key.1.toNat * tileDim) u16Max
  let top := min (key.2.toNat * tileDim) u16Max
  let right := min (min (left + tileDim) u16Max) surfaceWidth
  let bottom := min (min (top + tileDim) u16Max) surfaceHeight
  if left ≥ right ∨ top ≥ bottom then []
  else
    (clippingRegion.intersectRectangle ⟨left, top, right - 1, bottom - 1⟩).rectangles.map exclusive

/-- Clips the tiles of the frame to the REGION. -/
def clipTiles (tr : Transforms) (surface : SurfaceTiles) (clippingRegion : Region)
    (surfaceWidth surfaceHeight : Nat) :
    ExtTreeMap TileKey DecodedTile tileOrder → List DecodedTile → Nat → List TileKey →
      Except ProgressiveDecodeError (List DecodedTile × Nat)
  | _, decodedTiles, work, [] => .ok (decodedTiles, work)
  | regionTiles, decodedTiles, work, key :: keys => do
    let work ← chargeRegionClippingWork work (max clippingRegion.rectangles.length 1)
    let rectangles := updateRectangles clippingRegion key surfaceWidth surfaceHeight
    if rectangles.isEmpty then
      clipTiles tr surface clippingRegion surfaceWidth surfaceHeight regionTiles decodedTiles work
        keys
    else
      match regionTiles[key]? with
      | some tile =>
        clipTiles tr surface clippingRegion surfaceWidth surfaceHeight (regionTiles.erase key)
          (decodedTiles ++ [{ tile with updateRectangles := rectangles }]) work keys
      | none =>
        match surface.get key with
        | none =>
          clipTiles tr surface clippingRegion surfaceWidth surfaceHeight regionTiles decodedTiles
            work keys
        | some state =>
          clipTiles tr surface clippingRegion surfaceWidth surfaceHeight regionTiles
            (decodedTiles ++ [{ reconstructed tr key state with updateRectangles := rectangles }])
            work keys

/-! ### Payloads -/

/-- What a payload works on. -/
structure BitmapState where
  store : TileStore
  frameTiles : TileSet
  decodedTiles : List DecodedTile
  regionClippingWork : Nat
  inFrame : Bool
  frameEnded : Bool

def decodeBitmapRegion (tr : Transforms) (surfaceId : UInt16) (surfaceWidth surfaceHeight : Nat)
    (useReduceExtrapolate : Bool) (st : BitmapState) (region : ProgressiveRegion) :
    Except ProgressiveDecodeError BitmapState := do
  let tiles ← region.tiles.foldlM (RegionState.decode tr surfaceId region useReduceExtrapolate)
    ⟨st.store, st.frameTiles, ∅⟩
  let (clippingRegion, work) ← clipRegion surfaceWidth surfaceHeight .new st.regionClippingWork
    region.rects
  let (decodedTiles, work) ← clipTiles tr tiles.store.grid clippingRegion surfaceWidth
    surfaceHeight tiles.regionTiles st.decodedTiles work tiles.frameTiles.toList
  return {
    st with
    store := tiles.store
    frameTiles := tiles.frameTiles
    decodedTiles := decodedTiles
    regionClippingWork := work }

/-- One block of a payload; REGION blocks count inside the first frame only. -/
def decodeBitmapBlock (tr : Transforms) (surfaceId : UInt16) (surfaceWidth surfaceHeight : Nat)
    (useReduceExtrapolate : Bool) (st : BitmapState) (block : ProgressiveBlock) :
    Except ProgressiveDecodeError BitmapState :=
  match block with
  | .frameBegin => .ok (if st.frameEnded then st else { st with inFrame := true })
  | .frameEnd => .ok { st with inFrame := false, frameEnded := true }
  | .region region =>
    if st.inFrame then
      decodeBitmapRegion tr surfaceId surfaceWidth surfaceHeight useReduceExtrapolate st region
    else .ok st
  | _ => .ok st

namespace ProgressiveDecoder

/-- The tiles of a context fitted to the surface, and whether they were reallocated. -/
def surfaceFor (decoder : ProgressiveDecoder) (key : ContextKey)
    (surfaceWidth surfaceHeight : Nat) (useReduceExtrapolate : Bool) :
    Option (SurfaceTiles × Bool) :=
  let newSurface := SurfaceTiles.new surfaceWidth surfaceHeight useReduceExtrapolate
  (decoder.contexts[key]? <|> newSurface).bind fun surface =>
    let surfaceResized := surface.tilesWide ≠ SurfaceTiles.tilesOver surfaceWidth ||
      surface.tilesHigh ≠ SurfaceTiles.tilesOver surfaceHeight
    (if surfaceResized then newSurface else some surface).map fun surface =>
      ({ surface with useReduceExtrapolate := useReduceExtrapolate }, surfaceResized)

/-- The band-layout flag of the first CONTEXT block. -/
def signalled (blocks : List ProgressiveBlock) : Option Bool :=
  blocks.findSome? fun
    | .context usesReduceExtrapolate => some usesReduceExtrapolate
    | _ => none

def rememberFlag (decoder : ProgressiveDecoder) (surfaceId : UInt16)
    (blocks : List ProgressiveBlock) : ProgressiveDecoder :=
  match signalled blocks with
  | some flag =>
    { decoder with surfaceContextFlags := decoder.surfaceContextFlags.insert surfaceId flag }
  | none => decoder

def useReduceExtrapolate (decoder : ProgressiveDecoder) (key : ContextKey)
    (blocks : List ProgressiveBlock) : Option Bool :=
  signalled blocks <|> (decoder.contexts[key]?).map SurfaceTiles.useReduceExtrapolate <|>
    decoder.surfaceContextFlags[key.1]?

/-- Direct users of the decoder get one self-contained frame per call. -/
def clearFrameTiles (decoder : ProgressiveDecoder) : ProgressiveDecoder :=
  if decoder.frameActive then decoder else { decoder with frameTiles := ∅ }

/-- Walks the blocks of a stream on the tiles of its context. -/
def decodeOnSurface (tr : Transforms) (decoder : ProgressiveDecoder) (key : ContextKey)
    (surfaceWidth surfaceHeight : Nat) (useReduceExtrapolate : Bool)
    (blocks : List ProgressiveBlock) :
    Except ProgressiveDecodeError (ProgressiveDecoder × List DecodedTile) :=
  match decoder.surfaceFor key surfaceWidth surfaceHeight useReduceExtrapolate with
  | none => .error (.surfaceTooLarge surfaceWidth surfaceHeight)
  | some (surface, surfaceResized) => do
    let start : BitmapState :=
      { store := ⟨surface, decoder.references⟩
        frameTiles := if surfaceResized then ∅ else (decoder.frameTiles[key]?).getD ∅
        decodedTiles := []
        regionClippingWork := 0
        inFrame := false
        frameEnded := false }
    let st ← blocks.foldlM (decodeBitmapBlock tr key.1 surfaceWidth surfaceHeight
      useReduceExtrapolate) start
    return ({ decoder with
        contexts := decoder.contexts.insert key st.store.grid
        references := st.store.references
        frameTiles := decoder.frameTiles.insert key st.frameTiles },
      st.decodedTiles)

def decodeBitmap (tr : Transforms) (decoder : ProgressiveDecoder) (surfaceId : UInt16)
    (codecContextId : UInt32) (surfaceWidth surfaceHeight : UInt16) (bitmapData : Bytes) :
    Except ProgressiveDecodeError (ProgressiveDecoder × List DecodedTile) := do
  let blocks ← (tr.decodeProgressiveStream bitmapData).mapError .pdu
  let decoder := decoder.rememberFlag surfaceId blocks
  match decoder.useReduceExtrapolate (surfaceId, codecContextId) blocks with
  | none => .error (.missingBlock "CONTEXT")
  | some flag =>
    let (decoder, decodedTiles) ← decoder.clearFrameTiles.decodeOnSurface tr
      (surfaceId, codecContextId) surfaceWidth.toNat surfaceHeight.toNat flag blocks
    return (decoder.clearFrameTiles, decodedTiles)

end ProgressiveDecoder

end Drift.Codec
