import Drift.Codec.Stream
import Drift.Codec.Tile
import Drift.Lib.Keyed

/-!
# The round-based progressive decoder

`ProgressiveCodec` decodes the tiles of a REGION in rounds that hold every tile at most once. The
jobs of a round own the tile states they were prepared from, run on a thread pool, and hand the
states back when all of them are done; as they share nothing, the pool is a plain map here. A failed
call keeps the state it had reached.
-/

namespace Drift.Codec

open Std

abbrev tileSize : Nat := 64

abbrev fullQuality : UInt8 := 0xFF

def malformed (detail : String) : CodecError := .malformed .progressive detail

def swizzle : Bytes → Bytes
  | r :: g :: b :: a :: rest => b :: g :: r :: a :: swizzle rest
  | rest => rest

structure ProgressiveCodec where
  contexts : ExtTreeMap ContextKey SurfaceTiles contextOrder
  references : References
  frameTiles : ExtTreeMap ContextKey TileSet contextOrder
  frameActive : Bool
  surfaceContextFlags : ExtTreeMap UInt16 Bool

/-- The REGION being decoded plus what its tiles need to know. -/
structure RegionCtx where
  surfaceId : UInt16
  useReduceExtrapolate : Bool
  region : ProgressiveRegion

/-- The entropy-coded work for one tile. -/
inductive Pass where
  | first (data : Components Bytes) (base prog : Components ComponentCodecQuant)
      (quantIdx : Components UInt8) (quality : UInt8) (difference : Bool)
  | upgrade (srl raw : Components Bytes) (prog : Components ComponentCodecQuant) (quality : UInt8)

/-- One tile decode, owning the tile state and the reference while it runs. -/
structure Job where
  key : TileKey
  index : Nat
  state : TileState
  reference : Option (Components Coefficients)
  pass : Pass

/-- What TILE_SIMPLE and TILE_FIRST share; a TILE_SIMPLE has no quality. -/
structure FirstBlock where
  flags : UInt8
  quantIdx : Components UInt8
  data : Components Bytes
  quality : Option UInt8

def ProgressiveTile.key (tile : ProgressiveTile) : TileKey := (tile.xIdx, tile.yIdx)

namespace TileStore

/-- Allocates the tile at a position if needed. -/
def ensureTile (s : TileStore) (index : Nat) : TileStore :=
  match s.grid.tiles[index]? with
  | some none => { s with grid := s.grid.setAt index (some s.grid.freshTile) }
  | _ => s

end TileStore

/-- The progressive quant for a quality byte. -/
def progressiveQuant (quality : UInt8) (table : List ProgressiveCodecQuant) :
    Except CodecError ProgressiveCodecQuant :=
  if quality = fullQuality then
    .ok ⟨quality, .lossless, .lossless, .lossless⟩
  else
    match table[quality.toNat]? with
    | some quant => .ok quant
    | none =>
      .error (malformed ("quant index " ++ toString quality ++ " exceeds table length " ++
        toString table.length))

def ProgressiveCodecQuant.components (quant : ProgressiveCodecQuant) :
    Components ComponentCodecQuant :=
  ⟨quant.yQuant, quant.cbQuant, quant.crQuant⟩

/-- The progressive quants and the quality of a first pass. -/
def progQuants (quality : Option UInt8) (table : List ProgressiveCodecQuant) :
    Except CodecError (Components ComponentCodecQuant × UInt8) :=
  match quality with
  | none => .ok (.replicate .lossless, fullQuality)
  | some q => (progressiveQuant q table).map fun pq => (pq.components, q)

/-- Checks a first pass and turns it into work; the tile is allocated once the reference of a
difference tile is known to exist. -/
def firstPass (s : TileStore) (ctx : RegionCtx) (key : TileKey) (index : Nat) (block : FirstBlock) :
    TileStore × Except CodecError Pass :=
  let difference := block.flags &&& tileFlagDifference != 0
  let hasReference := s.references.contains (ctx.surfaceId, key)
  if difference && !hasReference then
    (s, .error (malformed ("difference tile " ++ toString key ++ " has no retained reference")))
  else
    let s := s.ensureTile index
    let quantVals := ctx.region.quantVals
    match quantVals[block.quantIdx.y.toNat]?, quantVals[block.quantIdx.cb.toNat]?,
      quantVals[block.quantIdx.cr.toNat]? with
    | some y, some cb, some cr =>
      (s, (progQuants block.quality ctx.region.quantProgVals).map fun q =>
        .first block.data ⟨y, cb, cr⟩ q.1 block.quantIdx q.2 difference)
    | _, _, _ =>
      let worst := max block.quantIdx.y (max block.quantIdx.cb block.quantIdx.cr)
      (s, .error (malformed ("quant index " ++ toString worst ++ " exceeds table length " ++
        toString quantVals.length)))

/-- Takes the tile state and the reference out of the shared state for a job. -/
def takeJob (s : TileStore) (ctx : RegionCtx) (key : TileKey) (index : Nat) (pass : Pass) :
    TileStore × Except CodecError (Option Job) :=
  match s.grid.tiles[index]? with
  | some (some state) =>
    let refKey := (ctx.surfaceId, key)
    ({ grid := s.grid.setAt index none
       references := s.references.erase refKey },
      .ok (some
        { key := key
          index := index
          state := state
          reference := s.references[refKey]?
          pass := pass }))
  | _ => (s, .error (malformed ("tile " ++ toString key ++ " out of surface bounds")))

/-- Validates a tile block and turns it into a job; a block that is legitimately skipped leaves
none. -/
def prepare (s : TileStore) (ctx : RegionCtx) (tile : ProgressiveTile) :
    TileStore × Except CodecError (Option Job) :=
  let key := tile.key
  match s.grid.tileIndex key with
  | none => (s, .error (malformed ("tile " ++ toString key ++ " out of surface bounds")))
  | some index =>
    match tile with
    | .simple t =>
      match firstPass s ctx key index ⟨t.flags, t.quantIdx, t.data, none⟩ with
      | (s, .error e) => (s, .error e)
      | (s, .ok pass) => takeJob s ctx key index pass
    | .first t =>
      match firstPass s ctx key index ⟨t.flags, t.quantIdx, t.data, some t.quality⟩ with
      | (s, .error e) => (s, .error e)
      | (s, .ok pass) => takeJob s ctx key index pass
    | .upgrade t =>
      let s := s.ensureTile index
      -- An upgrade for a tile that never had a first pass is skipped.
      if (s.grid.get key).all fun state => state.pass = 0 then (s, .ok none)
      else
        match progressiveQuant t.quality ctx.region.quantProgVals with
        | .error e => (s, .error e)
        | .ok pq =>
          takeJob s ctx key index (.upgrade t.srlData t.rawData pq.components t.quality)

section Run

variable (tr : Transforms)

def renderBgra (state : TileState) : Bytes := swizzle (tr.reconstructToRgba state).toList

/-- The entropy decoding of a job; what the job had reached is kept on failure. -/
def runPass (job : Job) (useReduceExtrapolate : Bool) : Job × Except CodecError Unit :=
  match job.pass with
  | .first data base prog quantIdx quality difference =>
    match TileState.decodeFirst tr data base prog quantIdx quality useReduceExtrapolate with
    | .error e => (job, .error (malformed ("progressive RLGR decode: " ++ e)))
    | .ok state =>
      let job := { job with state := state }
      if difference then
        match job.reference with
        | none => (job, .error (malformed "difference tile lost its reference"))
        | some reference =>
          ({ job with
              state :=
                { state with
                  coefficients := addReference state.coefficients reference
                  isDifference := true } }, .ok ())
      else (job, .ok ())
  | .upgrade srl raw prog quality =>
    match job.state.decodeUpgrade tr srl raw prog quality with
    | .error e => (job, .error (malformed ("progressive srl decode: " ++ e)))
    | .ok state => ({ job with state := state }, .ok ())

/-- Runs one tile job: entropy decode, reference update, reconstruction. -/
def runJob (job : Job) (useReduceExtrapolate : Bool) :
    Job × Except CodecError (TileKey × Bytes) :=
  match runPass tr job useReduceExtrapolate with
  | (job, .error e) => (job, .error e)
  | (job, .ok ()) =>
    let job := { job with reference := some job.state.coefficients }
    (job, .ok (job.key, renderBgra tr job.state))

/-- Prepares the tiles of a round until one fails. -/
def prepareRound (s : TileStore) (ctx : RegionCtx) :
    List ProgressiveTile → TileStore × List Job × Option CodecError
  | [] => (s, [], none)
  | tile :: tiles =>
    match prepare s ctx tile with
    | (s, .error e) => (s, [], some e)
    | (s, .ok job) =>
      let (s, jobs, failure) := prepareRound s ctx tiles
      (s, job.toList ++ jobs, failure)

/-- Returns a tile and its reference to the shared state. -/
def returnJob (ctx : RegionCtx) (s : TileStore) (job : Job) : TileStore where
  grid := s.grid.setAt job.index (some job.state)
  references :=
    match job.reference with
    | none => s.references
    | some reference => s.references.insert (ctx.surfaceId, job.key) reference

/-- The pixels of the tiles decoded so far in a REGION. -/
abbrev Decoded := ExtTreeMap TileKey Bytes tileOrder

/-- Collects the results of a round until one failed. -/
def collectResults (decoded : Decoded) :
    List (Except CodecError (TileKey × Bytes)) → Except CodecError Decoded
  | [] => .ok decoded
  | .error e :: _ => .error e
  | .ok (key, px) :: results => collectResults (decoded.insert key px) results

def decodeRound (ctx : RegionCtx) (s : TileStore) (decoded : Decoded)
    (round : List ProgressiveTile) : TileStore × Except CodecError Decoded :=
  match prepareRound s ctx round with
  | (s, jobs, some e) => (jobs.foldl (returnJob ctx) s, .error e)
  | (s, jobs, none) =>
    let results := jobs.map fun job => runJob tr job ctx.useReduceExtrapolate
    ((results.map Prod.fst).foldl (returnJob ctx) s,
      collectResults decoded (results.map Prod.snd))

def decodeRounds (ctx : RegionCtx) (s : TileStore) (decoded : Decoded) :
    List (List ProgressiveTile) → TileStore × Except CodecError Decoded
  | [] => (s, .ok decoded)
  | round :: rounds =>
    match decodeRound tr ctx s decoded round with
    | (s, .error e) => (s, .error e)
    | (s, .ok decoded) => decodeRounds ctx s decoded rounds

/-- Decodes every tile of a REGION, round by round. -/
def decodeRegionTiles (s : TileStore) (ctx : RegionCtx) :
    TileStore × Except CodecError Decoded :=
  decodeRounds tr ctx s ∅ (Keyed.rounds ProgressiveTile.key ctx.region.tiles)

end Run

/-! ### Clipping -/

def charge (used units : Nat) : Except CodecError Nat :=
  if used + units ≤ maxRegionClippingWork then .ok (used + units)
  else .error (malformed "progressive REGION clipping work limit exceeded")

/-- Union of a REGION's rectangles clipped to the surface. -/
def clippingRegion (width height : Nat) :
    Region → Nat → List RfxRectangle → Except CodecError (Region × Nat)
  | clipping, work, [] => .ok (clipping, work)
  | clipping, work, r :: rects => do
    let left := min r.x.toNat width
    let top := min r.y.toNat height
    let right := min (min (r.x.toNat + r.width.toNat) u16Max) width
    let bottom := min (min (r.y.toNat + r.height.toNat) u16Max) height
    if left < right ∧ top < bottom then
      let work ← charge work (clipping.rectangles.length + 1)
      clippingRegion width height
        (clipping.unionRectangle ⟨left, top, right - 1, bottom - 1⟩) work rects
    else clippingRegion width height clipping work rects

/-- Parts of a tile inside the clipping region, as surface rectangles. -/
def visibleRects (clipping : Region) (key : TileKey) (width height : Nat) : List Rect :=
  let left := min (key.1.toNat * tileDim) u16Max
  let top := min (key.2.toNat * tileDim) u16Max
  let right := min (min (left + tileDim) u16Max) width
  let bottom := min (min (top + tileDim) u16Max) height
  if left ≥ right ∨ top ≥ bottom then []
  else
    (clipping.intersectRectangle ⟨left, top, right - 1, bottom - 1⟩).rectangles.map fun r =>
      ⟨r.left, r.top, r.right + 1 - r.left, r.bottom + 1 - r.top⟩

/-- The tiles shown so far: decoded pixels not shown yet, output, tiles still to render with their
place in the output, and the clipping work. -/
structure Showing where
  regionTiles : Decoded
  out : List BgraTile
  pending : List (Nat × TileKey)
  work : Nat

/-- Shows the tiles of the frame that are visible in a REGION. -/
def showTiles (grid : SurfaceTiles) (clipping : Region) (width height : Nat) :
    Showing → List TileKey → Except CodecError Showing
  | st, [] => .ok st
  | st, key :: keys => do
    let work ← charge st.work (max clipping.rectangles.length 1)
    let st := { st with work := work }
    let rects := visibleRects clipping key width height
    if rects.isEmpty then showTiles grid clipping width height st keys
    else
      let tile : BgraTile :=
        { origin := ⟨key.1.toNat * tileSize, key.2.toNat * tileSize⟩
          size := ⟨tileSize, tileSize⟩
          data := []
          updateRects := rects }
      match st.regionTiles[key]? with
      | some px =>
        showTiles grid clipping width height
          { st with
            regionTiles := st.regionTiles.erase key
            out := st.out ++ [{ tile with data := px }] } keys
      | none =>
        if (grid.get key).isSome then
          showTiles grid clipping width height
            { st with
              out := st.out ++ [tile]
              pending := st.pending ++ [(st.out.length, key)] } keys
        else showTiles grid clipping width height st keys

/-- Renders the pending tiles from their retained coefficients into their places. -/
def fillPending (tr : Transforms) (grid : SurfaceTiles) (pending : List (Nat × TileKey))
    (out : List BgraTile) : List BgraTile :=
  pending.foldl (fun out p =>
    out.modify p.1 fun tile =>
      { tile with data := ((grid.get p.2).map (renderBgra tr)).getD [] }) out

/-! ### Payloads -/

/-- What a payload works on: the grid and references, the tiles of the frame, the output, the
clipping work, and its place between FRAME_BEGIN and FRAME_END. -/
structure PayloadState where
  store : TileStore
  frameTiles : TileSet
  out : List BgraTile
  work : Nat
  inFrame : Bool
  frameEnded : Bool

def decodeRegion (tr : Transforms) (surfaceId : UInt16) (width height : Nat)
    (useReduceExtrapolate : Bool) (st : PayloadState) (region : ProgressiveRegion) :
    PayloadState × Except CodecError Unit :=
  match decodeRegionTiles tr st.store ⟨surfaceId, useReduceExtrapolate, region⟩ with
  | (store, .error e) => ({ st with store := store }, .error e)
  | (store, .ok regionTiles) =>
    let frameTiles := st.frameTiles.insertMany regionTiles.keys
    let st := { st with store := store, frameTiles := frameTiles }
    let shown := do
      let (clipping, work) ← clippingRegion width height .new st.work region.rects
      showTiles store.grid clipping width height ⟨regionTiles, st.out, [], work⟩ frameTiles.toList
    match shown with
    | .error e => (st, .error e)
    | .ok shown =>
      ({ st with out := fillPending tr store.grid shown.pending shown.out, work := shown.work },
        .ok ())

def decodeBlocks (tr : Transforms) (surfaceId : UInt16) (width height : Nat)
    (useReduceExtrapolate : Bool) :
    PayloadState → List ProgressiveBlock → PayloadState × Except CodecError Unit
  | st, [] => (st, .ok ())
  | st, block :: blocks =>
    let next := fun st => decodeBlocks tr surfaceId width height useReduceExtrapolate st blocks
    match block with
    | .frameBegin => next (if st.frameEnded then st else { st with inFrame := true })
    | .frameEnd => next { st with inFrame := false, frameEnded := true }
    | .region region =>
      if st.inFrame then
        match decodeRegion tr surfaceId width height useReduceExtrapolate st region with
        | (st, .error e) => (st, .error e)
        | (st, .ok ()) => next st
      else next st
    | _ => next st

/-- The reduce-extrapolate flag of the first CONTEXT block. -/
def signalledFlag (blocks : List ProgressiveBlock) : Option Bool :=
  blocks.findSome? fun
    | .context flag => some flag
    | _ => none

namespace ProgressiveCodec

def new : ProgressiveCodec where
  contexts := ∅
  references := ∅
  frameTiles := ∅
  frameActive := false
  surfaceContextFlags := ∅

def beginFrame (codec : ProgressiveCodec) : ProgressiveCodec :=
  { codec with frameTiles := ∅, frameActive := true }

def endFrame (codec : ProgressiveCodec) : ProgressiveCodec :=
  { codec with frameTiles := ∅, frameActive := false }

/-- The grid of a context fitted to the surface, and whether it was reallocated. -/
def gridFor (codec : ProgressiveCodec) (key : ContextKey) (width height : Nat)
    (useReduceExtrapolate : Bool) : Option (SurfaceTiles × Bool) :=
  let newGrid := SurfaceTiles.new width height useReduceExtrapolate
  (codec.contexts[key]? <|> newGrid).bind fun grid =>
    let resized := grid.tilesWide ≠ SurfaceTiles.tilesOver width ||
      grid.tilesHigh ≠ SurfaceTiles.tilesOver height
    (if resized then newGrid else some grid).map fun grid =>
      ({ grid with useReduceExtrapolate := useReduceExtrapolate }, resized)

/-- Remembers the flag a CONTEXT block announced for a surface. -/
def noteContext (codec : ProgressiveCodec) (surfaceId : UInt16) (blocks : List ProgressiveBlock) :
    ProgressiveCodec :=
  { codec with
    surfaceContextFlags := match signalledFlag blocks with
      | some flag => codec.surfaceContextFlags.insert surfaceId flag
      | none => codec.surfaceContextFlags }

/-- The flag of a payload: announced in it, of its context, or last announced for its surface. -/
def contextFlag (codec : ProgressiveCodec) (key : ContextKey) (blocks : List ProgressiveBlock) :
    Option Bool :=
  signalledFlag blocks <|> (codec.contexts[key]?).map SurfaceTiles.useReduceExtrapolate <|>
    codec.surfaceContextFlags[key.1]?

/-- Outside an RDPGFX frame every payload is a frame of its own. -/
def clearInactive (codec : ProgressiveCodec) : ProgressiveCodec :=
  if codec.frameActive then codec else { codec with frameTiles := ∅ }

/-- The blocks of a payload on the grid of its context. -/
def decodePayload (tr : Transforms) (codec : ProgressiveCodec) (key : ContextKey) (surface : Size)
    (useReduceExtrapolate : Bool) (blocks : List ProgressiveBlock) :
    ProgressiveCodec × Except CodecError (List BgraTile) :=
  match codec.gridFor key surface.width surface.height useReduceExtrapolate with
  | none => (codec, .error (.surfaceTooLarge .progressive surface.width surface.height))
  | some (grid, resized) =>
    let start : PayloadState :=
      { store := ⟨grid, codec.references⟩
        frameTiles := if resized then ∅ else (codec.frameTiles[key]?).getD ∅
        out := []
        work := 0
        inFrame := false
        frameEnded := false }
    let (st, result) := decodeBlocks tr key.1 surface.width surface.height useReduceExtrapolate
      start blocks
    ({ codec with
        contexts := codec.contexts.insert key st.store.grid
        references := st.store.references
        frameTiles := codec.frameTiles.insert key st.frameTiles },
      result.map fun _ => st.out)

/-- Decodes one `WireToSurface2` payload. -/
def decode (tr : Transforms) (codec : ProgressiveCodec) (surfaceId : UInt16)
    (codecContextId : UInt32) (surface : Size) (data : Bytes) :
    ProgressiveCodec × Except CodecError (List BgraTile) :=
  if surface.width > maxSurfaceDim ∨ surface.height > maxSurfaceDim then
    (codec, .error (.surfaceTooLarge .progressive surface.width surface.height))
  else
    match tr.decodeProgressiveStream data with
    | .error e => (codec, .error (malformed e))
    | .ok blocks =>
      let codec := codec.noteContext surfaceId blocks
      match codec.contextFlag (surfaceId, codecContextId) blocks with
      | none => (codec, .error (malformed "progressive stream missing CONTEXT block"))
      | some flag =>
        match codec.clearInactive.decodePayload tr (surfaceId, codecContextId) surface flag
          blocks with
        | (codec, .error e) => (codec, .error e)
        | (codec, .ok out) => (codec.clearInactive, .ok out)

def deleteContext (codec : ProgressiveCodec) (surfaceId : UInt16) (codecContextId : UInt32) :
    ProgressiveCodec :=
  { codec with
    contexts := codec.contexts.erase (surfaceId, codecContextId)
    frameTiles := codec.frameTiles.erase (surfaceId, codecContextId) }

/-- Drops every context and reference of a surface. -/
def deleteSurface (codec : ProgressiveCodec) (surfaceId : UInt16) : ProgressiveCodec :=
  { codec with
    contexts := codec.contexts.filter fun key _ => key.1 ≠ surfaceId
    references := codec.references.filter fun key _ => key.1 ≠ surfaceId
    frameTiles := codec.frameTiles.filter fun key _ => key.1 ≠ surfaceId
    surfaceContextFlags := codec.surfaceContextFlags.erase surfaceId }

/-- Drops all codec contexts, keeping the references. -/
def reset (codec : ProgressiveCodec) : ProgressiveCodec :=
  { codec with contexts := ∅, frameTiles := ∅, frameActive := false }

end ProgressiveCodec

end Drift.Codec
