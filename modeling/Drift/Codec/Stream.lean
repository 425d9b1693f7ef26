import Drift.Codec.Region
import Drift.Lib.Lex

/-!
# Progressive streams and tiles

The parsed blocks of an RFX Progressive bitmap stream, the state of one 64×64 tile and the tile grid
of a surface, as both decoders use them. The stream parser, the entropy coding of the passes and the
reconstruction of pixels are parameters, bundled in `Transforms`.
-/

namespace Drift.Codec

open Std

/-- An array of three, for the components Y, Cb and Cr. -/
structure Components (α : Type) where
  y : α
  cb : α
  cr : α
  deriving DecidableEq

namespace Components

variable {α β γ : Type}

def replicate (a : α) : Components α := ⟨a, a, a⟩

def map (f : α → β) (c : Components α) : Components β := ⟨f c.y, f c.cb, f c.cr⟩

def zipWith (f : α → β → γ) (a : Components α) (b : Components β) : Components γ :=
  ⟨f a.y b.y, f a.cb b.cb, f a.cr b.cr⟩

/-- Runs a fallible computation on each component in turn. -/
def mapM {ε : Type} (f : α → Except ε β) (c : Components α) : Except ε (Components β) := do
  let y ← f c.y
  let cb ← f c.cb
  let cr ← f c.cr
  return ⟨y, cb, cr⟩

end Components

structure ComponentCodecQuant where
  ll3 : UInt8
  hl3 : UInt8
  lh3 : UInt8
  hh3 : UInt8
  hl2 : UInt8
  lh2 : UInt8
  hh2 : UInt8
  hl1 : UInt8
  lh1 : UInt8
  hh1 : UInt8
  deriving DecidableEq

namespace ComponentCodecQuant

def uniform (q : UInt8) : ComponentCodecQuant := ⟨q, q, q, q, q, q, q, q, q, q⟩

def lossless : ComponentCodecQuant := uniform 0

end ComponentCodecQuant

structure ProgressiveCodecQuant where
  quality : UInt8
  yQuant : ComponentCodecQuant
  cbQuant : ComponentCodecQuant
  crQuant : ComponentCodecQuant

abbrev tileFlagDifference : UInt8 := 0x01

structure TileSimple where
  quantIdx : Components UInt8
  xIdx : UInt16
  yIdx : UInt16
  flags : UInt8
  data : Components Bytes

structure TileFirst where
  quantIdx : Components UInt8
  xIdx : UInt16
  yIdx : UInt16
  flags : UInt8
  quality : UInt8
  data : Components Bytes

structure TileUpgrade where
  xIdx : UInt16
  yIdx : UInt16
  quality : UInt8
  srlData : Components Bytes
  rawData : Components Bytes

inductive ProgressiveTile where
  | simple (t : TileSimple)
  | first (t : TileFirst)
  | upgrade (t : TileUpgrade)

namespace ProgressiveTile

def xIdx : ProgressiveTile → UInt16
  | simple t => t.xIdx
  | first t => t.xIdx
  | upgrade t => t.xIdx

def yIdx : ProgressiveTile → UInt16
  | simple t => t.yIdx
  | first t => t.yIdx
  | upgrade t => t.yIdx

end ProgressiveTile

structure RfxRectangle where
  x : UInt16
  y : UInt16
  width : UInt16
  height : UInt16

structure ProgressiveRegion where
  rects : List RfxRectangle
  quantVals : List ComponentCodecQuant
  quantProgVals : List ProgressiveCodecQuant
  tiles : List ProgressiveTile

/-- A block of the stream; of a CONTEXT block only the reduce-extrapolate flag is used. -/
inductive ProgressiveBlock where
  | sync
  | frameBegin
  | frameEnd
  | context (usesReduceExtrapolate : Bool)
  | region (r : ProgressiveRegion)

/-! ### Tiles -/

abbrev Coefficients := Vector Int16 4096

abbrev Signs := Vector Int8 4096

/-- `i16::saturating_add`. -/
def saturatingAdd (a b : Int16) : Int16 :=
  Int16.ofInt (max (-32768) (min 32767 (a.toInt + b.toInt)))

/-- Adds the coefficients of a reference, component by component. -/
def addReference (coefficients reference : Components Coefficients) : Components Coefficients :=
  coefficients.zipWith (fun c r => c.zipWith saturatingAdd r) reference

structure TileState where
  coefficients : Components Coefficients
  sign : Components Signs
  progQuant : Components ComponentCodecQuant
  quantIdx : Components UInt8
  baseQuant : Components ComponentCodecQuant
  pass : UInt16
  isDifference : Bool
  quality : UInt8
  useReduceExtrapolate : Bool

/-- The functions the decoders call without looking into them. -/
structure Transforms where
  decodeProgressiveStream : Bytes → Except String (List ProgressiveBlock)
  decodeFirstPassToDwtq : Bytes → ComponentCodecQuant → Bool → Except String (Coefficients × Signs)
  decodeUpgradePass : Bytes → Bytes → ComponentCodecQuant → ComponentCodecQuant → Bool →
    Coefficients → Signs → Except String (Coefficients × Signs)
  reconstructToRgba : TileState → Vector UInt8 16384

namespace TileState

def new : TileState where
  coefficients := .replicate (Vector.replicate 4096 0)
  sign := .replicate (Vector.replicate 4096 0)
  progQuant := .replicate .lossless
  quantIdx := .replicate 0
  baseQuant := .replicate (.uniform 6)
  pass := 0
  isDifference := false
  quality := 0
  useReduceExtrapolate := false

variable (tr : Transforms)

/-- The first pass of a tile, added to a retained reference for a difference tile. -/
def decodeFirstWithDifference (data : Components Bytes)
    (baseQuants progQuants : Components ComponentCodecQuant)
    (reference : Option (Components Coefficients)) (quantIdx : Components UInt8) (quality : UInt8)
    (useReduceExtrapolate : Bool) : Except String TileState := do
  let decoded ← (data.zipWith Prod.mk progQuants).mapM fun (d, q) =>
    tr.decodeFirstPassToDwtq d q useReduceExtrapolate
  let coefficients := decoded.map Prod.fst
  return {
    coefficients := match reference with
      | some reference => addReference coefficients reference
      | none => coefficients
    sign := decoded.map Prod.snd
    pass := 1
    quality := quality
    quantIdx := quantIdx
    baseQuant := baseQuants
    useReduceExtrapolate := useReduceExtrapolate
    isDifference := reference.isSome
    progQuant := progQuants }

/-- The first pass of a tile that is no difference tile. -/
def decodeFirst (data : Components Bytes) (baseQuants progQuants : Components ComponentCodecQuant)
    (quantIdx : Components UInt8) (quality : UInt8) (useReduceExtrapolate : Bool) :
    Except String TileState :=
  decodeFirstWithDifference tr data baseQuants progQuants none quantIdx quality
    useReduceExtrapolate

/-- A later pass, which refines the coefficients; the pass counter saturates. -/
def decodeUpgrade (state : TileState) (srlData rawData : Components Bytes)
    (progQuants : Components ComponentCodecQuant) (quality : UInt8) : Except String TileState := do
  let upgrade := fun srl raw prev quant coefficients sign =>
    tr.decodeUpgradePass srl raw prev quant state.useReduceExtrapolate coefficients sign
  let y ← upgrade srlData.y rawData.y state.progQuant.y progQuants.y state.coefficients.y
    state.sign.y
  let cb ← upgrade srlData.cb rawData.cb state.progQuant.cb progQuants.cb state.coefficients.cb
    state.sign.cb
  let cr ← upgrade srlData.cr rawData.cr state.progQuant.cr progQuants.cr state.coefficients.cr
    state.sign.cr
  return {
    state with
    coefficients := ⟨y.1, cb.1, cr.1⟩
    sign := ⟨y.2, cb.2, cr.2⟩
    progQuant := progQuants
    quality := quality
    pass := if state.pass = 0xFFFF then state.pass else state.pass + 1 }

end TileState

/-! ### Tile grids -/

abbrev tileDim : Nat := 64

abbrev maxSurfaceDim : Nat := 32768

abbrev maxRegionClippingWork : Nat := 2 ^ 20

/-- The tiles of a surface, row by row; a tile without data is absent. -/
structure SurfaceTiles where
  tilesWide : Nat
  tilesHigh : Nat
  useReduceExtrapolate : Bool
  tiles : Vector (Option TileState) (tilesWide * tilesHigh)

abbrev TileKey := UInt16 × UInt16

namespace SurfaceTiles

/-- `u16::div_ceil` by the tile size. -/
def tilesOver (pixels : Nat) : Nat := (pixels + 63) / tileDim

/-- An empty grid, unless the surface is too large. -/
def new (widthPixels heightPixels : Nat) (useReduceExtrapolate : Bool) : Option SurfaceTiles :=
  if widthPixels > maxSurfaceDim ∨ heightPixels > maxSurfaceDim then none
  else
    some
      { tilesWide := tilesOver widthPixels
        tilesHigh := tilesOver heightPixels
        useReduceExtrapolate := useReduceExtrapolate
        tiles := Vector.replicate _ none }

def InBounds (grid : SurfaceTiles) (key : TileKey) : Prop :=
  key.1.toNat < grid.tilesWide ∧ key.2.toNat < grid.tilesHigh

instance (grid : SurfaceTiles) (key : TileKey) : Decidable (grid.InBounds key) :=
  inferInstanceAs (Decidable (_ ∧ _))

def position (grid : SurfaceTiles) (key : TileKey) : Nat :=
  key.2.toNat * grid.tilesWide + key.1.toNat

def tileIndex (grid : SurfaceTiles) (key : TileKey) : Option Nat :=
  if grid.InBounds key then some (grid.position key) else none

def get (grid : SurfaceTiles) (key : TileKey) : Option TileState :=
  (grid.tileIndex key).bind fun index => (grid.tiles[index]?).getD none

def setAt (grid : SurfaceTiles) (index : Nat) (tile : Option TileState) : SurfaceTiles :=
  { grid with tiles := grid.tiles.setIfInBounds index tile }

/-- A tile without data, with the transform of the grid's context. -/
def freshTile (grid : SurfaceTiles) : TileState :=
  { TileState.new with useReduceExtrapolate := grid.useReduceExtrapolate }

end SurfaceTiles

/-- Progressive contexts are keyed by surface and codec context. -/
abbrev ContextKey := UInt16 × UInt32

/-- References are keyed by surface and tile. -/
abbrev ReferenceKey := UInt16 × TileKey

abbrev contextOrder : ContextKey → ContextKey → Ordering := Lex.pair compare compare

abbrev tileOrder : TileKey → TileKey → Ordering := Lex.pair compare compare

abbrev referenceOrder : ReferenceKey → ReferenceKey → Ordering := Lex.pair compare tileOrder

instance : TransCmp contextOrder := inferInstance

instance : TransCmp tileOrder := inferInstance

instance : TransCmp referenceOrder := inferInstance

abbrev References := ExtTreeMap ReferenceKey (Components Coefficients) referenceOrder

abbrev TileSet := ExtTreeSet TileKey tileOrder

/-- The grid and the references a REGION works on. -/
structure TileStore where
  grid : SurfaceTiles
  references : References

end Drift.Codec
