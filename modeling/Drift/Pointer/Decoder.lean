import Drift.Core.Geometry

/-!
# Remote pointers

The pointer shapes that the server sends as fast-path updates, large ones in fragments. The decoder puts the
fragments together, decodes the shape and keeps it in a slot of its cache. The parser of an update and the
decoders of the masks are those of the protocol crates.
-/

namespace Drift.Pointer

inductive Fragmentation where
  | single
  | last
  | first
  | next
  deriving DecidableEq

inductive UpdateCode where
  | orders
  | bitmap
  | palette
  | synchronize
  | surfaceCommands
  | hiddenPointer
  | defaultPointer
  | positionPointer
  | colorPointer
  | cachedPointer
  | newPointer
  | largePointer
  deriving DecidableEq

structure FastPathUpdatePdu where
  fragmentation : Fragmentation
  updateCode : UpdateCode
  compressionFlags : Option UInt8
  data : Bytes
  deriving DecidableEq

/-- A parsed pointer update. The attribute of a bitmap is taken as the crates give it. -/
inductive PointerUpdateData (Attribute : Type) where
  | setHidden
  | setDefault
  | setPosition (x y : UInt16)
  | color (cacheIndex : UInt16) (attr : Attribute)
  | cached (cacheIndex : UInt16)
  | new (cacheIndex : UInt16) (attr : Attribute)
  | large (cacheIndex : UInt16) (attr : Attribute)

/-- A bitmap in RGBA, with straight alpha. -/
structure DecodedPointer where
  width : UInt16
  height : UInt16
  hotspotX : UInt16
  hotspotY : UInt16
  bitmapData : Bytes

/-- The functions of the protocol crates; an update that is not a pointer's is parsed to `none`. -/
structure PointerCodec (Attribute : Type) where
  decodeWithCode : Bytes → UpdateCode → Except String (Option (PointerUpdateData Attribute))
  decodeColorPointerAttribute : Attribute → Except String DecodedPointer
  decodePointerAttribute : Attribute → Except String DecodedPointer
  decodeLargePointerAttribute : Attribute → Except String DecodedPointer

/-- A premultiplied BGRA image. -/
structure CursorImage where
  size : Size
  hotspot : Point
  bgra : Bytes
  deriving DecidableEq

def premultiply (c a : UInt8) : UInt8 := ((c.toNat * a.toNat + 127) / 255).toUInt8

def toBgra : Bytes → Bytes
  | r :: g :: b :: a :: rest => premultiply b a :: premultiply g a :: premultiply r a :: a :: toBgra rest
  | _ => []

/-- The image of a pointer, unless it is empty; the product of its sides is a `u32`. -/
def CursorImage.fromDecoded (decoded : DecodedPointer) : Option CursorImage :=
  let (w, h) := (decoded.width.toNat, decoded.height.toNat)
  if w = 0 ∨ h = 0 ∨ decoded.bitmapData.length ≠ w * h * 4 % 2 ^ 32 then none
  else
    some
      { size := ⟨w, h⟩
        hotspot := ⟨min decoded.hotspotX.toNat (w - 1), min decoded.hotspotY.toNat (h - 1)⟩
        bgra := toBgra decoded.bitmapData }

inductive CursorShape where
  | hidden
  | default
  | image (img : CursorImage)
  deriving DecidableEq

inductive PointerEvent where
  | shape (shape : CursorShape)
  | position (x y : UInt16)
  deriving DecidableEq

inductive PointerError where
  | malformed (e : String)
  | bitmap (e : String)
  | cacheIndexOutOfRange (index : UInt16) (size : Nat)
  | cacheMiss (index : UInt16)
  | fragment
  deriving DecidableEq

def PointerError.toString : PointerError → String
  | .malformed e => "malformed pointer update: " ++ e
  | .bitmap e => "undecodable pointer bitmap: " ++ e
  | .cacheIndexOutOfRange index size =>
    s!"pointer cache index {index} out of range (cache size {size})"
  | .cacheMiss index => s!"pointer cache slot {index} is empty"
  | .fragment => "pointer update fragment out of sequence"

/-- The largest reassembled update. -/
def maxReassembled : Nat := 1 <<< 20

/-- The cache, with an entry for each slot, and the fragments that are being put together. -/
structure PointerDecoder where
  cache : List (Option CursorShape)
  partialUpdate : Option (UpdateCode × Bytes)
  deriving DecidableEq

def isPointerCode : UpdateCode → Bool
  | .hiddenPointer | .defaultPointer | .positionPointer | .colorPointer | .cachedPointer | .newPointer
  | .largePointer => true
  | .orders | .bitmap | .palette | .synchronize | .surfaceCommands => false

namespace PointerDecoder

def new (cacheSize : Nat) : PointerDecoder := ⟨List.replicate cacheSize none, none⟩

def reset (d : PointerDecoder) : PointerDecoder := ⟨d.cache.map fun _ => none, none⟩

def slot (d : PointerDecoder) (index : UInt16) : Except PointerError (Option CursorShape) :=
  match d.cache[index.toNat]? with
  | some slot => .ok slot
  | none => .error (.cacheIndexOutOfRange index d.cache.length)

/-- The shape of a bitmap goes into its slot, which is checked first. -/
def store (d : PointerDecoder) (index : UInt16) (decoded : Except String DecodedPointer) :
    PointerDecoder × Except PointerError PointerEvent :=
  match d.slot index, decoded with
  | .error e, _ => (d, .error e)
  | .ok _, .error e => (d, .error (.bitmap e))
  | .ok _, .ok decoded =>
    let shape := match CursorImage.fromDecoded decoded with
      | some img => CursorShape.image img
      | none => .hidden
    ({ d with cache := d.cache.set index.toNat (some shape) }, .ok (.shape shape))

variable {Attribute : Type}

def apply (codec : PointerCodec Attribute) (d : PointerDecoder) :
    PointerUpdateData Attribute → PointerDecoder × Except PointerError PointerEvent
  | .setHidden => (d, .ok (.shape .hidden))
  | .setDefault => (d, .ok (.shape .default))
  | .setPosition x y => (d, .ok (.position x y))
  | .cached index =>
    match d.slot index with
    | .error e => (d, .error e)
    | .ok (some shape) => (d, .ok (.shape shape))
    | .ok none => (d, .error (.cacheMiss index))
  | .color index attr => d.store index (codec.decodeColorPointerAttribute attr)
  | .new index attr => d.store index (codec.decodePointerAttribute attr)
  | .large index attr => d.store index (codec.decodeLargePointerAttribute attr)

/-- The data of a whole update, or none yet. -/
def reassemble (d : PointerDecoder) (update : FastPathUpdatePdu) :
    PointerDecoder × Except PointerError (Option Bytes) :=
  match update.fragmentation with
  | .single => ({ d with partialUpdate := none }, .ok (some update.data))
  | .first => ({ d with partialUpdate := some (update.updateCode, update.data) }, .ok none)
  | .next | .last =>
    match d.partialUpdate with
    | none => (d, .error .fragment)
    | some (firstCode, buf) =>
      let taken := { d with partialUpdate := none }
      let buf := buf ++ update.data
      if firstCode ≠ update.updateCode then (taken, .error .fragment)
      else if maxReassembled < buf.length then
        (taken, .error (.malformed "reassembled pointer update too large"))
      else if update.fragmentation = .next then
        ({ d with partialUpdate := some (update.updateCode, buf) }, .ok none)
      else (taken, .ok (some buf))

/-- The data of a whole update is parsed and applied. -/
def decodeWhole (codec : PointerCodec Attribute) (d : PointerDecoder) (code : UpdateCode) (data : Bytes) :
    PointerDecoder × Except PointerError (Option PointerEvent) :=
  match codec.decodeWithCode data code with
  | .error e => (d, .error (.malformed e))
  | .ok none => (d, .ok none)
  | .ok (some parsed) =>
    let applied := d.apply codec parsed
    (applied.1, applied.2.map some)

def decodeUpdate (codec : PointerCodec Attribute) (d : PointerDecoder) (update : FastPathUpdatePdu) :
    PointerDecoder × Except PointerError (Option PointerEvent) :=
  if !isPointerCode update.updateCode then (d, .ok none)
  else if update.compressionFlags.isSome then
    (d, .error (.malformed "bulk-compressed pointer updates are not supported"))
  else
    match d.reassemble update with
    | (d, .error e) => (d, .error e)
    | (d, .ok none) => (d, .ok none)
    | (d, .ok (some data)) => d.decodeWhole codec update.updateCode data

end PointerDecoder

end Drift.Pointer
