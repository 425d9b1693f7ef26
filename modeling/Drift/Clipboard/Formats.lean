import Drift.Core.Geometry
import Drift.Input.Unicode

/-!
# Clipboard formats

What a clipboard holds and how it is mapped to the formats of the clipboard channel: UTF-16 text
with CRLF line ends, PNG under a registered name, TIFF, and device-independent bitmaps. The image
library behind the bitmap conversions is a parameter.
-/

namespace Drift.Clipboard

inductive ClipboardPrefs where
  | off
  | text
  | textAndImages
  deriving DecidableEq

inductive ClipboardItem where
  | text (text : String)
  | png (bytes : Bytes)
  | tiff (bytes : Bytes)
  deriving DecidableEq

structure ClipboardContents where
  items : List ClipboardItem
  deriving DecidableEq

namespace ClipboardContents

def empty : ClipboardContents := ⟨[]⟩

def isEmpty (c : ClipboardContents) : Bool := c.items.isEmpty

def text (c : ClipboardContents) : Option String :=
  c.items.findSome? fun
    | .text t => some t
    | _ => none

end ClipboardContents

def cfText : Nat := 1

def cfTiff : Nat := 6

def cfDib : Nat := 8

def cfUnicodeText : Nat := 13

def pngFormatName : String := "image/png"

def localPngFormatId : Nat := 0xC0F0

def maxClipboardBytes : Nat := 32 * 1024 * 1024

inductive FormatKind where
  | unicodeText
  | ansiText
  | png
  | tiff
  | dib
  deriving DecidableEq

namespace FormatKind

def isImage : FormatKind → Bool
  | png | tiff | dib => true
  | unicodeText | ansiText => false

def allowedBy (kind : FormatKind) : ClipboardPrefs → Bool
  | .off => false
  | .text => !kind.isImage
  | .textAndImages => true

/-- The place in the order of declaration, which is the derived order. -/
def rank : FormatKind → Nat
  | unicodeText => 0
  | ansiText => 1
  | png => 2
  | tiff => 3
  | dib => 4

end FormatKind

/-- A format as it appears in a Format List PDU. -/
structure ClipFormat where
  id : Nat
  name : Option String
  deriving DecidableEq

namespace ClipFormat

def standard (id : Nat) : ClipFormat := ⟨id, none⟩

def named (id : Nat) (name : String) : ClipFormat := ⟨id, some name⟩

/-- Registered formats are matched by name, standard formats by id. -/
def kind (f : ClipFormat) : Option FormatKind :=
  match f.name with
  | some name => if name = pngFormatName then some .png else none
  | none =>
    if f.id = cfUnicodeText then some .unicodeText
    else if f.id = cfText then some .ansiText
    else if f.id = cfTiff then some .tiff
    else if f.id = cfDib then some .dib
    else none

end ClipFormat

inductive ClipError where
  | tooLarge (size max : Nat)
  | invalidImage (detail : String)
  | unavailable (formatId : Nat)
  | remoteError
  deriving DecidableEq

def checkSize (size : Nat) : Except ClipError Unit :=
  if maxClipboardBytes < size then .error (.tooLarge size maxClipboardBytes) else .ok ()

/-! ### Text -/

/-- The two bytes of a code unit, low byte first. -/
def unitBytes (unit : UInt16) : Bytes := [unit.toUInt8, (unit >>> 8).toUInt8]

/-- A line feed that does not follow a carriage return gets one. -/
def lfToCrlf (prev : Char) : List Char → List Char
  | [] => []
  | c :: cs =>
    if c = '\n' ∧ prev ≠ '\r' then '\r' :: c :: lfToCrlf c cs else c :: lfToCrlf c cs

def encodeUnicodeText (text : String) : Bytes :=
  ((lfToCrlf (Char.ofNat 0) text.toList).flatMap Input.encodeUtf16).flatMap unitBytes ++ [0, 0]

def crlfToLf : List Char → List Char
  | '\r' :: '\n' :: cs => '\n' :: crlfToLf cs
  | c :: cs => c :: crlfToLf cs
  | [] => []

/-- The code units of a byte string; a trailing odd byte is ignored. -/
def unitsOfBytes : Bytes → List UInt16
  | lo :: hi :: rest => (lo.toUInt16 ||| (hi.toUInt16 <<< 8)) :: unitsOfBytes rest
  | _ => []

/-- `char::decode_utf16` with unpaired surrogates replaced by U+FFFD. -/
def decodeUtf16 : List UInt16 → List Char
  | [] => []
  | unit :: rest =>
    let code := unit.toNat
    if code < 0xD800 ∨ 0xE000 ≤ code then Char.ofNat code :: decodeUtf16 rest
    else
      match rest with
      | [] => [Char.ofNat 0xFFFD]
      | low :: rest' =>
        if code < 0xDC00 ∧ 0xDC00 ≤ low.toNat ∧ low.toNat < 0xE000 then
          Char.ofNat (0x10000 + (code - 0xD800) * 0x400 + (low.toNat - 0xDC00)) :: decodeUtf16 rest'
        else Char.ofNat 0xFFFD :: decodeUtf16 (low :: rest')

def decodeUnicodeText (bytes : Bytes) : String :=
  .ofList (crlfToLf (decodeUtf16 ((unitsOfBytes bytes).takeWhile (· ≠ 0))))

def decodeAnsiText (bytes : Bytes) : String :=
  let bytes := bytes.takeWhile (· ≠ 0)
  let text := match String.fromUTF8? ⟨bytes.toArray⟩ with
    | some s => s.toList
    | none => bytes.map fun b => Char.ofNat b.toNat
  .ofList (crlfToLf text)

/-! ### Images -/

structure RgbaImage where
  width : Nat
  height : Nat
  /-- Red, green, blue and alpha at a column and a row. -/
  pixel : Nat → Nat → Bgra

/-- The image library: a packed bitmap re-encoded as PNG, and a decoded PNG. -/
structure ImageCodec where
  bmpToPng : Bytes → Except ClipError Bytes
  loadPng : Bytes → Except ClipError RgbaImage

def bitmapInfoHeaderLen : Nat := 40

def leBytes (width n : Nat) : Bytes :=
  (List.range width).map fun i => (n / 256 ^ i % 256).toUInt8

/-- The magnitude of a little-endian `i32` of a header. -/
def headerDim (header : Bytes) (at' : Nat) : Nat :=
  let n := ((List.range 4).map fun i => (header.getD (at' + i) 0).toNat * 256 ^ i).sum
  if n < 2 ^ 31 then n else 2 ^ 32 - n

def dibToPng (images : ImageCodec) (dib : Bytes) : Except ClipError Bytes := do
  checkSize dib.length
  if dib.length < bitmapInfoHeaderLen then
    throw (.invalidImage "DIB shorter than BITMAPINFOHEADER")
  -- The decoded size is bounded from the header; the products saturate at `u64::MAX`.
  let decoded := min (headerDim dib 4 * headerDim dib 8 * 4) (2 ^ 64 - 1)
  if maxClipboardBytes < decoded then throw (.tooLarge decoded maxClipboardBytes)
  images.bmpToPng dib

def pngSignature : Bytes := [0x89, 0x50, 0x4E, 0x47, 0x0D, 0x0A, 0x1A, 0x0A]

def pngPassthrough (png : Bytes) : Except ClipError Bytes := do
  checkSize png.length
  if pngSignature.isPrefixOf png then pure png
  else throw (.invalidImage "missing PNG signature")

def outOfRange : ClipError := .invalidImage "out of range integral type conversion attempted"

def pngToDib (images : ImageCodec) (png : Bytes) : Except ClipError Bytes := do
  let _ ← pngPassthrough png
  let rgba ← images.loadPng png
  let imageSize := rgba.width * rgba.height * 4
  checkSize imageSize
  if 2 ^ 31 ≤ rgba.width ∨ 2 ^ 31 ≤ rgba.height then throw outOfRange
  let header :=
    leBytes 4 bitmapInfoHeaderLen ++ leBytes 4 rgba.width ++ leBytes 4 rgba.height ++ leBytes 2 1 ++
      leBytes 2 32 ++ leBytes 4 0 ++ leBytes 4 imageSize ++ leBytes 4 2835 ++ leBytes 4 2835 ++
      leBytes 4 0 ++ leBytes 4 0
  let pixels := (List.range rgba.height).reverse.flatMap fun y =>
    (List.range rgba.width).flatMap fun x =>
      let p := rgba.pixel x y
      [p.b, p.g, p.r, p.a]
  pure (header ++ pixels)

/-! ### Local contents -/

namespace ClipboardItem

def kind : ClipboardItem → FormatKind
  | text _ => .unicodeText
  | png _ => .png
  | tiff _ => .tiff

def size : ClipboardItem → Nat
  | text t => t.utf8ByteSize
  | png b | tiff b => b.length

end ClipboardItem

/-- The items that are allowed and fit under the size cap, and the rejections of the oversized
ones. -/
def filterLocal (contents : ClipboardContents) (prefs : ClipboardPrefs) :
    ClipboardContents × List ClipError :=
  let allowed := contents.items.filter (·.kind.allowedBy prefs)
  (⟨allowed.filter fun i => i.size ≤ maxClipboardBytes⟩,
    (allowed.filter fun i => maxClipboardBytes < i.size).map fun i =>
      .tooLarge i.size maxClipboardBytes)

def findPng (contents : ClipboardContents) : Option Bytes :=
  contents.items.findSome? fun
    | .png p => some p
    | _ => none

def findTiff (contents : ClipboardContents) : Option Bytes :=
  contents.items.findSome? fun
    | .tiff t => some t
    | _ => none

def outboundFormats (contents : ClipboardContents) (prefs : ClipboardPrefs) : List ClipFormat :=
  (if FormatKind.unicodeText.allowedBy prefs && contents.text.isSome then
      [.standard cfUnicodeText] else []) ++
    if FormatKind.png.allowedBy prefs then
      if (findPng contents).isSome then
        [.named localPngFormatId pngFormatName, .standard cfDib]
      else if (findTiff contents).isSome then [.standard cfTiff]
      else []
    else []

def preference : List (List FormatKind) := [[.unicodeText, .ansiText], [.png, .tiff, .dib]]

/-- The remote formats to fetch, in order: of each group of kinds the most preferred one that is
allowed and offered. -/
def selectInbound (formats : List ClipFormat) (prefs : ClipboardPrefs) :
    List (ClipFormat × FormatKind) :=
  preference.filterMap fun group =>
    (group.filter (·.allowedBy prefs)).findSome? fun k =>
      (formats.find? fun f => f.kind = some k).map fun f => (f, k)

def decodeInbound (images : ImageCodec) (kind : FormatKind) (data : Bytes) :
    Except ClipError ClipboardItem := do
  checkSize data.length
  match kind with
  | .unicodeText => pure (.text (decodeUnicodeText data))
  | .ansiText => pure (.text (decodeAnsiText data))
  | .png => .png <$> pngPassthrough data
  | .tiff => pure (.tiff data)
  | .dib => .png <$> dibToPng images data

def encodeOutbound (images : ImageCodec) (formatId : Nat) (contents : ClipboardContents)
    (prefs : ClipboardPrefs) : Except ClipError Bytes := do
  let unavailable : ClipError := .unavailable formatId
  if !(outboundFormats contents prefs).any (·.id = formatId) then throw unavailable
  let data ←
    if formatId = cfUnicodeText then pure (contents.text.map encodeUnicodeText)
    else if formatId = localPngFormatId then pure (findPng contents)
    else if formatId = cfDib then (findPng contents).mapM (pngToDib images)
    else if formatId = cfTiff then pure (findTiff contents)
    else pure none
  match data with
  | none => throw unavailable
  | some data =>
    checkSize data.length
    pure data

end Drift.Clipboard
