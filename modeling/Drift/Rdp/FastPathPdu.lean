import Drift.Core.Reader
import Drift.Egfx.Pdu
import Drift.Gfx.Avc420
import Drift.Rdp.FastPath

/-!
# Frames of fast-path input

The PDUs that the events of the encoder become on the wire, and how a server reads them. A frame is written into a
buffer of the size it says it has.
-/

namespace Drift

/-! ### Lengths -/

namespace Per

/-- `sizeof_length`. -/
def sizeofLength (length : Nat) : Nat := if length > 0x7f then 2 else 1

def writeLength (length : UInt16) : Bytes :=
  if length > 0x7f then
    let long := length ||| 0x8000
    [(long >>> 8).toUInt8, long.toUInt8]
  else [length.toUInt8]

/-- The length and how many bytes it took; the error is wrapped in one of its own kind. -/
def readLength : Reader (UInt16 × Nat) := do
  Reader.ensureSize 1
  let a ← Reader.readU8
  if a &&& 0x80 ≠ 0 then
    Reader.ensureSize 1
    let b ← Reader.readU8
    return (((a.toUInt16 &&& 0xFF7F) <<< 8) + b.toUInt16, 2)
  else return (a.toUInt16, 1)

end Per

namespace Rdp

open Egfx (le16 le32 readLe16 readLe32)
open Gfx (getBits)

/-- `set_bits` of the bit field crate; a value of more bits panics. -/
def setBits (v lo hi value : UInt8) : UInt8 :=
  (v &&& ~~~((((0xFF <<< (8 - hi)) >>> (8 - hi)) >>> lo) <<< lo)) ||| (value <<< lo)

/-- The errors of the encoders, without their names. -/
inductive FastPathError where
  | decode (error : Pdu.DecodeError)
  | notEnoughBytes (received expected : Nat)
  | invalidField (field reason : String)
  | other (reason : String)
  deriving DecidableEq

/-! ### Events -/

/-- The sign of the nine bits of the wheel. -/
def PointerFlags.wheelNegative : UInt16 := 0x0100

structure MousePdu where
  flags : UInt16
  numberOfWheelRotationUnits : Int16
  xPosition : UInt16
  yPosition : UInt16
  deriving DecidableEq

namespace MousePdu

/-- The flags with the units in their low nine bits. -/
def bits (pdu : MousePdu) : UInt16 :=
  pdu.flags ||| (if pdu.numberOfWheelRotationUnits < 0 then PointerFlags.wheelNegative else 0) |||
    pdu.numberOfWheelRotationUnits.toUInt16.toUInt8.toUInt16

def unitsOf (flagsRaw : UInt16) : Int16 :=
  let wheelRotationsBits := flagsRaw.toUInt8.toUInt16.toInt16
  if flagsRaw &&& PointerFlags.wheelNegative ≠ 0 then wheelRotationsBits - 0x100 else wheelRotationsBits

def encode (pdu : MousePdu) : Bytes := [le16 pdu.bits, le16 pdu.xPosition, le16 pdu.yPosition].flatten

def decode : Reader MousePdu := do
  Reader.ensureSize 6
  let flagsRaw ← readLe16
  let xPosition ← readLe16
  let yPosition ← readLe16
  return ⟨flagsRaw, unitsOf flagsRaw, xPosition, yPosition⟩

end MousePdu

structure MouseXPdu where
  flags : UInt16
  xPosition : UInt16
  yPosition : UInt16
  deriving DecidableEq

namespace MouseXPdu

def encode (pdu : MouseXPdu) : Bytes := [le16 pdu.flags, le16 pdu.xPosition, le16 pdu.yPosition].flatten

def decode : Reader MouseXPdu := do
  Reader.ensureSize 6
  let flags ← readLe16
  let xPosition ← readLe16
  let yPosition ← readLe16
  return ⟨flags, xPosition, yPosition⟩

end MouseXPdu

structure MouseRelPdu where
  flags : UInt16
  xDelta : Int16
  yDelta : Int16
  deriving DecidableEq

def MouseRelPdu.decode : Reader MouseRelPdu := do
  Reader.ensureSize 6
  let flags ← readLe16
  let xDelta ← readLe16
  let yDelta ← readLe16
  return ⟨flags, xDelta.toInt16, yDelta.toInt16⟩

inductive FastPathInputEventPdu where
  | keyboardEvent (flags code : UInt8)
  | unicodeKeyboardEvent (flags : UInt8) (code : UInt16)
  | mouseEvent (pdu : MousePdu)
  | mouseEventEx (pdu : MouseXPdu)
  | mouseEventRel (pdu : MouseRelPdu)
  | qoeEvent (stamp : UInt32)
  | syncEvent (flags : UInt8)
  deriving DecidableEq

namespace FastPathInputEventPdu

/-- The type of the event, `FastpathInputEventType`. -/
def code : FastPathInputEventPdu → UInt8
  | keyboardEvent _ _ => 0
  | mouseEvent _ => 1
  | mouseEventEx _ => 2
  | syncEvent _ => 3
  | unicodeKeyboardEvent _ _ => 4
  | mouseEventRel _ => 5
  | qoeEvent _ => 6

def flags : FastPathInputEventPdu → UInt8
  | keyboardEvent flags _ => flags
  | unicodeKeyboardEvent flags _ => flags
  | syncEvent flags => flags
  | _ => 0

/-- A relative movement counts with its size and is not written. -/
def body : FastPathInputEventPdu → Bytes
  | keyboardEvent _ code => [code]
  | unicodeKeyboardEvent _ code => le16 code
  | mouseEvent pdu => pdu.encode
  | mouseEventEx pdu => pdu.encode
  | qoeEvent stamp => le32 stamp
  | mouseEventRel _ => []
  | syncEvent _ => []

def size : FastPathInputEventPdu → Nat
  | keyboardEvent _ _ => 1 + 1
  | unicodeKeyboardEvent _ _ => 1 + 2
  | mouseEvent _ => 1 + 6
  | mouseEventEx _ => 1 + 6
  | mouseEventRel _ => 1 + 6
  | qoeEvent _ => 1 + 4
  | syncEvent _ => 1 + 0

def header (e : FastPathInputEventPdu) : UInt8 := setBits (setBits 0 0 5 e.flags) 5 8 e.code

def encode (e : FastPathInputEventPdu) : Bytes := e.header :: e.body

def decodeBody (flags code : UInt8) : Reader FastPathInputEventPdu :=
  if code = 0 then do
    Reader.ensureSize 1
    return keyboardEvent flags (← Reader.readU8)
  else if code = 1 then do return mouseEvent (← MousePdu.decode)
  else if code = 2 then do return mouseEventEx (← MouseXPdu.decode)
  else if code = 3 then return syncEvent flags
  else if code = 4 then do
    Reader.ensureSize 2
    return unicodeKeyboardEvent flags (← readLe16)
  else if code = 5 then do return mouseEventRel (← MouseRelPdu.decode)
  else if code = 6 then do
    Reader.ensureSize 4
    return qoeEvent (← readLe32)
  else Reader.fail (.invalidField "code" "input event code unsupported")

def decode : Reader FastPathInputEventPdu := do
  Reader.ensureSize 1
  let header ← Reader.readU8
  decodeBody (getBits header 0 5) (getBits header 5 8)

end FastPathInputEventPdu

/-! ### Frames -/

structure FastPathInputHeader where
  /-- `EncryptionFlags`. -/
  flags : UInt8
  dataLength : Nat
  numEvents : UInt8
  deriving DecidableEq

namespace FastPathInputHeader

def numEventsLength (h : FastPathInputHeader) : Nat := if h.numEvents < 16 then 0 else 1

def size (h : FastPathInputHeader) : Nat :=
  1 + Per.sizeofLength (h.dataLength + h.numEventsLength + 1) + h.numEventsLength

/-- The length is that of the frame; the room for it was chosen by a shorter one. -/
def encode (h : FastPathInputHeader) : Except FastPathError Bytes := do
  let header := if h.numEvents < 16 then setBits 0 2 7 h.numEvents else 0
  let length := h.dataLength + h.size
  if length > u16Max then throw (.invalidField "len" "out of range")
  return [setBits header 6 8 h.flags] ++ Per.writeLength (.ofNat length) ++
    if h.numEvents > 15 then [h.numEvents] else []

/-- What follows the length. A length that is too short wraps; nothing reads the length of the data. -/
def decodeRest (flags numEvents : UInt8) (length : UInt16 × Nat) : Reader FastPathInputHeader :=
  if flags ≠ 0 then Reader.fail (.invalidField "flags" "encryption not supported")
  else if numEvents = 0 then do
    Reader.ensureSize 1
    let numEvents ← Reader.readU8
    return ⟨flags, (length.1.toNat + 2 ^ 64 - length.2 - 1 - 1) % 2 ^ 64, numEvents⟩
  else return ⟨flags, (length.1.toNat + 2 ^ 64 - length.2 - 1) % 2 ^ 64, numEvents⟩

def decode : Reader FastPathInputHeader := do
  Reader.ensureSize 1
  let header ← Reader.readU8
  let length ← Per.readLength
  decodeRest (getBits header 6 8) (getBits header 2 6) length

end FastPathInputHeader

namespace FastPathInput

/-- From one event to as many as there can be. -/
def new (inputEvents : List FastPathInputEventPdu) : Except Pdu.DecodeError (List FastPathInputEventPdu) :=
  if 1 ≤ inputEvents.length ∧ inputEvents.length ≤ maxEvents then .ok inputEvents
  else .error (.invalidField "nEvents" "invalid number of input events")

def dataLength (events : List FastPathInputEventPdu) : Nat := (events.map FastPathInputEventPdu.size).sum

def header (events : List FastPathInputEventPdu) : FastPathInputHeader :=
  ⟨0, dataLength events, .ofNat events.length⟩

def size (events : List FastPathInputEventPdu) : Nat := (header events).size + dataLength events

/-- The events one after the other, into what is left of the buffer. -/
def encodeEvents : List FastPathInputEventPdu → Nat → Except FastPathError Bytes
  | [], _ => .ok []
  | event :: events, room =>
    if room < event.size then .error (.notEnoughBytes room event.size)
    else do
      let rest ← encodeEvents events (room - event.encode.length)
      return event.encode ++ rest

/-- `encode_vec`: the frame in a buffer of zeros of its size. -/
def encode (events : List FastPathInputEventPdu) : Except FastPathError Bytes :=
  if events.isEmpty then .error (.other "Empty fast-path input")
  else do
    let header ← (header events).encode
    let body ← encodeEvents events (size events - header.length)
    return header ++ body ++ List.replicate (size events - (header ++ body).length) 0

def decode : Reader (List FastPathInputEventPdu) := do
  let header ← FastPathInputHeader.decode
  let events ← Egfx.repeatWith FastPathInputEventPdu.decode header.numEvents.toNat
  StateT.lift (new events)

end FastPathInput

namespace ActiveStage

/-- A frame for each chunk; one that cannot be written ends it. -/
def frames : List (List FastPathInputEventPdu) → Except FastPathError (List Bytes)
  | [] => .ok []
  | chunk :: chunks => do
    let input ← (FastPathInput.new chunk).mapError .decode
    let frame ← FastPathInput.encode input
    let rest ← frames chunks
    return frame :: rest

/-- The frames that are sent for the events, without what is drawn of the pointer. -/
def processFastpathInput (events : List FastPathInputEventPdu) : Except FastPathError (List Bytes) :=
  if events.isEmpty then .ok [] else frames (events.toChunks FastPathInput.maxEvents)

end ActiveStage

/-! ### The events of the encoder -/

namespace FastPathInputEvent

/-- The flag, if it is set. -/
def flagIf (set : Bool) (flag : UInt8) : UInt8 := if set then flag else 0

/-- The event as it is given to the protocol library. -/
def toPdu : FastPathInputEvent → FastPathInputEventPdu
  | keyboardEvent release extended scancode =>
    .keyboardEvent (flagIf release 0x01 ||| flagIf extended 0x02) scancode
  | unicodeKeyboardEvent release ch => .unicodeKeyboardEvent (flagIf release 0x01) ch
  | mouseEvent flags wheelUnits x y => .mouseEvent ⟨flags, wheelUnits, x, y⟩
  | mouseEventEx flags x y => .mouseEventEx ⟨flags, x, y⟩
  | syncEvent capsLock numLock => .syncEvent (flagIf capsLock 0x04 ||| flagIf numLock 0x02)

/-- What an event asks for: the flags of a movement are those above the nine bits of the wheel. -/
def ofPdu : FastPathInputEventPdu → Option FastPathInputEvent
  | .keyboardEvent flags code => some (keyboardEvent (flags &&& 0x01 ≠ 0) (flags &&& 0x02 ≠ 0) code)
  | .unicodeKeyboardEvent flags code => some (unicodeKeyboardEvent (flags &&& 0x01 ≠ 0) code)
  | .mouseEvent pdu =>
    some (mouseEvent (pdu.flags &&& 0xFE00) pdu.numberOfWheelRotationUnits pdu.xPosition pdu.yPosition)
  | .mouseEventEx pdu => some (mouseEventEx pdu.flags pdu.xPosition pdu.yPosition)
  | .syncEvent flags => some (syncEvent (flags &&& 0x04 ≠ 0) (flags &&& 0x02 ≠ 0))
  | _ => none

end FastPathInputEvent

end Rdp

end Drift
