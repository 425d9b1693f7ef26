import Drift.Core.Reader
import Mathlib.Data.List.DropRight

/-!
# PDUs of the dynamic channels

A PDU starts with a byte for its command and for the widths of two fields: the channel, and a length that only
the first PDU of a message has.
-/

namespace Drift.Channel

open Pdu

/-- The width of a field. -/
inductive FieldType where
  | u8
  | u16
  | u32
  | invalid
  deriving DecidableEq

namespace FieldType

def toU8 : FieldType → UInt8
  | u8 => 0
  | u16 => 1
  | u32 => 2
  | invalid => 3

/-- `From<u8>`, of two bits. -/
def ofU8 (byte : UInt8) : FieldType :=
  if byte = 0 then u8 else if byte = 1 then u16 else if byte = 2 then u32 else invalid

def sizeOfVal : FieldType → Nat
  | u8 => 1
  | u16 => 2
  | u32 => 4
  | invalid => 0

def forVal (value : UInt32) : FieldType :=
  if value.toNat < 2 ^ 8 then u8 else if value.toNat < 2 ^ 16 then u16 else u32

def encodeVal (t : FieldType) (value : UInt32) : Except EncodeError Bytes :=
  match t with
  | invalid => .error (.invalidField "FieldType" "invalid field type")
  | t =>
    if value.toNat < 256 ^ t.sizeOfVal then .ok (toLeBytes t.sizeOfVal value.toNat)
    else .error (.invalidField "FieldType::encode" "out of range integral type conversion")

def decodeVal (t : FieldType) : Reader UInt32 := do
  Reader.ensureSize t.sizeOfVal
  match t with
  | u8 => return (← Reader.readU8).toUInt32
  | u16 => return .ofNat (← Reader.readU16)
  | u32 => return .ofNat (← Reader.readU32)
  | invalid => Reader.fail (.invalidField "FieldType" "invalid field type")

end FieldType

inductive Cmd where
  | create
  | dataFirst
  | data
  | close
  | capability
  | dataFirstCompressed
  | dataCompressed
  | softSyncRequest
  | softSyncResponse
  deriving DecidableEq

namespace Cmd

def asU8 : Cmd → UInt8
  | create => 0x01
  | dataFirst => 0x02
  | data => 0x03
  | close => 0x04
  | capability => 0x05
  | dataFirstCompressed => 0x06
  | dataCompressed => 0x07
  | softSyncRequest => 0x08
  | softSyncResponse => 0x09

/-- `{cmd:?}`. -/
def name : Cmd → String
  | create => "Create"
  | dataFirst => "DataFirst"
  | data => "Data"
  | close => "Close"
  | capability => "Capability"
  | dataFirstCompressed => "DataFirstCompressed"
  | dataCompressed => "DataCompressed"
  | softSyncRequest => "SoftSyncRequest"
  | softSyncResponse => "SoftSyncResponse"

def all : List Cmd :=
  [create, dataFirst, data, close, capability, dataFirstCompressed, dataCompressed, softSyncRequest,
    softSyncResponse]

/-- `TryFrom<u8>`. -/
def ofU8 (byte : UInt8) : Except DecodeError Cmd :=
  match all.find? (·.asU8 = byte) with
  | some cmd => .ok cmd
  | none => .error (.invalidField "Cmd" "invalid cmd")

end Cmd

structure Header where
  cbId : FieldType
  sp : FieldType
  cmd : Cmd
  deriving DecidableEq

namespace Header

def new (cbIdVal spVal : UInt32) (cmd : Cmd) : Header := ⟨.forVal cbIdVal, .forVal spVal, cmd⟩

def toU8 (h : Header) : UInt8 := h.cmd.asU8 <<< 4 ||| h.sp.toU8 <<< 2 ||| h.cbId.toU8

def ofU8 (byte : UInt8) : Except DecodeError Header := do
  let cmd ← Cmd.ofU8 (byte >>> 4)
  return ⟨.ofU8 (byte &&& 3), .ofU8 ((byte >>> 2) &&& 3), cmd⟩

def encode (h : Header) : Bytes := [h.toU8]

def decode : Reader Header := do
  Reader.ensureSize 1
  let byte ← Reader.readU8
  StateT.lift (ofU8 byte)

end Header

/-! ### Data -/

structure DataFirstPdu where
  header : Header
  channelId : UInt32
  length : UInt32
  data : Bytes
  deriving DecidableEq

namespace DataFirstPdu

def new (channelId totalLength : UInt32) (data : Bytes) : DataFirstPdu :=
  ⟨.new channelId totalLength .dataFirst, channelId, totalLength, data⟩

def decode (header : Header) : Reader DataFirstPdu := do
  Reader.ensureSize (header.cbId.sizeOfVal + header.sp.sizeOfVal)
  let channelId ← header.cbId.decodeVal
  let length ← header.sp.decodeVal
  let data ← Reader.readRemaining
  return ⟨header, channelId, length, data⟩

def encode (pdu : DataFirstPdu) : Except EncodeError Bytes := do
  let channelId ← pdu.header.cbId.encodeVal pdu.channelId
  let length ← pdu.header.sp.encodeVal pdu.length
  return pdu.header.encode ++ channelId ++ length ++ pdu.data

end DataFirstPdu

structure DataPdu where
  header : Header
  channelId : UInt32
  data : Bytes
  deriving DecidableEq

namespace DataPdu

def new (channelId : UInt32) (data : Bytes) : DataPdu := ⟨.new channelId 0 .data, channelId, data⟩

def decode (header : Header) : Reader DataPdu := do
  Reader.ensureSize header.cbId.sizeOfVal
  let channelId ← header.cbId.decodeVal
  let data ← Reader.readRemaining
  return ⟨header, channelId, data⟩

def encode (pdu : DataPdu) : Except EncodeError Bytes := do
  let channelId ← pdu.header.cbId.encodeVal pdu.channelId
  return pdu.header.encode ++ channelId ++ pdu.data

end DataPdu

inductive DrdynvcDataPdu where
  | dataFirst (pdu : DataFirstPdu)
  | data (pdu : DataPdu)
  deriving DecidableEq

namespace DrdynvcDataPdu

/-- The most data that a PDU takes. -/
def maxDataSize : Nat := 1590

def channelId : DrdynvcDataPdu → UInt32
  | dataFirst pdu => pdu.channelId
  | data pdu => pdu.channelId

def encode : DrdynvcDataPdu → Except EncodeError Bytes
  | dataFirst pdu => pdu.encode
  | data pdu => pdu.encode

end DrdynvcDataPdu

/-! ### Capabilities -/

inductive CapsVersion where
  | v1
  | v2
  | v3
  deriving DecidableEq

namespace CapsVersion

def toU16 : CapsVersion → Nat
  | v1 => 1
  | v2 => 2
  | v3 => 3

/-- `TryFrom<u16>`. -/
def ofU16 (value : Nat) : Except DecodeError CapsVersion :=
  if value = 1 then .ok v1 else if value = 2 then .ok v2 else if value = 3 then .ok v3
  else .error (.invalidField "CapsVersion" "invalid version")

end CapsVersion

structure CapabilitiesResponsePdu where
  header : Header
  version : CapsVersion
  deriving DecidableEq

namespace CapabilitiesResponsePdu

def new (version : CapsVersion) : CapabilitiesResponsePdu := ⟨.new 0 0 .capability, version⟩

def decode (header : Header) : Reader CapabilitiesResponsePdu := do
  Reader.ensureSize 3
  let _pad ← Reader.readU8
  let version ← StateT.lift (CapsVersion.ofU16 (← Reader.readU16))
  return ⟨header, version⟩

def encode (pdu : CapabilitiesResponsePdu) : Bytes := pdu.header.encode ++ [0] ++ toLeBytes 2 pdu.version.toU16

end CapabilitiesResponsePdu

/-- `[u16; 4]`. -/
structure Charges where
  first : UInt16
  second : UInt16
  third : UInt16
  fourth : UInt16
  deriving DecidableEq

inductive CapabilitiesRequestPdu where
  | v1 (header : Header)
  | v2 (header : Header) (charges : Charges)
  | v3 (header : Header) (charges : Charges)
  deriving DecidableEq

namespace Charges

def decode : Reader Charges := do
  Reader.ensureSize 8
  let first ← Reader.readU16
  let second ← Reader.readU16
  let third ← Reader.readU16
  let fourth ← Reader.readU16
  return ⟨.ofNat first, .ofNat second, .ofNat third, .ofNat fourth⟩

def encode (c : Charges) : Bytes :=
  toLeBytes 2 c.first.toNat ++ toLeBytes 2 c.second.toNat ++ toLeBytes 2 c.third.toNat ++
    toLeBytes 2 c.fourth.toNat

end Charges

namespace CapabilitiesRequestPdu

def version : CapabilitiesRequestPdu → CapsVersion
  | v1 _ => .v1
  | v2 _ _ => .v2
  | v3 _ _ => .v3

def header : CapabilitiesRequestPdu → Header
  | v1 header => header
  | v2 header _ => header
  | v3 header _ => header

def decode (header : Header) : Reader CapabilitiesRequestPdu := do
  Reader.ensureSize 3
  let _pad ← Reader.readU8
  let version ← StateT.lift (CapsVersion.ofU16 (← Reader.readU16))
  match version with
  | .v1 => return v1 header
  | .v2 => return v2 header (← Charges.decode)
  | .v3 => return v3 header (← Charges.decode)

def encode (pdu : CapabilitiesRequestPdu) : Bytes :=
  pdu.header.encode ++ [0] ++ toLeBytes 2 pdu.version.toU16 ++
    match pdu with
    | v1 _ => []
    | v2 _ charges => charges.encode
    | v3 _ charges => charges.encode

end CapabilitiesRequestPdu

/-! ### Channels -/

structure CreateResponsePdu where
  header : Header
  channelId : UInt32
  creationStatus : UInt32
  deriving DecidableEq

/-- The values of `CreationStatus` that the client sends. -/
def creationStatusOk : UInt32 := 0x00000000

def creationStatusNoListener : UInt32 := 0xC0000001

namespace CreateResponsePdu

def new (channelId creationStatus : UInt32) : CreateResponsePdu :=
  ⟨.new channelId 0 .create, channelId, creationStatus⟩

def decode (header : Header) : Reader CreateResponsePdu := do
  Reader.ensureSize (header.cbId.sizeOfVal + 4)
  let channelId ← header.cbId.decodeVal
  let creationStatus ← Reader.readU32
  return ⟨header, channelId, .ofNat creationStatus⟩

def encode (pdu : CreateResponsePdu) : Except EncodeError Bytes := do
  let channelId ← pdu.header.cbId.encodeVal pdu.channelId
  return pdu.header.encode ++ channelId ++ toLeBytes 4 pdu.creationStatus.toNat

end CreateResponsePdu

structure ClosePdu where
  header : Header
  channelId : UInt32
  deriving DecidableEq

namespace ClosePdu

def new (channelId : UInt32) : ClosePdu := ⟨.new channelId 0 .close, channelId⟩

def decode (header : Header) : Reader ClosePdu := do
  Reader.ensureSize header.cbId.sizeOfVal
  let channelId ← header.cbId.decodeVal
  return ⟨header, channelId⟩

def encode (pdu : ClosePdu) : Except EncodeError Bytes := do
  let channelId ← pdu.header.cbId.encodeVal pdu.channelId
  return pdu.header.encode ++ channelId

end ClosePdu

/-- `String::from_utf8`, and `trim_end_matches` of nulls. -/
def decodeUtf8 (slice : Bytes) : Except DecodeError String :=
  match String.fromUTF8? ⟨slice.toArray⟩ with
  | none => .error (.invalidField "buffer" "Failed to decode UTF8 string")
  | some text => .ok (String.ofList (text.toList.rdropWhile (· = '\x00')))

/-- `read_string_from_cursor`, up to a null or to the end, of UTF-8. -/
def readAnsiString : Reader String := do
  let ahead ← Reader.remaining
  let size := min ahead.length ((ahead.takeWhile (· ≠ 0)).length + 1)
  if size = 0 then return ""
  else
    let slice ← Reader.readSlice size
    StateT.lift (decodeUtf8 slice)

/-- `write_string_to_cursor`, with a null. -/
def ansiString (value : String) : Bytes := value.toUTF8.data.toList ++ [0]

structure CreateRequestPdu where
  header : Header
  channelId : UInt32
  channelName : String
  deriving DecidableEq

namespace CreateRequestPdu

def decode (header : Header) : Reader CreateRequestPdu := do
  Reader.ensureSize header.cbId.sizeOfVal
  let channelId ← header.cbId.decodeVal
  let channelName ← readAnsiString
  return ⟨header, channelId, channelName⟩

def encode (pdu : CreateRequestPdu) : Except EncodeError Bytes := do
  let channelId ← pdu.header.cbId.encodeVal pdu.channelId
  return pdu.header.encode ++ channelId ++ ansiString pdu.channelName

end CreateRequestPdu

/-! ### Soft-Sync -/

/-- A `SoftSyncTunnelType` is any number. -/
structure SoftSyncChannelList where
  tunnelType : UInt32
  channelIds : List UInt32
  deriving DecidableEq

/-- Numbers of the given count. -/
def readU32s : Nat → Reader (List UInt32)
  | 0 => return []
  | count + 1 => do
    let value ← Reader.readU32
    let values ← readU32s count
    return .ofNat value :: values

def u32s (values : List UInt32) : Bytes := values.flatMap fun value => toLeBytes 4 value.toNat

namespace SoftSyncChannelList

def decode : Reader SoftSyncChannelList := do
  Reader.ensureSize 6
  let tunnelType ← Reader.readU32
  let numberOfDvcs ← Reader.readU16
  Reader.ensureSize (numberOfDvcs * 4)
  let channelIds ← readU32s numberOfDvcs
  return ⟨.ofNat tunnelType, channelIds⟩

def encode (list : SoftSyncChannelList) : Bytes :=
  toLeBytes 4 list.tunnelType.toNat ++ toLeBytes 2 list.channelIds.length ++ u32s list.channelIds

end SoftSyncChannelList

/-- The tunnels and the channels of the lists so far. -/
structure Listed where
  tunnelTypes : List UInt32
  channelIds : List UInt32

/-- Which field appears twice, and how that is said. -/
abbrev Repeated := String × String

def Listed.insertChannels (l : Listed) : List UInt32 → Except Repeated Listed
  | [] => .ok l
  | channelId :: channelIds =>
    if channelId ∈ l.channelIds then .error ("ListOfDVCIds", "channel ID appears in more than one channel list")
    else { l with channelIds := channelId :: l.channelIds }.insertChannels channelIds

def Listed.insert (l : Listed) (list : SoftSyncChannelList) : Except Repeated Listed :=
  if list.tunnelType ∈ l.tunnelTypes then .error ("TunnelType", "appears in more than one channel list")
  else { l with tunnelTypes := list.tunnelType :: l.tunnelTypes }.insertChannels list.channelIds

structure SoftSyncRequestPdu where
  channelLists : List SoftSyncChannelList
  deriving DecidableEq

namespace SoftSyncRequestPdu

def tcpFlushed : Nat := 0x0001

def channelListPresent : Nat := 0x0002

def flags (pdu : SoftSyncRequestPdu) : Nat :=
  tcpFlushed ||| if pdu.channelLists = [] then 0 else channelListPresent

/-- What follows the padding. -/
def body (pdu : SoftSyncRequestPdu) : Bytes :=
  toLeBytes 2 pdu.flags ++ toLeBytes 2 pdu.channelLists.length ++
    pdu.channelLists.flatMap SoftSyncChannelList.encode

def length (pdu : SoftSyncRequestPdu) : Nat := 4 + pdu.body.length

def validateLists (l : Listed) : List SoftSyncChannelList → Except EncodeError Unit
  | [] => .ok ()
  | list :: lists =>
    if list.channelIds.length > u16Max then
      .error (.invalidField "NumberOfDVCs" "out of range integral type conversion")
    else
      match l.insert list with
      | .error (field, reason) => .error (.invalidField field reason)
      | .ok l => validateLists l lists

def validate (pdu : SoftSyncRequestPdu) : Except EncodeError Unit :=
  if pdu.channelLists.length > u16Max then
    .error (.invalidField "NumberOfTunnels" "out of range integral type conversion")
  else validateLists ⟨[], []⟩ pdu.channelLists

def encode (pdu : SoftSyncRequestPdu) : Except EncodeError Bytes := do
  pdu.validate
  if pdu.length > u32Max then throw (.invalidField "Length" "out of range integral type conversion")
  return (Header.new 0 0 .softSyncRequest).encode ++ [0] ++ toLeBytes 4 pdu.length ++ pdu.body

def decodeLists (l : Listed) : Nat → Reader (List SoftSyncChannelList)
  | 0 => return []
  | count + 1 => do
    let list ← SoftSyncChannelList.decode
    match l.insert list with
    | .error (field, reason) => Reader.fail (.invalidField field reason)
    | .ok l =>
      let lists ← decodeLists l count
      return list :: lists

def decode (header : Header) : Reader SoftSyncRequestPdu := do
  if header.cbId ≠ .u8 ∨ header.sp ≠ .u8 then
    Reader.fail (.invalidField "Header" "cbId and Sp must be zero")
  else
    Reader.ensureSize 9
    let headerlessSize := (← Reader.remaining).length
    let pad ← Reader.readU8
    if pad ≠ 0 then Reader.fail (.invalidField "Pad" "must be zero")
    else
      let length ← Reader.readU32
      if length ≠ headerlessSize - 1 then
        Reader.fail (.invalidField "Length" "does not match the bytes following the pad field")
      else
        let flags ← Reader.readU16
        if flags &&& tcpFlushed = 0 then
          Reader.fail (.invalidField "Flags" "SOFT_SYNC_TCP_FLUSHED must be set")
        else
          let numberOfTunnels ← Reader.readU16
          if numberOfTunnels > (← Reader.remaining).length / 6 then
            Reader.fail (.invalidField "NumberOfTunnels" "does not fit in the remaining bytes")
          else
            let channelLists ← decodeLists ⟨[], []⟩ numberOfTunnels
            if (← Reader.remaining) ≠ [] then
              Reader.fail (.invalidField "Length" "contains trailing bytes")
            else return ⟨channelLists⟩

end SoftSyncRequestPdu

structure SoftSyncResponsePdu where
  tunnelsToSwitch : List UInt32
  deriving DecidableEq

namespace SoftSyncResponsePdu

def validate (pdu : SoftSyncResponsePdu) : Except EncodeError Unit :=
  if pdu.tunnelsToSwitch.length > u32Max then
    .error (.invalidField "NumberOfTunnels" "out of range integral type conversion")
  else if ¬pdu.tunnelsToSwitch.Nodup then
    .error (.invalidField "TunnelsToSwitch" "contains a duplicate tunnel type")
  else .ok ()

def encode (pdu : SoftSyncResponsePdu) : Except EncodeError Bytes := do
  pdu.validate
  return (Header.new 0 0 .softSyncResponse).encode ++ [0] ++ toLeBytes 4 pdu.tunnelsToSwitch.length ++
    u32s pdu.tunnelsToSwitch

def decode (header : Header) : Reader SoftSyncResponsePdu := do
  if header.cbId ≠ .u8 ∨ header.sp ≠ .u8 then
    Reader.fail (.invalidField "Header" "cbId and Sp must be zero")
  else
    Reader.ensureSize 5
    let pad ← Reader.readU8
    if pad ≠ 0 then Reader.fail (.invalidField "Pad" "must be zero")
    else
      let numberOfTunnels ← Reader.readU32
      if numberOfTunnels > (← Reader.remaining).length / 4 then
        Reader.fail (.invalidField "NumberOfTunnels" "does not fit in the remaining bytes")
      else
        let tunnelsToSwitch ← readU32s numberOfTunnels
        if ¬tunnelsToSwitch.Nodup then
          Reader.fail (.invalidField "TunnelsToSwitch" "contains a duplicate tunnel type")
        else if (← Reader.remaining) ≠ [] then
          Reader.fail (.invalidField "NumberOfTunnels" "does not match the remaining bytes")
        else return ⟨tunnelsToSwitch⟩

end SoftSyncResponsePdu

/-! ### Both directions -/

inductive DrdynvcClientPdu where
  | capabilities (pdu : CapabilitiesResponsePdu)
  | create (pdu : CreateResponsePdu)
  | close (pdu : ClosePdu)
  | data (pdu : DrdynvcDataPdu)
  | softSyncResponse (pdu : SoftSyncResponsePdu)
  deriving DecidableEq

inductive DrdynvcServerPdu where
  | capabilities (pdu : CapabilitiesRequestPdu)
  | create (pdu : CreateRequestPdu)
  | close (pdu : ClosePdu)
  | data (pdu : DrdynvcDataPdu)
  | softSyncRequest (pdu : SoftSyncRequestPdu)
  deriving DecidableEq

namespace DrdynvcClientPdu

def encode : DrdynvcClientPdu → Except EncodeError Bytes
  | capabilities pdu => .ok pdu.encode
  | create pdu => pdu.encode
  | close pdu => pdu.encode
  | data pdu => pdu.encode
  | softSyncResponse pdu => pdu.encode

def decode : Reader DrdynvcClientPdu := do
  let header ← Header.decode
  match header.cmd with
  | .create => return create (← CreateResponsePdu.decode header)
  | .dataFirst => return data (.dataFirst (← DataFirstPdu.decode header))
  | .data => return data (.data (← DataPdu.decode header))
  | .close => return close (← ClosePdu.decode header)
  | .capability => return capabilities (← CapabilitiesResponsePdu.decode header)
  | .softSyncResponse => return softSyncResponse (← SoftSyncResponsePdu.decode header)
  | cmd => Reader.fail (.unsupportedValue "Cmd" cmd.name)

end DrdynvcClientPdu

namespace DrdynvcServerPdu

def encode : DrdynvcServerPdu → Except EncodeError Bytes
  | capabilities pdu => .ok pdu.encode
  | create pdu => pdu.encode
  | close pdu => pdu.encode
  | data pdu => pdu.encode
  | softSyncRequest pdu => pdu.encode

def decode : Reader DrdynvcServerPdu := do
  let header ← Header.decode
  match header.cmd with
  | .create => return create (← CreateRequestPdu.decode header)
  | .dataFirst => return data (.dataFirst (← DataFirstPdu.decode header))
  | .data => return data (.data (← DataPdu.decode header))
  | .close => return close (← ClosePdu.decode header)
  | .capability => return capabilities (← CapabilitiesRequestPdu.decode header)
  | .softSyncRequest => return softSyncRequest (← SoftSyncRequestPdu.decode header)
  | cmd => Reader.fail (.unsupportedValue "Cmd" cmd.name)

end DrdynvcServerPdu

end Drift.Channel
