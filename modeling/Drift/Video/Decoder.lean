import Drift.Lib.Transition
import Drift.Video.AnnexB

/-!
# The H.264 decoder

Access units go to a decompression session, which is bound to one pair of parameter sets and built anew when
they change. VideoToolbox and CoreMedia are a parameter of every call, as they may answer each one
differently.
-/

namespace Drift.Video

/-! ### Parameter sets -/

structure ParameterSets where
  sps : Bytes
  pps : Bytes
  deriving DecidableEq

inductive ParamDecision where
  | keep
  | rebuild (sets : ParameterSets)
  | notReady

structure ParameterSetTracker where
  active : Option ParameterSets

namespace ParameterSetTracker

def new : ParameterSetTracker := ⟨none⟩

/-- Decides whether the session can be kept for an access unit; a new pair becomes active. -/
def observe (t : ParameterSetTracker) (au : AccessUnit) : ParameterSetTracker × ParamDecision :=
  if au.sps.isEmpty && au.pps.isEmpty then (t, if t.active.isSome then .keep else .notReady)
  else
    match au.sps.getLast?.or (t.active.map (·.sps)), au.pps.getLast?.or (t.active.map (·.pps)) with
    | some sps, some pps =>
      if t.active = some ⟨sps, pps⟩ then (t, .keep) else (⟨some ⟨sps, pps⟩⟩, .rebuild ⟨sps, pps⟩)
    | _, _ => (t, .notReady)

end ParameterSetTracker

/-! ### Sessions -/

structure DecodeError where
  message : String
  deriving DecidableEq

def SpsError.toString : SpsError → String
  | .notSps => "not an SPS NAL unit"
  | .malformed => "malformed SPS"

/-- A call of the system that answers with a status. -/
def checkStatus (call : String) (status : Int) : Except DecodeError Unit :=
  if status = 0 then .ok () else .error ⟨call ++ ": OSStatus " ++ status.repr⟩

def nonNull {α : Type} (null : String) : Option α → Except DecodeError α
  | none => .error ⟨null⟩
  | some a => .ok a

/-- How the decoding of one sample goes: the status, whether the frame was dropped, and the calls of the
output callback, each with a status and maybe an image. -/
structure DecodedFrame (Image : Type) where
  status : Int
  dropped : Bool
  outputs : List (Int × Option Image)

/-- What VideoToolbox and CoreMedia answer during one call of the decoder. -/
structure VideoToolbox (Format Handle Sample Image : Type) where
  formatFromParameterSets : (sps pps : Bytes) → Int × Option Format
  createSession : Format → Int × Option Handle
  createBlock : Bytes → Int × Option Unit
  replaceData : Bytes → Int
  createSample : Bytes → Format → Int × Option Sample
  decodeFrame : Handle → Sample → DecodedFrame Image

/-- One decompression session bound to one format description. -/
structure DecoderSession (Format Handle : Type) where
  handle : Handle
  format : Format

variable {Format Handle Sample Image : Type} (vt : VideoToolbox Format Handle Sample Image)

def formatDescription (sets : ParameterSets) : Except DecodeError Format := do
  let sps ← (withBt709FullRange sets.sps).mapError fun e => ⟨"SPS: " ++ e.toString⟩
  if sets.pps.isEmpty then throw ⟨"empty PPS"⟩
  let created := vt.formatFromParameterSets sps sets.pps
  checkStatus "CMVideoFormatDescriptionCreateFromH264ParameterSets" created.1
  nonNull "null format description" created.2

def buildSession (sets : ParameterSets) : Except DecodeError (DecoderSession Format Handle) := do
  let format ← formatDescription vt sets
  let created := vt.createSession format
  checkStatus "VTDecompressionSessionCreate" created.1
  let handle ← nonNull "VTDecompressionSessionCreate returned null" created.2
  return ⟨handle, format⟩

def makeSample (avcc : Bytes) (format : Format) : Except DecodeError Sample := do
  let block := vt.createBlock avcc
  checkStatus "CMBlockBufferCreateWithMemoryBlock" block.1
  nonNull "null block buffer" block.2
  checkStatus "CMBlockBufferReplaceDataBytes" (vt.replaceData avcc)
  let sample := vt.createSample avcc format
  checkStatus "CMSampleBufferCreateReady" sample.1
  nonNull "null sample buffer" sample.2

def outputCallback : Int × Option Image → Except Int Image
  | (status, some image) => if status = 0 then .ok image else .error status
  | (status, none) => .error (if status = 0 then -1 else status)

/-! ### The decoder -/

structure VtDecoder (Format Handle Image : Type) where
  tracker : ParameterSetTracker
  session : Option (DecoderSession Format Handle)
  builds : Nat
  slot : Option (Except Int Image)

/-- What is seen of a call: the sessions that are built, those that cannot be, and the branches of the code
for a session that is not there. -/
inductive DecoderEvent (Format Handle : Type) where
  | built (sets : ParameterSets) (session : DecoderSession Format Handle)
  | failed (sets : ParameterSets) (error : DecodeError)
  | keptNothing
  | noSession

/-- A computation of the decoder. -/
structure Decoding (Format Handle Image α : Type) where
  decoder : VtDecoder Format Handle Image
  events : List (DecoderEvent Format Handle)
  result : Except DecodeError α

namespace VtDecoder

variable (d : VtDecoder Format Handle Image)

def new : VtDecoder Format Handle Image := ⟨.new, none, 0, none⟩

def rebuild (sets : ParameterSets) : Decoding Format Handle Image Unit :=
  match buildSession vt sets with
  | .ok session =>
    ⟨{ d with session := some session, builds := d.builds + 1 }, [.built sets session], .ok ()⟩
  | .error e => ⟨{ d with session := none, tracker := .new }, [.failed sets e], .error e⟩

/-- Follows the parameter sets of an access unit; the result says whether it can be decoded. -/
def prepare (au : AccessUnit) : Decoding Format Handle Image Bool :=
  let observed := d.tracker.observe au
  let d := { d with tracker := observed.1 }
  match observed.2 with
  | .notReady => ⟨d, [], .ok false⟩
  | .keep =>
    if d.session.isSome then ⟨d, [], .ok true⟩
    else
      match d.tracker.active with
      | none => ⟨d, [.keptNothing], .ok false⟩
      | some sets =>
        let rebuilt := d.rebuild vt sets
        ⟨rebuilt.decoder, .keptNothing :: rebuilt.events, rebuilt.result.map fun _ => true⟩
  | .rebuild sets =>
    let rebuilt := d.rebuild vt sets
    ⟨rebuilt.decoder, rebuilt.events, rebuilt.result.map fun _ => true⟩

def decodeSample (session : DecoderSession Format Handle) (avcc : Bytes) :
    VtDecoder Format Handle Image × Except DecodeError (Option Image) :=
  match makeSample vt avcc session.format with
  | .error e => (d, .error e)
  | .ok sample =>
    let frame := vt.decodeFrame session.handle sample
    let slot := frame.outputs.getLast?.map outputCallback
    if frame.status ≠ 0 then
      ({ d with slot := slot },
        .error ⟨"VTDecompressionSessionDecodeFrame: OSStatus " ++ frame.status.repr⟩)
    else
      ({ d with slot := none },
        match slot with
        | some (.ok image) => .ok (some image)
        | some (.error status) =>
          .error ⟨"VideoToolbox decode callback: OSStatus " ++ status.repr⟩
        | none =>
          if frame.dropped then .ok none else .error ⟨"VideoToolbox produced no picture"⟩)

def decodePicture (annexB : Bytes) : Decoding Format Handle Image (Option Image) :=
  match AccessUnit.fromAnnexB annexB with
  | .error e => ⟨d, [], .error ⟨e.toString⟩⟩
  | .ok au =>
    let prepared := d.prepare vt au
    match prepared.result with
    | .error e => ⟨prepared.decoder, prepared.events, .error e⟩
    | .ok ready =>
      if !ready || !au.hasPicture then ⟨prepared.decoder, prepared.events, .ok none⟩
      else
        match prepared.decoder.session with
        | none => ⟨prepared.decoder, prepared.events ++ [.noSession], .ok none⟩
        | some session =>
          let decoded := prepared.decoder.decodeSample vt session au.avcc
          ⟨decoded.1, prepared.events, decoded.2⟩

def reset : VtDecoder Format Handle Image := { d with session := none, tracker := .new, slot := none }

end VtDecoder

inductive DecoderCall where
  | decode (annexB : Bytes)
  | reset

/-- The decoder as a machine, every call with what the system answers to it. -/
def VtDecoder.step (d : VtDecoder Format Handle Image) :
    VideoToolbox Format Handle Sample Image × DecoderCall →
      VtDecoder Format Handle Image × List (DecoderEvent Format Handle)
  | (vt, .decode annexB) => let decoding := d.decodePicture vt annexB; (decoding.decoder, decoding.events)
  | (_, .reset) => (d.reset, [])

end Drift.Video
