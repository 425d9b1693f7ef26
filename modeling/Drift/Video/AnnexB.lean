import Drift.Core.Geometry
import Drift.Video.Sps
import Mathlib.Data.List.DropRight

/-!
# H.264 byte streams

An Annex-B stream separates its NAL units by start codes, an AVCC sample prefixes each of them with its
length. `AccessUnit` takes one Annex-B access unit apart: the parameter sets and the AVCC sample of the
rest, without delimiters.
-/

namespace Drift.Video

namespace NalType

def idr : UInt8 := 5

def pps : UInt8 := 8

def aud : UInt8 := 9

end NalType

inductive AnnexBError where
  | empty
  | truncated (offset len : Nat)
  | tooLarge
  deriving DecidableEq

def AnnexBError.toString : AnnexBError → String
  | .empty => "no NAL units in access unit"
  | .truncated offset len => s!"AVCC NAL length {len} at offset {offset} exceeds buffer"
  | .tooLarge => "NAL unit too large"

/-! ### Annex-B -/

/-- The positions just after each `00 00 01`, the scan being at position `i`. -/
def startsFrom (i : Nat) : Bytes → List Nat
  | a :: b :: c :: rest =>
    if a = 0 ∧ b = 0 ∧ c = 1 then (i + 3) :: startsFrom (i + 3) rest
    else startsFrom (i + 1) (b :: c :: rest)
  | _ => []

/-- The NAL units that begin at the given positions. -/
def nalsAt (data : Bytes) : List Nat → List Bytes
  | [] => []
  | start :: starts =>
    -- The `00 00` of the next start code, and zero bytes before it, are not part of the unit.
    let stop := starts.head?.elim data.length (· - 3)
    let nal := ((data.take (max stop start)).drop start).rdropWhile (· = 0)
    if nal.isEmpty then nalsAt data starts else nal :: nalsAt data starts

def splitNals (data : Bytes) : List Bytes := nalsAt data (startsFrom 0 data)

def nalUnitType (nal : Bytes) : Option UInt8 := nal.head?.map (· &&& 0x1F)

/-! ### AVCC -/

/-- The four bytes of a 32-bit number, the highest first. -/
def toBeBytes (n : Nat) : Bytes :=
  [(n >>> 24).toUInt8, (n >>> 16).toUInt8, (n >>> 8).toUInt8, n.toUInt8]

def ofBeBytes (bytes : Bytes) : Nat := bytes.foldl (fun acc b => acc <<< 8 ||| b.toNat) 0

/-- The NAL units of what is left of a sample from `offset` on; every unit takes a byte of fuel. -/
def avccNalsFrom (lengthSize offset : Nat) (rest : Bytes) : Nat → Except AnnexBError (List Bytes)
  | 0 => .ok []
  | fuel + 1 =>
    if rest.isEmpty then .ok []
    else if rest.length < lengthSize then .error (.truncated offset lengthSize)
    else
      let len := ofBeBytes (rest.take lengthSize)
      let body := rest.drop lengthSize
      if body.length < len then .error (.truncated offset len)
      else
        (avccNalsFrom lengthSize (offset + lengthSize + len) (body.drop len) fuel).map
          (body.take len :: ·)

def avccNals (avcc : Bytes) (lengthSize : Nat) : Except AnnexBError (List Bytes) :=
  let lengthSize := if 1 ≤ lengthSize ∧ lengthSize ≤ 4 then lengthSize else 4
  avccNalsFrom lengthSize 0 avcc avcc.length

def avccToAnnexB (avcc : Bytes) (lengthSize : Nat) : Except AnnexBError Bytes :=
  (avccNals avcc lengthSize).map fun nals => nals.flatMap ([0, 0, 0, 1] ++ ·)

/-! ### Access units -/

structure AccessUnit where
  sps : List Bytes
  pps : List Bytes
  avcc : Bytes
  isIdr : Bool
  deriving DecidableEq

namespace AccessUnit

def default : AccessUnit := ⟨[], [], [], false⟩

def push (au : AccessUnit) (nal : Bytes) : Except AnnexBError AccessUnit :=
  let t := nalUnitType nal
  if t = some NalType.aud then .ok au
  else if t = some NalType.sps then .ok { au with sps := au.sps ++ [nal] }
  else if t = some NalType.pps then .ok { au with pps := au.pps ++ [nal] }
  else if nal.length < 2 ^ 32 then
    .ok { au with
      avcc := au.avcc ++ toBeBytes nal.length ++ nal
      isIdr := au.isIdr || t = some NalType.idr }
  else .error .tooLarge

def fromAnnexB (data : Bytes) : Except AnnexBError AccessUnit :=
  let nals := splitNals data
  if nals.isEmpty then .error .empty else nals.foldlM push default

def hasPicture (au : AccessUnit) : Bool := !au.avcc.isEmpty

end AccessUnit

end Drift.Video
