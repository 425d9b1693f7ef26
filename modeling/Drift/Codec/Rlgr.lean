import Drift.Core.Geometry
import Drift.Lib.Bits

/-!
# Entropy coding of tiles

Adaptive run lengths and Golomb-Rice codes of the coefficients of a tile. Both sides follow the parameters
of the other: the width of the codes of runs, and that of the codes of values.
-/

namespace Drift.Codec.Rlgr

def kpMax : Nat := 80

def lsGr : Nat := 3

def upGr : Nat := 4

def dnGr : Nat := 6

def uqGr : Nat := 3

def dqGr : Nat := 3

inductive EntropyAlgorithm where
  | rlgr1
  | rlgr3
  deriving DecidableEq

inductive RlgrError where
  | emptyTile
  | invalidIntegralConversion (what : String)
  | outputTooSmall (needed available : Nat)
  deriving DecidableEq

/-- `32 - value.leading_zeros()`. -/
def bitLength (value : Nat) : Nat := if value = 0 then 0 else Nat.log2 value + 1

/-! ### Writing bits -/

structure BitStream where
  bits : List Bool
  idx : Nat
  overflowed : Bool

namespace BitStream

def new (tile : Bytes) : BitStream := ⟨Bits.ofBytes tile, 0, false⟩

/-- Reserves room for the bits, and writes them if they fit. -/
def put (s : BitStream) (val : List Bool) : BitStream :=
  let stop := s.idx + val.length
  if stop ≤ s.bits.length then ⟨s.bits.take s.idx ++ val ++ s.bits.drop stop, stop, s.overflowed⟩
  else ⟨s.bits, stop, true⟩

def outputBit (s : BitStream) (count : Nat) (val : Bool) : BitStream := s.put (List.replicate count val)

def outputBits (s : BitStream) (numBits val : Nat) : BitStream := s.put (Bits.ofNat numBits val)

def len (s : BitStream) : Nat := (s.idx + 7) / 8

end BitStream

/-! ### Encoding -/

structure Encoder where
  k : Nat
  kp : Nat
  krp : Nat
  bits : BitStream

def get2magsign (val : Int) : Nat := val.natAbs * 2 - (if val < 0 then 1 else 0)

/-- What the parameter of the value codes becomes after a code with `vk` ones. -/
def nextKrp (krp vk : Nat) : Nat :=
  if vk = 0 then krp - 2 else if vk > 1 then min (krp + vk) kpMax else krp

def codeGr (e : Encoder) (val : Nat) : Encoder :=
  let kr := e.krp >>> lsGr
  let vk := val >>> kr
  let bits := (e.bits.outputBit vk true).outputBit 1 false
  let bits := if kr ≠ 0 then bits.outputBits kr (val &&& ((1 <<< kr) - 1)) else bits
  { e with bits, krp := nextKrp e.krp vk }

/-- Sets the parameter of the run codes. -/
def Encoder.setKp (e : Encoder) (kp : Nat) : Encoder := { e with kp, k := kp >>> lsGr }

/-- `while val == 0`: the zeros from the front of the input, after `nz` of them, then the value after them,
unless the run goes to the end, and the rest. -/
def takeRun (nz : Nat) : List Int → Nat × Option Int × List Int
  | [] => (nz, none, [])
  | val :: input => if val = 0 then takeRun (nz + 1) input else (nz, some val, input)

/-- `while nz >= runmax`, in at most `fuel` rounds; each takes at least one zero off. -/
def outputRuns : Nat → Encoder → Nat → Encoder × Nat
  | 0, e, nz => (e, nz)
  | fuel + 1, e, nz =>
    if nz ≥ 1 <<< e.k then
      outputRuns fuel ({ e with bits := e.bits.outputBit 1 false }.setKp (min (e.kp + upGr) kpMax))
        (nz - 1 <<< e.k)
    else (e, nz)

/-- The code of a run of zeros. -/
def outputRun (e : Encoder) (nz : Nat) : Encoder :=
  let (e, nz) := outputRuns nz e nz
  { e with bits := (e.bits.outputBit 1 true).outputBits e.k nz }

/-- The code of a value that ended a run. -/
def outputEnd (e : Encoder) (val : Int) : Encoder :=
  codeGr { e with bits := e.bits.outputBit 1 (val < 0) } (val.natAbs - 1)

def encodeRunLength (e : Encoder) (input : List Int) : Encoder × List Int :=
  let (nz, val, input) := takeRun 0 input
  let e := outputRun e nz
  let e :=
    match val with
    | some val => outputEnd e val
    | none => e
  (e.setKp (e.kp - dnGr), input)

/-- The parameter of the run codes after two values. -/
def nextKpPair (kp twoMs1 twoMs2 : Nat) : Nat :=
  if twoMs1 ≠ 0 ∧ twoMs2 ≠ 0 then kp - 2 * dqGr
  else if twoMs1 = 0 ∧ twoMs2 = 0 then min (kp + 2 * uqGr) kpMax
  else kp

/-- The parameter of the run codes after one value. -/
def nextKp (kp twoMs : Nat) : Nat := if twoMs = 0 then min (kp + uqGr) kpMax else kp - dqGr

def encodeGolombRice (mode : EntropyAlgorithm) (e : Encoder) (inputFirst : Int) (input : List Int) :
    Encoder × List Int :=
  match mode with
  | .rlgr1 =>
    let twoMs := get2magsign inputFirst
    let e := codeGr e twoMs
    (e.setKp (nextKp e.kp twoMs), input)
  | .rlgr3 =>
    let twoMs1 := get2magsign inputFirst
    let twoMs2 := (input.head?.map get2magsign).getD 0
    let sum2ms := twoMs1 + twoMs2
    let e := codeGr e sum2ms
    let m := bitLength sum2ms
    let e := if m ≠ 0 then { e with bits := e.bits.outputBits m twoMs1 } else e
    let e :=
      if (twoMs1 ≠ 0 ∧ twoMs2 ≠ 0) ∨ (twoMs1 = 0 ∧ twoMs2 = 0) then e.setKp (nextKpPair e.kp twoMs1 twoMs2)
      else e
    (e, input.tail)

/-- One round of the loop, over a value and those after it. -/
def encodeRound (mode : EntropyAlgorithm) (e : Encoder) (val : Int) (input : List Int) : Encoder × List Int :=
  if e.k ≠ 0 then encodeRunLength e (val :: input) else encodeGolombRice mode e val input

/-- `while input.peek().is_some()`, in at most `fuel` rounds; each takes at least one value. -/
def encodeFrom (mode : EntropyAlgorithm) : Nat → Encoder → List Int → Encoder
  | 0, e, _ => e
  | _ + 1, e, [] => e
  | fuel + 1, e, val :: input =>
    let (e, input) := encodeRound mode e val input
    encodeFrom mode fuel e input

/-- The parameters at the start of a tile. -/
def Encoder.new (tile : Bytes) : Encoder := ⟨1, 1 <<< lsGr, 1 <<< lsGr, .new tile⟩

/-- The length of the encoded tile, and the buffer with it. -/
def encode (mode : EntropyAlgorithm) (input : List Int) (tile : Bytes) : Except RlgrError (Nat × Bytes) :=
  if input = [] then .error .emptyTile
  else
    let e := encodeFrom mode input.length (.new tile) input
    if e.bits.overflowed then .error (.outputTooSmall e.bits.len tile.length)
    else .ok (e.bits.len, Bits.toBytes e.bits.bits tile.length)

/-! ### Decoding -/

/-- The state of the loop; of the output, what was written and how much room is left. -/
structure Decoder where
  bits : List Bool
  k : Nat
  kr : Nat
  kp : Nat
  krp : Nat
  written : List Int
  left : Nat

/-- How a round ends that is the last one. -/
inductive Halt where
  | broke (written : List Int) (left : Nat)
  | failed (e : RlgrError)

/-- `try_split_bits!`. -/
def trySplitBits (stop : Halt) (bits : List Bool) (n : Nat) : Except Halt (List Bool × List Bool) :=
  if bits.length < n then .error stop else .ok (bits.take n, bits.drop n)

/-- How many leading bits have the value, and the bits after them. -/
def truncateLeadingValue (bits : List Bool) (value : Bool) : Nat × List Bool :=
  let leadingValues := (bits.takeWhile (· = value)).length
  (leadingValues, bits.drop leadingValues)

/-- `write_byte!`. -/
def Decoder.writeByte (d : Decoder) (value : Int) : Except Halt Decoder :=
  if d.left = 0 then .error (.broke d.written 0)
  else .ok { d with written := d.written ++ [value], left := d.left - 1 }

def countRun : Nat → Nat → Nat → Nat → Nat × Nat × Nat
  | 0, k, kp, run => (run, k, kp)
  | numberOfZeros + 1, k, kp, run =>
    let next := min (kp + upGr) kpMax
    countRun numberOfZeros (next >>> lsGr) next (run + 1 <<< k)

/-- The new `kr` and `krp`. -/
def updateParameters (numberOfOnes kr krp : Nat) : Nat × Nat :=
  if numberOfOnes = 0 then ((krp - 2) >>> lsGr, krp - 2)
  else if numberOfOnes > 1 then (min (krp + numberOfOnes) kpMax >>> lsGr, min (krp + numberOfOnes) kpMax)
  else (kr, krp)

/-- The remainder that a Golomb-Rice code stands for, and the state after it. -/
def readCode (d : Decoder) : Except Halt (Nat × Decoder) := do
  let stop := Halt.broke d.written d.left
  let (numberOfOnes, bits) := truncateLeadingValue d.bits true
  let (_, bits) ← trySplitBits stop bits 1
  let (low, bits) ← trySplitBits stop bits d.kr
  let codeRemainder := Bits.toNat low + numberOfOnes <<< d.kr
  let (kr, krp) := updateParameters numberOfOnes d.kr d.krp
  return (codeRemainder, { d with bits, kr, krp })

/-- `i16::try_from` of a magnitude. -/
def toI16 (what : String) (magnitude : Nat) : Except Halt Int :=
  if magnitude ≤ 32767 then .ok magnitude else .error (.failed (.invalidIntegralConversion what))

def computeRlMagnitude (signBit : Nat) (codeRemainder : Nat) : Except Halt Int := do
  let rlMagnitude ← toI16 "code remainder + 1" (codeRemainder + 1)
  return if signBit ≠ 0 then -rlMagnitude else rlMagnitude

/-- The value of a doubled magnitude with its sign; the sum is one of `u32`. -/
def signedMagnitude (whatOdd whatEven : String) (val : Nat) : Except Halt Int :=
  if val % 2 ≠ 0 then (- ·) <$> toI16 whatOdd (((val + 1) % 2 ^ 32) >>> 1) else toI16 whatEven (val >>> 1)

def computeRlgr1Magnitude (codeRemainder : Nat) : Except Halt Int :=
  if codeRemainder = 0 then .ok 0
  else signedMagnitude "(code remainder + 1) >> 1" "code remainder >> 1" codeRemainder

def computeRlgr3Magnitude (val : Nat) : Except Halt Int := signedMagnitude "(val + 1) >> 1" "val >> 1" val

def Decoder.setKp (d : Decoder) (kp : Nat) : Decoder := { d with kp, k := kp >>> lsGr }

/-- The length of a run, and the state after its code. -/
def readRun (d : Decoder) : Except Halt (Nat × Decoder) := do
  let stop := Halt.broke d.written d.left
  let (numberOfZeros, bits) := truncateLeadingValue d.bits false
  let (_, bits) ← trySplitBits stop bits 1
  let (run, k, kp) := countRun numberOfZeros d.k d.kp 0
  let (low, bits) ← trySplitBits stop bits k
  return (run + Bits.toNat low, { d with bits, k, kp })

/-- `fill(&mut output[..size], 0)` for as much of the run as there is room. -/
def Decoder.fillRun (d : Decoder) (run : Nat) : Decoder :=
  let size := min run d.left
  { d with written := d.written ++ List.replicate size 0, left := d.left - size }

def decodeRunLength (d : Decoder) : Except Halt Decoder := do
  let (run, d) ← readRun d
  let (signBit, bits) ← trySplitBits (.broke d.written d.left) d.bits 1
  let (codeRemainder, d) ← readCode { d with bits }
  let d := d.setKp (d.kp - dnGr)
  let magnitude ← computeRlMagnitude (Bits.toNat signBit) codeRemainder
  (d.fillRun run).writeByte magnitude

/-- `code_remainder - val1` of `u32`. -/
def wrappingSub (a b : Nat) : Nat := (a + 2 ^ 32 - b) % 2 ^ 32

def decodeGolombRice (mode : EntropyAlgorithm) (d : Decoder) : Except Halt Decoder := do
  let stop := Halt.broke d.written d.left
  let (codeRemainder, d) ← readCode d
  match mode with
  | .rlgr1 =>
    let magnitude ← computeRlgr1Magnitude codeRemainder
    (d.setKp (nextKp d.kp codeRemainder)).writeByte magnitude
  | .rlgr3 =>
    let (val1, bits) ← trySplitBits stop d.bits (bitLength codeRemainder)
    let val1 := Bits.toNat val1
    let val2 := wrappingSub codeRemainder val1
    let d := { d with bits }
    let d :=
      if (val1 ≠ 0 ∧ val2 ≠ 0) ∨ (val1 = 0 ∧ val2 = 0) then d.setKp (nextKpPair d.kp val1 val2) else d
    let magnitude ← computeRlgr3Magnitude val1
    let d ← d.writeByte magnitude
    let magnitude ← computeRlgr3Magnitude val2
    d.writeByte magnitude

/-- One round of the loop. -/
def decodeRound (mode : EntropyAlgorithm) (d : Decoder) : Except Halt Decoder :=
  if d.k ≠ 0 then decodeRunLength d else decodeGolombRice mode d

/-- `while !bits.is_empty() && !output.is_empty()`, in at most `fuel` rounds; each takes at least one bit.
What is left of the output is filled with zeros. -/
def decodeFrom (mode : EntropyAlgorithm) : Nat → Decoder → Except RlgrError (List Int)
  | 0, d => .ok (d.written ++ List.replicate d.left 0)
  | fuel + 1, d =>
    if d.bits ≠ [] ∧ d.left ≠ 0 then
      match decodeRound mode d with
      | .ok d => decodeFrom mode fuel d
      | .error (.broke written left) => .ok (written ++ List.replicate left 0)
      | .error (.failed e) => .error e
    else .ok (d.written ++ List.replicate d.left 0)

/-- The output of the given length. -/
def decode (mode : EntropyAlgorithm) (tile : Bytes) (length : Nat) : Except RlgrError (List Int) :=
  if tile = [] then .error .emptyTile
  else
    let bits := Bits.ofBytes tile
    decodeFrom mode bits.length ⟨bits, 1, 1, 1 <<< lsGr, 1 <<< lsGr, [], length⟩

end Drift.Codec.Rlgr
