import Drift.Lib.Table
import Drift.Zgfx.Tokens
import Mathlib.Data.List.Infix

/-!
# The compressor

A greedy coder over a sliding window. A table finds the positions of the window at which three given bytes
stand; it is indexed as bytes are added, shifted as they are dropped, and thinned out when it grows large.
-/

namespace Drift.Zgfx

def minMatchLength : Nat := 3

def maxMatchLength : Nat := 65535

def maxMatchDistance : Nat := 2097152

def maxCandidates : Nat := 16

def maxPositionsPerPrefix : Nat := 32

def maxHashTableEntries : Nat := 50000

def compactTargetEntries : Nat := maxHashTableEntries / 2

/-! ### Bits -/

structure BitWriter where
  bytes : Bytes
  currentByte : UInt8
  bitsInCurrent : Nat

namespace BitWriter

def new : BitWriter := ⟨[], 0, 0⟩

def writeBit (w : BitWriter) (bit : Bool) : BitWriter :=
  let currentByte := if bit then w.currentByte ||| ((1 : UInt8) <<< (7 - w.bitsInCurrent).toUInt8) else w.currentByte
  let bitsInCurrent := w.bitsInCurrent + 1
  if bitsInCurrent = 8 then ⟨w.bytes ++ [currentByte], 0, 0⟩
  else ⟨w.bytes, currentByte, bitsInCurrent⟩

/-- The low `numBits` bits of `value`, from the highest of them. -/
def writeBits (w : BitWriter) (value : Nat) : Nat → BitWriter
  | 0 => w
  | numBits + 1 => (w.writeBit ((value >>> numBits) &&& 1 = 1)).writeBits value numBits

def writeBitsFromSlice (w : BitWriter) (bits : List Bool) : BitWriter := bits.foldl writeBit w

/-- The last byte says how many bits of the one before it are unused. -/
def finish (w : BitWriter) : Bytes :=
  let unusedBits := if w.bitsInCurrent = 0 then 0 else 8 - w.bitsInCurrent
  let bytes := if w.bitsInCurrent > 0 then w.bytes ++ [w.currentByte] else w.bytes
  bytes ++ [unusedBits.toUInt8]

end BitWriter

/-! ### The window and its table -/

structure MatchEntry where
  threeBytes : Bytes
  positions : List Nat
  deriving DecidableEq

structure Compressor where
  history : Bytes
  /-- Three bytes to their positions in the history. -/
  matchTable : List MatchEntry

/-- `[history[pos], history[pos + 1], history[pos + 2]]`. -/
def threeBytesAt (history : Bytes) (pos : Nat) : Bytes := (history.drop pos).take 3

/-- `match_table.entry(prefix).or_default()`, changed by `f`. -/
def updateEntry (table : List MatchEntry) (threeBytes : Bytes) (f : List Nat → List Nat) :
    List MatchEntry :=
  let positions := ((Table.lookup MatchEntry.threeBytes table threeBytes).map MatchEntry.positions).getD []
  Table.put MatchEntry.threeBytes ⟨threeBytes, f positions⟩ table

namespace Compressor

def new : Compressor := ⟨[], []⟩

def retainUsed (table : List MatchEntry) : List MatchEntry :=
  table.filter fun e => !e.positions.isEmpty

/-- Drops the oldest bytes, and the positions of those from the table. -/
def evict (c : Compressor) (overflow : Nat) : Compressor where
  history := c.history.drop overflow
  matchTable := retainUsed (c.matchTable.map fun e =>
    { e with positions := (e.positions.filter (overflow ≤ ·)).map (· - overflow) })

/-- Adds a position; of a full entry the oldest one goes. -/
def pushPosition (pos : Nat) (positions : List Nat) : List Nat :=
  if positions.length < maxPositionsPerPrefix then positions ++ [pos]
  else positions.drop 1 ++ [pos]

/-- `(0..len.saturating_sub(2)).step_by(step)`. -/
def indexed (length step : Nat) : List Nat :=
  (List.range ((length - (minMatchLength - 1) + (step - 1)) / step)).map (· * step)

def indexAt (history : Bytes) (table : List MatchEntry) (pos : Nat) : List MatchEntry :=
  updateEntry table (threeBytesAt history pos) (pushPosition pos)

/-- The halves of the entries, as they are now, that were added last. -/
def halveEntries (table : List MatchEntry) : List MatchEntry :=
  retainUsed (table.map fun e =>
    if e.positions.length > maxPositionsPerPrefix / 2 then
      { e with positions := e.positions.drop (e.positions.length - maxPositionsPerPrefix / 2) }
    else e)

def newestOf (e : MatchEntry) : Nat := e.positions.getLast?.getD 0

/-- Halves the entries, and of too many entries keeps those that were seen last. -/
def compactHashTable (table : List MatchEntry) : List MatchEntry :=
  let table := halveEntries table
  if table.length ≤ compactTargetEntries then table
  else
    let newest := table.map newestOf
    let cutoffIndex := newest.length - compactTargetEntries
    let cutoff := (newest.mergeSort (· ≤ ·)).getD cutoffIndex 0
    table.filter fun e => e.positions.getLast?.any (cutoff ≤ ·)

/-- Indexes a position that spans the old and the new bytes. -/
def indexBoundary (history : Bytes) (basePos length : Nat) (table : List MatchEntry) (offset : Nat) :
    List MatchEntry :=
  if basePos ≥ offset ∧ length + offset > 2 then
    let pos := basePos - offset
    if pos + minMatchLength ≤ history.length then
      updateEntry table (threeBytesAt history pos) fun positions =>
        if positions.getLast? ≠ some pos then
          (if positions.length ≥ maxPositionsPerPrefix then positions.drop 1 else positions) ++ [pos]
        else positions
    else table
  else table

/-- Drops as many of the oldest bytes as the new ones need room. -/
def makeRoom (c : Compressor) (length : Nat) : Compressor :=
  if c.history.length + length > historySize then c.evict (c.history.length + length - historySize) else c

/-- The table with the positions of new bytes, all of them or, of many, every fourth. -/
def indexNew (c : Compressor) (bytes : Bytes) : List MatchEntry :=
  let stepSize := if bytes.length > 256 then 4 else 1
  (indexed bytes.length stepSize).foldl
    (fun table i => indexAt (c.history ++ bytes) table (c.history.length + i)) c.matchTable

def thinOut (table : List MatchEntry) : List MatchEntry :=
  if table.length > maxHashTableEntries then compactHashTable table else table

def addToHistory (c : Compressor) (bytes : Bytes) : Compressor :=
  let c := c.makeRoom bytes.length
  let history := c.history ++ bytes
  ⟨history, [2, 1].foldl (indexBoundary history c.history.length bytes.length) (thinOut (c.indexNew bytes))⟩

/-! ### Matches -/

structure Match where
  distance : Nat
  length : Nat
  deriving DecidableEq

/-- `while match_len < max_match_len && ..`, in at most `fuel` rounds. -/
def extendMatch (history input : Bytes) (histPos pos maxMatchLen : Nat) : Nat → Nat → Nat
  | 0, matchLen => matchLen
  | fuel + 1, matchLen =>
    if matchLen < maxMatchLen ∧ histPos + matchLen < history.length ∧
        history[histPos + matchLen]? = input[pos + matchLen]? then
      extendMatch history input histPos pos maxMatchLen fuel (matchLen + 1)
    else matchLen

/-- The longest match of the candidates, up to the first that is good enough. -/
def bestOf (history input : Bytes) (pos maxMatchLen searchLimit : Nat) :
    List Nat → Option Match → Option Match
  | [], best => best
  | histPos :: candidates, best =>
    let distance := history.length - histPos
    if distance > searchLimit then bestOf history input pos maxMatchLen searchLimit candidates best
    else
      let matchLen := extendMatch history input histPos pos maxMatchLen maxMatchLen minMatchLength
      let best := if best.all (matchLen > ·.length) then some ⟨distance, matchLen⟩ else best
      if matchLen ≥ 32 then best
      else bestOf history input pos maxMatchLen searchLimit candidates best

def findBestMatch (c : Compressor) (input : Bytes) (pos : Nat) : Option Match :=
  let remaining := input.length - pos
  if remaining < minMatchLength ∨ c.history = [] then none
  else
    match Table.lookup MatchEntry.threeBytes c.matchTable (threeBytesAt input pos) with
    | none => none
    | some entry =>
      bestOf c.history input pos (min remaining maxMatchLength) (min c.history.length maxMatchDistance)
        (entry.positions.reverse.take maxCandidates) none

structure MatchToken where
  tokenPrefix : List Bool
  distanceValueSize : Nat
  distanceBase : Nat
  deriving DecidableEq

def matchTokenOf (token : Token) : Option MatchToken :=
  match token.ty with
  | .match distanceValueSize distanceBase => some ⟨token.tokenPrefix, distanceValueSize, distanceBase⟩
  | _ => none

/-- The first token whose distances go far enough, or else the last token. -/
def findMatchToken (distance : Nat) : MatchToken :=
  let tokens := (tokenTable.drop 26).filterMap matchTokenOf
  (tokens.find? fun t => distance ≤ t.distanceBase + 2 ^ t.distanceValueSize - 1).getD
    (tokens.getLastD ⟨[], 0, 0⟩)

def findLiteralToken (byte : UInt8) : Option Token :=
  ((tokenTable.take 26).drop 1).find? fun token => token.ty = .literal byte

def encodeLiteral (w : BitWriter) (byte : UInt8) : BitWriter :=
  match findLiteralToken byte with
  | some token => w.writeBitsFromSlice token.tokenPrefix
  | none => (w.writeBit false).writeBits byte.toNat 8

def encodeMatchLength (w : BitWriter) (length : Nat) : BitWriter :=
  if length = 3 then w.writeBit false
  else
    let lengthTokenSize := Nat.log2 length - 1
    let value := length - 2 ^ (lengthTokenSize + 1)
    (((List.replicate lengthTokenSize true).foldl BitWriter.writeBit w).writeBit false).writeBits value
      (lengthTokenSize + 1)

def encodeMatch (w : BitWriter) (distance length : Nat) : BitWriter :=
  let matchToken := findMatchToken distance
  encodeMatchLength
    ((w.writeBitsFromSlice matchToken.tokenPrefix).writeBits (distance - matchToken.distanceBase)
      matchToken.distanceValueSize)
    length

/-- `while pos < input.len()`, in at most `fuel` rounds; each of them takes at least one byte. -/
def compressFrom (input : Bytes) : Nat → Compressor → BitWriter → Nat → Compressor × BitWriter
  | 0, c, w, _ => (c, w)
  | fuel + 1, c, w, pos =>
    if pos < input.length then
      match (c.findBestMatch input pos).filter (·.length ≥ minMatchLength) with
      | some m =>
        compressFrom input fuel (c.addToHistory ((input.drop pos).take m.length))
          (encodeMatch w m.distance m.length) (pos + m.length)
      | none =>
        let byte := input.getD pos 0
        compressFrom input fuel (c.addToHistory [byte]) (encodeLiteral w byte) (pos + 1)
    else (c, w)

def compress (c : Compressor) (input : Bytes) : Compressor × Bytes :=
  let (c, w) := compressFrom input input.length c .new 0
  (c, w.finish)

end Compressor

end Drift.Zgfx
