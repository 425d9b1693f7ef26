import Drift.Lib.Lz77
import Drift.Lib.PrefixCode
import Drift.Zgfx.Decompressor
import Drift.Zgfx.Proof.BitWriter
import Drift.Zgfx.Proof.CircularBuffer
import Mathlib.Data.Nat.Log

/-!
# Tokens are read as they were written

The code words are free of prefixes and the distances of the match tokens adjoin, so that every token that
the compressor writes is read back, whatever follows it.
-/

namespace Drift.Zgfx

open BitWriter (Written)

/-! ### What is written -/

def literalBits (byte : UInt8) : List Bool :=
  match Compressor.findLiteralToken byte with
  | some token => token.tokenPrefix
  | none => false :: Bits.ofNat 8 byte.toNat

def matchLengthBits (length : Nat) : List Bool :=
  if length = 3 then [false]
  else List.replicate (Nat.log2 length - 1) true ++
    false :: Bits.ofNat (Nat.log2 length - 1 + 1) (length - 2 ^ (Nat.log2 length - 1 + 1))

def matchBits (distance length : Nat) : List Bool :=
  (Compressor.findMatchToken distance).tokenPrefix ++
    Bits.ofNat (Compressor.findMatchToken distance).distanceValueSize
      (distance - (Compressor.findMatchToken distance).distanceBase) ++
    matchLengthBits length

def tokenBits : Lz77.Token UInt8 → List Bool
  | .literal byte => literalBits byte
  | .copy distance length => matchBits distance length

theorem written_encodeLiteral {w : BitWriter} {bs : List Bool} (h : Written w bs) (byte : UInt8) :
    Written (Compressor.encodeLiteral w byte) (bs ++ literalBits byte) := by
  unfold Compressor.encodeLiteral literalBits
  cases Compressor.findLiteralToken byte with
  | some token => exact h.writeBitsFromSlice _
  | none =>
      have hvalue := (h.writeBit false).writeBits byte.toNat 8
      rwa [List.append_assoc] at hvalue

theorem written_encodeMatchLength {w : BitWriter} {bs : List Bool} (h : Written w bs) (length : Nat) :
    Written (Compressor.encodeMatchLength w length) (bs ++ matchLengthBits length) := by
  unfold Compressor.encodeMatchLength matchLengthBits
  by_cases hthree : length = 3
  · rw [if_pos hthree, if_pos hthree]
    exact h.writeBit false
  · rw [if_neg hthree, if_neg hthree]
    have hvalue := ((h.writeBitsFromSlice (List.replicate (Nat.log2 length - 1) true)).writeBit
      false).writeBits (length - 2 ^ (Nat.log2 length - 1 + 1)) (Nat.log2 length - 1 + 1)
    rwa [List.append_assoc, List.append_assoc] at hvalue

theorem written_encodeMatch {w : BitWriter} {bs : List Bool} (h : Written w bs) (distance length : Nat) :
    Written (Compressor.encodeMatch w distance length) (bs ++ matchBits distance length) := by
  have hdistance := (h.writeBitsFromSlice (Compressor.findMatchToken distance).tokenPrefix).writeBits
    (distance - (Compressor.findMatchToken distance).distanceBase)
    (Compressor.findMatchToken distance).distanceValueSize
  have hlength := written_encodeMatchLength hdistance length
  rwa [List.append_assoc, List.append_assoc, ← List.append_assoc _ _ (matchLengthBits length)] at hlength

/-! ### What is read -/

theorem tokenTable_free : PrefixCode.Free Token.tokenPrefix tokenTable := by decide

/-- A code word of the table is recognised, whatever follows it. -/
theorem find?_token {token : Token} (h : token ∈ tokenTable) (rest : List Bool) :
    tokenTable.find? (fun t => t.tokenPrefix.isPrefixOf (token.tokenPrefix ++ rest)) = some token :=
  PrefixCode.find?_append tokenTable_free h rest

theorem splitTo_append (taken rest : List Bool) (r : Nat) :
    (BitsLeft.mk (taken ++ rest) r).splitTo taken.length =
      (taken, ⟨rest, (r + taken.length) % 8⟩) := by
  unfold BitsLeft.splitTo
  rw [List.take_left, List.drop_left]

theorem trySplitTo_append {taken : List Bool} {n : Nat} (h : taken.length = n) (rest : List Bool) (r : Nat) :
    (BitsLeft.mk (taken ++ rest) r).trySplitTo n = .ok (taken, ⟨rest, (r + n) % 8⟩) := by
  have hfits : ¬ n > (taken ++ rest).length := by
    rw [List.length_append]
    omega
  unfold BitsLeft.trySplitTo
  rw [if_neg hfits, ← h, splitTo_append]

/-- Each of the distances starts where the one before it ends. -/
def Adjoin : Nat → List Compressor.MatchToken → Prop
  | _, [] => True
  | start, t :: tokens => t.distanceBase = start ∧ Adjoin (start + 2 ^ t.distanceValueSize) tokens

def endOf : Nat → List Compressor.MatchToken → Nat
  | start, [] => start
  | start, t :: tokens => endOf (start + 2 ^ t.distanceValueSize) tokens

theorem find?_adjoin {start distance : Nat} {tokens : List Compressor.MatchToken}
    (hadjoin : Adjoin start tokens) (hstart : start ≤ distance) (hend : distance < endOf start tokens) :
    ∃ t ∈ tokens, (tokens.find? fun t => distance ≤ t.distanceBase + 2 ^ t.distanceValueSize - 1) = some t ∧
      t.distanceBase ≤ distance ∧ distance - t.distanceBase < 2 ^ t.distanceValueSize := by
  induction tokens generalizing start with
  | nil => exact absurd hend (Nat.not_lt.mpr hstart)
  | cons t tokens ih =>
      obtain ⟨hbase, hrest⟩ := hadjoin
      have hpos : 0 < 2 ^ t.distanceValueSize := Nat.two_pow_pos _
      by_cases hhere : distance ≤ t.distanceBase + 2 ^ t.distanceValueSize - 1
      · refine ⟨t, List.mem_cons_self, List.find?_cons_of_pos (by simpa using hhere), ?_, ?_⟩
        · omega
        · omega
      · obtain ⟨u, hu, hfind, hu'⟩ := ih hrest (by omega) hend
        refine ⟨u, List.mem_cons_of_mem t hu, ?_, hu'⟩
        rw [List.find?_cons_of_neg (by simpa using hhere)]
        exact hfind

def matchTokens : List Compressor.MatchToken := (tokenTable.drop 26).filterMap Compressor.matchTokenOf

theorem adjoin_matchTokens : Adjoin 0 matchTokens := by
  simp [matchTokens, tokenTable, Compressor.matchTokenOf, Adjoin]

theorem endOf_matchTokens : maxMatchDistance < endOf 0 matchTokens := by
  simp [matchTokens, tokenTable, Compressor.matchTokenOf, endOf, maxMatchDistance]

/-- The token of a distance covers it. -/
theorem findMatchToken_spec {distance : Nat} (h : distance ≤ maxMatchDistance) :
    ∃ token ∈ tokenTable, token.tokenPrefix = (Compressor.findMatchToken distance).tokenPrefix ∧
      token.ty = .match (Compressor.findMatchToken distance).distanceValueSize
        (Compressor.findMatchToken distance).distanceBase ∧
      (Compressor.findMatchToken distance).distanceBase ≤ distance ∧
      distance - (Compressor.findMatchToken distance).distanceBase <
        2 ^ (Compressor.findMatchToken distance).distanceValueSize := by
  obtain ⟨t, ht, hfind, hbase, hvalue⟩ :=
    find?_adjoin adjoin_matchTokens (Nat.zero_le distance) (Nat.lt_of_le_of_lt h endOf_matchTokens)
  have heq : Compressor.findMatchToken distance = t := by
    change (List.find? _ matchTokens).getD _ = t
    rw [hfind]
    rfl
  obtain ⟨token, htoken, hof⟩ := List.mem_filterMap.mp ht
  rw [heq]
  refine ⟨token, List.mem_of_mem_drop htoken, ?_⟩
  unfold Compressor.matchTokenOf at hof
  cases hty : token.ty with
  | «match» size base =>
      rw [hty] at hof
      cases hof
      exact ⟨rfl, rfl, hbase, hvalue⟩
  | nullLiteral => simp [hty] at hof
  | literal value => simp [hty] at hof

/-! ### Tokens one by one -/

theorem findLiteralToken_spec {byte : UInt8} {token : Token}
    (h : Compressor.findLiteralToken byte = some token) : token ∈ tokenTable ∧ token.ty = .literal byte := by
  have hmem := List.mem_of_find?_eq_some h
  refine ⟨List.mem_of_mem_take (List.mem_of_mem_drop hmem), ?_⟩
  simpa using List.find?_some h

/-- With a code word of the table in front, the round is about that token. -/
theorem handleToken_append {token : Token} (h : token ∈ tokenTable) (rest : List Bool) (r : Nat)
    (t : Target) (bytesWritten : Nat) :
    handleToken ⟨token.tokenPrefix ++ rest, r⟩ t bytesWritten =
      match token.ty with
      | .nullLiteral => do
        let (value, bits) ← (BitsLeft.mk rest ((r + token.tokenPrefix.length) % 8)).trySplitTo 8
        return (bits, t.write [(Bits.toNat value).toUInt8], 1)
      | .literal literalValue =>
        .ok (⟨rest, (r + token.tokenPrefix.length) % 8⟩, t.write [literalValue], 1)
      | .match distanceValueSize distanceBase =>
        if bytesWritten > maxDecompressedPerSegment then
          .error (.segmentDecompressedSizeExceedsLimit bytesWritten maxDecompressedPerSegment)
        else
          handleMatch ⟨rest, (r + token.tokenPrefix.length) % 8⟩ distanceValueSize distanceBase t
            (maxDecompressedPerSegment - bytesWritten) := by
  unfold handleToken
  simp only
  rw [find?_token h rest]
  simp only
  rw [splitTo_append]
  cases token.ty with
  | nullLiteral => rfl
  | literal value => rfl
  | «match» size base =>
      simp only
      by_cases hlimit : bytesWritten > maxDecompressedPerSegment
      · rw [if_pos hlimit, if_pos hlimit]
        rfl
      · rw [if_neg hlimit, if_neg hlimit]

theorem handleToken_literal (byte : UInt8) (rest : List Bool) (r : Nat) (t : Target) (bytesWritten : Nat) :
    ∃ r', handleToken ⟨literalBits byte ++ rest, r⟩ t bytesWritten =
      .ok (⟨rest, r'⟩, t.write [byte], 1) := by
  unfold literalBits
  cases hfind : Compressor.findLiteralToken byte with
  | some token =>
      obtain ⟨hmem, hty⟩ := findLiteralToken_spec hfind
      refine ⟨(r + token.tokenPrefix.length) % 8, ?_⟩
      rw [handleToken_append hmem, hty]
  | none =>
      have hmem : (⟨bits [0], .nullLiteral⟩ : Token) ∈ tokenTable := List.mem_cons_self
      have hvalue : (Bits.toNat (Bits.ofNat 8 byte.toNat)).toUInt8 = byte := by
        rw [Bits.toNat_ofNat, Nat.mod_eq_of_lt byte.toNat_lt]
        exact UInt8.ofNat_toNat
      have hround := handleToken_append hmem (Bits.ofNat 8 byte.toNat ++ rest) r t bytesWritten
      simp only at hround
      rw [trySplitTo_append (Bits.length_ofNat 8 byte.toNat)] at hround
      refine ⟨((r + 1) % 8 + 8) % 8, hround.trans ?_⟩
      change Except.ok (_, t.write [(Bits.toNat (Bits.ofNat 8 byte.toNat)).toUInt8], 1) = _
      rw [hvalue]
      rfl

/-! ### Matches -/

theorem leadingOnes_append (k : Nat) (rest : List Bool) (r : Nat) :
    (BitsLeft.mk (List.replicate k true ++ false :: rest) r).leadingOnes = k := by
  unfold BitsLeft.leadingOnes
  induction k with
  | zero => rfl
  | succ k ih =>
      rw [List.replicate_succ, List.cons_append, List.takeWhile_cons_of_pos (by decide), List.length_cons, ih]

/-- The length of a match is read back. -/
theorem readMatchLength_append {length : Nat} (hmin : 3 ≤ length) (hmax : length ≤ maxMatchLength)
    (rest : List Bool) (r : Nat) :
    ∃ r', readMatchLength ⟨matchLengthBits length ++ rest, r⟩ = .ok (length, ⟨rest, r'⟩) := by
  unfold matchLengthBits readMatchLength
  by_cases hthree : length = 3
  · rw [if_pos hthree]
    refine ⟨(r + 1) % 8, ?_⟩
    have hones := leadingOnes_append 0 rest r
    have hsplit := trySplitTo_append (List.length_singleton : [false].length = 1) rest r
    rw [List.replicate_zero, List.nil_append] at hones
    simp only [List.cons_append, List.nil_append] at hsplit ⊢
    rw [hones, hsplit, hthree]
    rfl
  · rw [if_neg hthree]
    have hne : length ≠ 0 := by omega
    have hlog : 2 ≤ Nat.log2 length := (Nat.le_log2 hne).mpr (by omega)
    have hsmall : Nat.log2 length < 16 := (Nat.log2_lt hne).mpr (Nat.lt_of_le_of_lt hmax (by decide))
    have hlow : 2 ^ Nat.log2 length ≤ length := Nat.log2_self_le hne
    have hhigh : length < 2 ^ (Nat.log2 length + 1) := Nat.lt_log2_self
    have hbits : Nat.log2 length - 1 + 1 = Nat.log2 length := by omega
    have hvalue : Bits.toNat (Bits.ofNat (Nat.log2 length) (length - 2 ^ Nat.log2 length)) =
        length - 2 ^ Nat.log2 length := by
      rw [Bits.toNat_ofNat, Nat.mod_eq_of_lt]
      rw [Nat.pow_succ] at hhigh
      omega
    have hones := leadingOnes_append (Nat.log2 length - 1)
      (Bits.ofNat (Nat.log2 length) (length - 2 ^ Nat.log2 length) ++ rest) r
    have hwidth : (List.replicate (Nat.log2 length - 1) true ++ [false]).length = Nat.log2 length := by
      rw [List.length_append, List.length_replicate, List.length_singleton, hbits]
    have hprefix := trySplitTo_append hwidth
      (Bits.ofNat (Nat.log2 length) (length - 2 ^ Nat.log2 length) ++ rest) r
    have hsuffix := trySplitTo_append
      (Bits.length_ofNat (Nat.log2 length) (length - 2 ^ Nat.log2 length)) rest ((r + Nat.log2 length) % 8)
    rw [List.append_assoc, List.singleton_append] at hprefix
    refine ⟨((r + Nat.log2 length) % 8 + Nat.log2 length) % 8, ?_⟩
    rw [hbits, List.append_assoc, List.cons_append]
    simp only
    rw [hones, hbits, hprefix]
    change (if Nat.log2 length - 1 = 0 then _ else _) = _
    rw [if_neg (by omega)]
    rw [if_neg (by omega)]
    rw [hsuffix]
    change Except.ok (2 ^ Nat.log2 length + Bits.toNat _, _) = _
    rw [hvalue, Nat.add_sub_cancel' hlow]

/-- A token that reaches into the window writes there and to the output what it adds to the history. -/
def Target.Holds (t : Target) (history : Bytes) : Prop :=
  t.history.contents = Lz77.window historySize history ∧ t.history.buffer.length = historySize

theorem Target.Holds.write {t : Target} {history : Bytes} (h : t.Holds history) (bytes : Bytes) :
    (t.write bytes).Holds (history ++ bytes) := by
  refine ⟨?_, (FixedCircularBuffer.length_buffer_writeAll _ _).trans h.2⟩
  change (t.history.writeAll bytes).contents = _
  rw [FixedCircularBuffer.contents_writeAll, h.1, h.2, Lz77.window_append_window]

theorem readEncodedBytes_append {distance length maxRemaining : Nat} {t : Target} (hpos : 0 < distance)
    (hle : distance ≤ t.history.buffer.length) (hmin : 3 ≤ length) (hmax : length ≤ maxMatchLength)
    (hroom : length ≤ maxRemaining) (rest : List Bool) (r : Nat) :
    ∃ r', readEncodedBytes ⟨matchLengthBits length ++ rest, r⟩ distance t maxRemaining =
      .ok (⟨rest, r'⟩, t.write (Lz77.cycle (Lz77.window distance t.history.contents) length), length) := by
  obtain ⟨r', hlength⟩ := readMatchLength_append hmin hmax rest r
  refine ⟨r', ?_⟩
  unfold readEncodedBytes
  rw [hlength]
  change (if length > maxRemaining then _ else _) = _
  rw [if_neg (by omega), FixedCircularBuffer.readWithOffset_eq _ hpos hle]
  change Except.ok (BitsLeft.mk rest r',
    Target.mk (t.history.writeAll ((t.output ++ _).drop t.output.length)) (t.output ++ _), length) = _
  rw [List.drop_left]
  rfl

theorem handleToken_copy {distance length : Nat} {history : Bytes} {t : Target} {bytesWritten : Nat}
    (hholds : t.Holds history) (hreach : Lz77.Reaches maxMatchDistance history (.copy distance length))
    (hmin : 3 ≤ length) (hmax : length ≤ maxMatchLength)
    (hlimit : bytesWritten + length ≤ maxDecompressedPerSegment) (rest : List Bool) (r : Nat) :
    ∃ r', handleToken ⟨matchBits distance length ++ rest, r⟩ t bytesWritten =
      .ok (⟨rest, r'⟩, t.write (Lz77.added history (.copy distance length)), length) := by
  obtain ⟨token, hmem, hprefix, hty, hbase, hvalue⟩ := findMatchToken_spec hreach.2.1
  have hnear : distance ≤ historySize := Nat.le_trans hreach.2.1 (by decide)
  have hadded : Lz77.added history (.copy distance length) =
      Lz77.cycle (Lz77.window distance t.history.contents) length := by
    rw [hholds.1, Lz77.window_window hnear]
    rfl
  unfold matchBits
  generalize Compressor.findMatchToken distance = mt at hprefix hty hbase hvalue
  have hround := handleToken_append hmem
    (Bits.ofNat mt.distanceValueSize (distance - mt.distanceBase) ++ (matchLengthBits length ++ rest)) r t
    bytesWritten
  have hdistance : mt.distanceBase + Bits.toNat (Bits.ofNat mt.distanceValueSize
      (distance - mt.distanceBase)) = distance := by
    rw [Bits.toNat_ofNat, Nat.mod_eq_of_lt hvalue, Nat.add_sub_cancel' hbase]
  rw [hty, hprefix, ← List.append_assoc, ← List.append_assoc] at hround
  simp only at hround
  rw [if_neg (by omega)] at hround
  have hroom : length ≤ maxDecompressedPerSegment - bytesWritten := by omega
  obtain ⟨r', hread⟩ := readEncodedBytes_append (t := t) hreach.1 (hholds.2 ▸ hnear) hmin hmax hroom rest
    (((r + mt.tokenPrefix.length) % 8 + mt.distanceValueSize) % 8)
  refine ⟨r', hround.trans ?_⟩
  unfold handleMatch
  rw [trySplitTo_append (Bits.length_ofNat _ _)]
  change (if mt.distanceBase + Bits.toNat _ > u32Max then _ else _) = _
  rw [hdistance, if_neg (Nat.not_lt.mpr (Nat.le_trans hnear (by decide))),
    if_neg (Nat.pos_iff_ne_zero.mp hreach.1), if_neg (Nat.not_lt.mpr hnear), hread, hadded]

/-! ### Segments -/

/-- The lengths that the stream has codes for. -/
def Sized : Lz77.Token UInt8 → Prop
  | .literal _ => True
  | .copy _ length => 3 ≤ length ∧ length ≤ maxMatchLength

theorem tokenBits_ne_nil (token : Lz77.Token UInt8) : tokenBits token ≠ [] := by
  cases token with
  | literal byte =>
      have htable : ∀ token ∈ tokenTable, token.tokenPrefix ≠ [] := by decide
      change literalBits byte ≠ []
      unfold literalBits
      cases hfind : Compressor.findLiteralToken byte with
      | some token => exact htable token (findLiteralToken_spec hfind).1
      | none => exact List.cons_ne_nil _ _
  | copy distance length =>
      change matchBits distance length ≠ []
      unfold matchBits matchLengthBits
      intro hnil
      have hlength := (List.append_eq_nil_iff.mp hnil).2
      by_cases hthree : length = 3
      · rw [if_pos hthree] at hlength
        exact List.cons_ne_nil _ _ hlength
      · rw [if_neg hthree] at hlength
        exact List.cons_ne_nil _ _ (List.append_eq_nil_iff.mp hlength).2

theorem handleToken_tokenBits {token : Lz77.Token UInt8} {history : Bytes} {t : Target}
    {bytesWritten : Nat} (hholds : t.Holds history) (hreach : Lz77.Reaches maxMatchDistance history token)
    (hsized : Sized token)
    (hlimit : bytesWritten + (Lz77.added history token).length ≤ maxDecompressedPerSegment)
    (rest : List Bool) (r : Nat) :
    ∃ r', handleToken ⟨tokenBits token ++ rest, r⟩ t bytesWritten =
      .ok (⟨rest, r'⟩, t.write (Lz77.added history token), (Lz77.added history token).length) := by
  cases token with
  | literal byte => exact handleToken_literal byte rest r t bytesWritten
  | copy distance length =>
      rw [Lz77.length_added length hreach] at hlimit ⊢
      exact handleToken_copy hholds hreach hsized.1 hsized.2 hlimit rest r

/-- The bits of valid tokens are decoded to what the tokens add. -/
theorem decodeTokens_tokenBits {tokens : List (Lz77.Token UInt8)} {history bytes : Bytes} {t : Target}
    {bytesWritten fuel : Nat} (hholds : t.Holds history)
    (hvalid : Lz77.Valid maxMatchDistance history tokens) (hsized : ∀ token ∈ tokens, Sized token)
    (hexpand : Lz77.expand history tokens = history ++ bytes)
    (hlimit : bytesWritten + bytes.length ≤ maxDecompressedPerSegment)
    (hfuel : (tokens.flatMap tokenBits).length ≤ fuel) (r : Nat) :
    ∃ t', decodeTokens fuel ⟨tokens.flatMap tokenBits, r⟩ t bytesWritten =
        (.ok (bytesWritten + bytes.length), t') ∧
      t'.output = t.output ++ bytes ∧ t'.Holds (history ++ bytes) := by
  induction tokens generalizing history bytes t bytesWritten fuel r with
  | nil =>
      have hnil : bytes = [] := List.self_eq_append_right.mp hexpand
      refine ⟨t, ?_, ?_, ?_⟩
      · rw [hnil]
        cases fuel with
        | zero => rfl
        | succ fuel => exact if_pos rfl
      · rw [hnil, List.append_nil]
      · rw [hnil, List.append_nil]
        exact hholds
  | cons token tokens ih =>
      obtain ⟨hreach, hrest⟩ := hvalid
      rw [Lz77.step_eq_append hreach] at hrest
      obtain ⟨later, hlater⟩ := hrest.exists_append
      have hbytes : bytes = Lz77.added history token ++ later := by
        rw [Lz77.expand_cons, Lz77.step_eq_append hreach, hlater, List.append_assoc] at hexpand
        exact (List.append_cancel_left hexpand).symm
      rw [hbytes, List.length_append] at hlimit
      have hne := tokenBits_ne_nil token
      have hpos : 0 < (tokenBits token).length := List.length_pos_iff.mpr hne
      rw [List.flatMap_cons, List.length_append] at hfuel
      cases fuel with
      | zero => omega
      | succ fuel =>
          have hfirst : bytesWritten + (Lz77.added history token).length ≤ maxDecompressedPerSegment := by omega
          have hafter : bytesWritten + (Lz77.added history token).length + later.length ≤
              maxDecompressedPerSegment := by omega
          have hfuel' : (tokens.flatMap tokenBits).length ≤ fuel := by omega
          obtain ⟨r', hround⟩ := handleToken_tokenBits hholds hreach (hsized token List.mem_cons_self) hfirst
            (tokens.flatMap tokenBits) r
          obtain ⟨t', hdecode, houtput, hholds'⟩ := ih (hholds.write (Lz77.added history token)) hrest
            (fun other hother => hsized other (List.mem_cons_of_mem token hother)) hlater hafter hfuel' r'
          have hmore : tokenBits token ++ tokens.flatMap tokenBits ≠ [] := by
            intro hnil
            exact hne (List.append_eq_nil_iff.mp hnil).1
          refine ⟨t', ?_, ?_, ?_⟩
          · rw [List.flatMap_cons]
            unfold decodeTokens
            simp only
            rw [if_neg hmore, hround]
            simp only
            rw [if_neg (by omega), hdecode, hbytes, List.length_append, Nat.add_assoc]
          · rw [houtput, hbytes, ← List.append_assoc]
            rfl
          · rw [hbytes, ← List.append_assoc]
            exact hholds'

end Drift.Zgfx
