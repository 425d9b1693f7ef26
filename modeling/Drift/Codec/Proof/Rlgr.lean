import Drift.Codec.Rlgr

/-!
# Tiles are decoded as they were encoded

A round of the decoder takes just the bits that the round of the encoder wrote, returns its coefficients,
and leaves the same parameters, whatever follows. Only the last round of a tile may end early: a run to the
end has no value after it, and the unused bits of the last byte are too few to make one that counts.
-/

namespace Drift.Codec.Rlgr

/-! ### Writing -/

/-- The stream over the tile holds just these bits, as far as they fit. -/
structure Emitted (tile : List Bool) (s : BitStream) (bs : List Bool) : Prop where
  idx : s.idx = bs.length
  length : s.bits.length = tile.length
  fits : bs.length ≤ tile.length → s.overflowed = false ∧ s.bits = bs ++ tile.drop bs.length
  overflows : tile.length < bs.length → s.overflowed = true

theorem emitted_new (tile : Bytes) : Emitted (Bits.ofBytes tile) (.new tile) [] where
  idx := rfl
  length := rfl
  fits _ := ⟨rfl, rfl⟩
  overflows h := absurd h (Nat.not_lt_zero _)

theorem Emitted.put {tile : List Bool} {s : BitStream} {bs : List Bool} (h : Emitted tile s bs)
    (val : List Bool) : Emitted tile (s.put val) (bs ++ val) := by
  have hidx := h.idx
  have hlength := h.length
  unfold BitStream.put
  simp only
  by_cases hfits : s.idx + val.length ≤ s.bits.length
  · rw [if_pos hfits]
    obtain ⟨hoverflowed, hbits⟩ := h.fits (by omega)
    have htake : s.bits.take s.idx = bs := by rw [hbits, hidx, List.take_left]
    have hdrop : s.bits.drop (s.idx + val.length) = tile.drop (bs ++ val).length := by
      rw [hbits, hidx, ← List.drop_drop, List.drop_left, List.drop_drop, List.length_append]
    refine ⟨?_, ?_, fun _ => ⟨hoverflowed, ?_⟩, fun hlong => ?_⟩
    · change s.idx + val.length = _
      rw [hidx, List.length_append]
    · change (s.bits.take s.idx ++ val ++ s.bits.drop (s.idx + val.length)).length = _
      rw [List.length_append, List.length_append, htake, List.length_drop]
      omega
    · change s.bits.take s.idx ++ val ++ s.bits.drop (s.idx + val.length) = _
      rw [htake, hdrop]
    · rw [List.length_append] at hlong
      omega
  · rw [if_neg hfits]
    refine ⟨?_, hlength, fun hshort => ?_, fun _ => rfl⟩
    · change s.idx + val.length = _
      rw [hidx, List.length_append]
    · rw [List.length_append] at hshort
      omega

theorem Emitted.outputBit {tile : List Bool} {s : BitStream} {bs : List Bool} (h : Emitted tile s bs)
    (count : Nat) (val : Bool) : Emitted tile (s.outputBit count val) (bs ++ List.replicate count val) :=
  h.put _

theorem Emitted.outputBits {tile : List Bool} {s : BitStream} {bs : List Bool} (h : Emitted tile s bs)
    (numBits val : Nat) : Emitted tile (s.outputBits numBits val) (bs ++ Bits.ofNat numBits val) := h.put _

/-! ### Golomb-Rice codes -/

/-- A code of the given width. -/
def codeBits (kr val : Nat) : List Bool :=
  List.replicate (val >>> kr) true ++ false :: Bits.ofNat kr (val % 2 ^ kr)

theorem emitted_codeGr {tile : List Bool} {e : Encoder} {bs : List Bool} (h : Emitted tile e.bits bs)
    (val : Nat) : Emitted tile (codeGr e val).bits (bs ++ codeBits (e.krp >>> lsGr) val) := by
  have hones := (h.outputBit (val >>> (e.krp >>> lsGr)) true).outputBit 1 false
  have hmask : val &&& ((1 <<< (e.krp >>> lsGr)) - 1) = val % 2 ^ (e.krp >>> lsGr) := by
    rw [Nat.one_shiftLeft, Nat.and_two_pow_sub_one_eq_mod]
  unfold codeGr codeBits
  simp only
  by_cases hwidth : e.krp >>> lsGr ≠ 0
  · rw [if_pos hwidth, hmask]
    have hlow := hones.outputBits (e.krp >>> lsGr) (val % 2 ^ (e.krp >>> lsGr))
    rwa [List.append_assoc, List.append_assoc] at hlow
  · rw [if_neg hwidth]
    rw [not_not] at hwidth
    rw [hwidth] at hones ⊢
    rwa [List.append_assoc] at hones

theorem length_takeWhile_replicate (n : Nat) (value : Bool) (rest : List Bool) :
    ((List.replicate n value ++ (!value) :: rest).takeWhile (· = value)).length = n := by
  induction n with
  | zero => cases value <;> rfl
  | succ n ih =>
      rw [List.replicate_succ, List.cons_append, List.takeWhile_cons_of_pos (by simp), List.length_cons, ih]

theorem truncateLeadingValue_append (n : Nat) (value : Bool) (rest : List Bool) :
    truncateLeadingValue (List.replicate n value ++ (!value) :: rest) value = (n, (!value) :: rest) := by
  unfold truncateLeadingValue
  simp only
  rw [length_takeWhile_replicate, List.drop_left' (List.length_replicate)]

theorem trySplitBits_append (stop : Halt) {taken : List Bool} {n : Nat} (h : taken.length = n)
    (rest : List Bool) : trySplitBits stop (taken ++ rest) n = .ok (taken, rest) := by
  unfold trySplitBits
  rw [if_neg (by rw [List.length_append]; omega), ← h, List.take_left, List.drop_left]

theorem trySplitBits_cons (stop : Halt) (bit : Bool) (rest : List Bool) :
    trySplitBits stop (bit :: rest) 1 = .ok ([bit], rest) :=
  trySplitBits_append stop (List.length_singleton : [bit].length = 1) rest

theorem updateParameters_eq (numberOfOnes : Nat) {kr krp : Nat} (h : kr = krp >>> lsGr) :
    updateParameters numberOfOnes kr krp = (nextKrp krp numberOfOnes >>> lsGr, nextKrp krp numberOfOnes) := by
  unfold updateParameters nextKrp
  by_cases hnone : numberOfOnes = 0
  · rw [if_pos hnone, if_pos hnone]
  · rw [if_neg hnone, if_neg hnone]
    by_cases hmany : numberOfOnes > 1
    · rw [if_pos hmany, if_pos hmany]
    · rw [if_neg hmany, if_neg hmany, h]

/-- The parameters of the decoder are those of the encoder. -/
structure Follows (d : Decoder) (e : Encoder) : Prop where
  k : d.k = e.kp >>> lsGr
  kr : d.kr = e.krp >>> lsGr
  kp : d.kp = e.kp
  krp : d.krp = e.krp

theorem ok_bind {α β : Type} (a : α) (f : α → Except Halt β) : (Except.ok a >>= f) = f a := rfl

/-- A code is read back, and both sides go on with the same width. -/
theorem readCode_append {d : Decoder} {e : Encoder} (h : Follows d e) {val : Nat} {more : List Bool}
    (hbits : d.bits = codeBits (e.krp >>> lsGr) val ++ more) :
    readCode d = .ok (val, { d with
      bits := more, kr := (codeGr e val).krp >>> lsGr, krp := (codeGr e val).krp }) := by
  have hlow : Bits.toNat (Bits.ofNat (e.krp >>> lsGr) (val % 2 ^ (e.krp >>> lsGr))) =
      val % 2 ^ (e.krp >>> lsGr) := by
    rw [Bits.toNat_ofNat, Nat.mod_mod]
  have hval : ∀ kr, val % 2 ^ kr + (val >>> kr) <<< kr = val := by
    intro kr
    rw [Nat.shiftLeft_eq, Nat.shiftRight_eq_div_pow, Nat.mul_comm, Nat.mod_add_div]
  have hupdate := updateParameters_eq (val >>> (e.krp >>> lsGr)) h.kr
  have htruncate := truncateLeadingValue_append (val >>> (e.krp >>> lsGr)) true
    (Bits.ofNat (e.krp >>> lsGr) (val % 2 ^ (e.krp >>> lsGr)) ++ more)
  rw [Bool.not_true] at htruncate
  unfold codeBits at hbits
  rw [List.append_assoc, List.cons_append] at hbits
  unfold readCode
  rw [hbits, htruncate]
  simp only
  rw [trySplitBits_cons, ok_bind]
  simp only
  rw [trySplitBits_append _ ((Bits.length_ofNat _ _).trans h.kr.symm), ok_bind]
  simp only
  rw [hlow, h.krp, hupdate, h.kr, hval]
  rfl

/-! ### Runs -/

/-- The parameters of an encoder go together. -/
def Encoder.Tuned (e : Encoder) : Prop := e.k = e.kp >>> lsGr

theorem Encoder.tuned_setKp (e : Encoder) (kp : Nat) : (e.setKp kp).Tuned := rfl

/-- What the rounds over a long run write, and how the decoder counts them. -/
theorem outputRuns_spec {tile : List Bool} {fuel nz : Nat} {e : Encoder} {bs : List Bool} (htuned : e.Tuned)
    (h : Emitted tile e.bits bs) (hfuel : nz ≤ fuel) :
    ∃ j, Emitted tile (outputRuns fuel e nz).1.bits (bs ++ List.replicate j false) ∧
      (outputRuns fuel e nz).1.Tuned ∧ (outputRuns fuel e nz).1.krp = e.krp ∧
      (outputRuns fuel e nz).2 < 2 ^ (outputRuns fuel e nz).1.k ∧ (outputRuns fuel e nz).2 ≤ nz ∧
      ∀ run, countRun j e.k e.kp run =
        (run + (nz - (outputRuns fuel e nz).2), (outputRuns fuel e nz).1.k, (outputRuns fuel e nz).1.kp) := by
  induction fuel generalizing e nz bs with
  | zero =>
      have hzero : nz = 0 := Nat.le_zero.mp hfuel
      subst hzero
      exact ⟨0, by rwa [List.replicate_zero, List.append_nil], htuned, rfl, Nat.two_pow_pos _, Nat.le_refl _,
        fun run => rfl⟩
  | succ fuel ih =>
      unfold outputRuns
      rw [Nat.one_shiftLeft]
      by_cases hlong : nz ≥ 2 ^ e.k
      · rw [if_pos hlong]
        have hpos : 0 < 2 ^ e.k := Nat.two_pow_pos _
        have hfuel' : nz - 2 ^ e.k ≤ fuel := by omega
        obtain ⟨j, hemitted, htuned', hkrp, hlt, hle, hcount⟩ := ih
          (e := Encoder.setKp { e with bits := e.bits.outputBit 1 false } (min (e.kp + upGr) kpMax))
          (Encoder.tuned_setKp _ _) (h.outputBit 1 false) hfuel'
        refine ⟨j + 1, ?_, htuned', hkrp, hlt, by omega, fun run => ?_⟩
        · rw [List.append_assoc, List.replicate_append_replicate, Nat.add_comm 1 j] at hemitted
          exact hemitted
        · rw [countRun, Nat.one_shiftLeft]
          refine (hcount (run + 2 ^ e.k)).trans ?_
          congr 1
          omega
      · rw [if_neg hlong]
        exact ⟨0, by rwa [List.replicate_zero, List.append_nil], htuned, rfl, Nat.lt_of_not_le hlong,
          Nat.le_refl _, fun run => by rw [countRun, Nat.sub_self, Nat.add_zero]⟩

/-- The code of a run is read back. -/
theorem outputRun_spec {tile : List Bool} {e : Encoder} {bs : List Bool} (htuned : e.Tuned)
    (h : Emitted tile e.bits bs) (nz : Nat) :
    ∃ code, Emitted tile (outputRun e nz).bits (bs ++ code) ∧ code ≠ [] ∧ (outputRun e nz).Tuned ∧
      (outputRun e nz).krp = e.krp ∧
      ∀ d more, Follows d e → d.bits = code ++ more →
        readRun d = .ok (nz, { d with bits := more, k := (outputRun e nz).k, kp := (outputRun e nz).kp }) := by
  obtain ⟨j, hemitted, htuned', hkrp, hlt, hle, hcount⟩ := outputRuns_spec htuned h (Nat.le_refl nz)
  unfold outputRun
  generalize outputRuns nz e nz = out at hemitted htuned' hkrp hlt hle hcount ⊢
  obtain ⟨e', nz'⟩ := out
  simp only at hemitted htuned' hkrp hlt hle hcount ⊢
  have hcode := (hemitted.outputBit 1 true).outputBits e'.k nz'
  rw [List.append_assoc, List.append_assoc] at hcode
  refine ⟨_, hcode, ?_, htuned', hkrp, fun d more hfollows hbits => ?_⟩
  · simp
  · have htruncate := truncateLeadingValue_append j false (Bits.ofNat e'.k nz' ++ more)
    rw [Bool.not_false] at htruncate
    have hstart : d.bits = List.replicate j false ++ true :: (Bits.ofNat e'.k nz' ++ more) := by
      rw [hbits, List.append_assoc, List.append_assoc]
      rfl
    unfold readRun
    rw [hstart, htruncate]
    simp only
    rw [trySplitBits_cons, ok_bind]
    simp only
    rw [hfollows.k, ← htuned, hfollows.kp, hcount, Nat.zero_add]
    simp only
    rw [trySplitBits_append _ (Bits.length_ofNat _ _), ok_bind]
    simp only
    rw [Bits.toNat_ofNat, Nat.mod_eq_of_lt hlt, Nat.sub_add_cancel hle]
    rfl

theorem takeRun_spec (nz : Nat) (input : List Int) :
    (takeRun nz input = (nz + input.length, none, []) ∧ input = List.replicate input.length 0) ∨
      ∃ zeros val rest, takeRun nz input = (nz + zeros, some val, rest) ∧ val ≠ 0 ∧
        input = List.replicate zeros 0 ++ val :: rest := by
  induction input generalizing nz with
  | nil => exact .inl ⟨rfl, rfl⟩
  | cons a input ih =>
      unfold takeRun
      by_cases ha : a = 0
      · subst ha
        rw [if_pos rfl]
        rcases ih (nz + 1) with ⟨htake, hinput⟩ | ⟨zeros, val, rest, htake, hval, hinput⟩
        · refine .inl ⟨?_, ?_⟩
          · rw [htake, List.length_cons]
            congr 1
            omega
          · rw [List.length_cons, List.replicate_succ, ← hinput]
        · refine .inr ⟨zeros + 1, val, rest, ?_, hval, ?_⟩
          · rw [htake]
            congr 1
            omega
          · rw [List.replicate_succ, List.cons_append, ← hinput]
      · rw [if_neg ha]
        exact .inr ⟨0, a, input, rfl, ha, rfl⟩

/-! ### Rounds -/

/-- The decoder after a round that took a code and returned some values. -/
structure Decoded (d : Decoder) (e' : Encoder) (more : List Bool) (values : List Int) (d' : Decoder) : Prop where
  follows : Follows d' e'
  bits : d'.bits = more
  written : d'.written = d.written ++ values
  left : d'.left + values.length = d.left

/-- Wherever the code stands, a round takes it for the values. -/
def Codes (round : Decoder → Except Halt Decoder) (e e' : Encoder) (code : List Bool) (values : List Int) : Prop :=
  ∀ d more, Follows d e → d.bits = code ++ more → values.length ≤ d.left →
    ∃ d', round d = .ok d' ∧ Decoded d e' more values d'

/-- At the end of a tile, a round takes the code for the values, which fill the output. -/
def Ends (round : Decoder → Except Halt Decoder) (e : Encoder) (code : List Bool) (values : List Int) : Prop :=
  ∀ d more, Follows d e → d.bits = code ++ more → more.length ≤ 7 → d.left = values.length →
    ∃ w n, round d = .error (.broke w n) ∧ w ++ List.replicate n 0 = d.written ++ values

/-- `i16` without its least value, whose magnitude is not one. -/
def InRange (val : Int) : Prop := -32767 ≤ val ∧ val ≤ 32767

theorem toI16_of_le {magnitude : Nat} (h : magnitude ≤ 32767) (what : String) :
    toI16 what magnitude = .ok (magnitude : Int) := if_pos h

theorem computeRlMagnitude_eq {val : Int} (hval : val ≠ 0) (hrange : InRange val) :
    computeRlMagnitude (Bits.toNat [decide (val < 0)]) (val.natAbs - 1) = .ok val := by
  obtain ⟨hlow, hhigh⟩ := hrange
  have hmagnitude : val.natAbs - 1 + 1 = val.natAbs := by omega
  unfold computeRlMagnitude
  rw [hmagnitude, toI16_of_le (by omega), ok_bind]
  by_cases hneg : val < 0
  · have hbit : Bits.toNat [decide (val < 0)] = 1 := by
      rw [decide_eq_true hneg]
      rfl
    rw [hbit, if_pos (by decide)]
    exact congrArg Except.ok (by omega)
  · have hbit : Bits.toNat [decide (val < 0)] = 0 := by
      rw [decide_eq_false hneg]
      rfl
    rw [hbit, if_neg (by decide)]
    exact congrArg Except.ok (by omega)

theorem decoded_writeByte {d d₁ : Decoder} {e' : Encoder} {more : List Bool} {values : List Int}
    (h : Decoded d e' more values d₁) (hroom : values.length + 1 ≤ d.left) (val : Int) :
    ∃ d', d₁.writeByte val = .ok d' ∧ Decoded d e' more (values ++ [val]) d' := by
  have hleft := h.left
  refine ⟨{ d₁ with written := d₁.written ++ [val], left := d₁.left - 1 }, if_neg (by omega), ?_⟩
  refine ⟨⟨h.follows.k, h.follows.kr, h.follows.kp, h.follows.krp⟩, h.bits, ?_, ?_⟩
  · change d₁.written ++ [val] = _
    rw [h.written, List.append_assoc]
  · change d₁.left - 1 + _ = _
    rw [List.length_append, List.length_singleton]
    omega

/-- The code of a run and the value that ends it. -/
theorem codes_runLength {tile : List Bool} {e : Encoder} {bs : List Bool} (htuned : e.Tuned)
    (h : Emitted tile e.bits bs) (zeros : Nat) {val : Int} (hval : val ≠ 0) (hrange : InRange val) :
    ∃ code, Emitted tile (outputEnd (outputRun e zeros) val).bits (bs ++ code) ∧ code ≠ [] ∧
      Codes decodeRunLength e
        ((outputEnd (outputRun e zeros) val).setKp ((outputEnd (outputRun e zeros) val).kp - dnGr)) code
        (List.replicate zeros 0 ++ [val]) := by
  obtain ⟨run, hrun, hne, htuned', hkrp, hread⟩ := outputRun_spec htuned h zeros
  generalize outputRun e zeros = e₁ at hrun htuned' hkrp hread ⊢
  have hsign := hrun.outputBit 1 (decide (val < 0))
  have hcode := emitted_codeGr (e := { e₁ with bits := e₁.bits.outputBit 1 (val < 0) }) hsign (val.natAbs - 1)
  rw [List.append_assoc, List.append_assoc] at hcode
  refine ⟨_, hcode, by simp [hne], fun d more hfollows hbits hroom => ?_⟩
  rw [List.length_append, List.length_replicate, List.length_singleton] at hroom
  rw [List.append_assoc] at hbits
  unfold decodeRunLength
  rw [hread d _ hfollows hbits, ok_bind]
  simp only
  rw [List.append_assoc, List.replicate_one, List.singleton_append, trySplitBits_cons, ok_bind]
  simp only
  have hfollows₁ : Follows
      { d with bits := codeBits (e₁.krp >>> lsGr) (val.natAbs - 1) ++ more, k := e₁.k, kp := e₁.kp }
      { e₁ with bits := e₁.bits.outputBit 1 (val < 0) } :=
    ⟨htuned', by rw [hkrp]; exact hfollows.kr, rfl, by rw [hkrp]; exact hfollows.krp⟩
  rw [readCode_append hfollows₁ rfl, ok_bind]
  simp only
  rw [computeRlMagnitude_eq hval hrange, ok_bind]
  apply decoded_writeByte
  · refine ⟨⟨rfl, rfl, rfl, rfl⟩, rfl, ?_, ?_⟩
    · change d.written ++ List.replicate (min zeros d.left) 0 = _
      rw [Nat.min_eq_left (by omega)]
    · change d.left - min zeros d.left + _ = _
      rw [List.length_replicate, Nat.min_eq_left (by omega)]
      omega
  · rw [List.length_replicate]
    exact hroom

theorem length_truncateLeadingValue (bits : List Bool) (value : Bool) :
    (truncateLeadingValue bits value).1 + (truncateLeadingValue bits value).2.length = bits.length := by
  have hle := (List.takeWhile_prefix (p := (· = value)) (l := bits)).length_le
  unfold truncateLeadingValue
  simp only
  rw [List.length_drop]
  omega

theorem trySplitBits_cases (stop : Halt) (bits : List Bool) (n : Nat) :
    trySplitBits stop bits n = .error stop ∨
      n ≤ bits.length ∧ trySplitBits stop bits n = .ok (bits.take n, bits.drop n) := by
  unfold trySplitBits
  by_cases hshort : bits.length < n
  · rw [if_pos hshort]
    exact .inl rfl
  · rw [if_neg hshort]
    exact .inr ⟨Nat.le_of_not_lt hshort, rfl⟩

theorem error_bind {α β : Type} (stop : Halt) (f : α → Except Halt β) :
    ((Except.error stop : Except Halt α) >>= f) = .error stop := rfl

/-- A code of few bits stands for a small value. -/
theorem readCode_cases (d : Decoder) :
    readCode d = .error (.broke d.written d.left) ∨
      ∃ val d', readCode d = .ok (val, d') ∧ val < 2 ^ d.bits.length ∧ d'.written = d.written ∧
        d'.left = d.left := by
  have hlength := length_truncateLeadingValue d.bits true
  unfold readCode
  simp only
  generalize truncateLeadingValue d.bits true = out at hlength ⊢
  obtain ⟨ones, bits⟩ := out
  simp only at hlength ⊢
  rcases trySplitBits_cases (.broke d.written d.left) bits 1 with hstop | ⟨hbit, hok⟩
  · rw [hstop, error_bind]
    exact .inl rfl
  · rw [hok, ok_bind]
    simp only
    rcases trySplitBits_cases (.broke d.written d.left) (bits.drop 1) d.kr with hstop | ⟨hlow, hok⟩
    · rw [hstop, error_bind]
      exact .inl rfl
    · rw [hok, ok_bind]
      refine .inr ⟨_, _, rfl, ?_, rfl, rfl⟩
      rw [List.length_drop] at hlow
      have hval : Bits.toNat ((bits.drop 1).take d.kr) < 2 ^ d.kr := by
        have hlt := Bits.toNat_lt ((bits.drop 1).take d.kr)
        rwa [List.length_take, List.length_drop, Nat.min_eq_left hlow] at hlt
      calc Bits.toNat ((bits.drop 1).take d.kr) + ones <<< d.kr
          < 2 ^ d.kr + ones <<< d.kr := Nat.add_lt_add_right hval _
        _ = (ones + 1) * 2 ^ d.kr := by rw [Nat.shiftLeft_eq, Nat.add_mul, Nat.one_mul, Nat.add_comm]
        _ ≤ 2 ^ ones * 2 ^ d.kr := Nat.mul_le_mul_right _ Nat.lt_two_pow_self
        _ = 2 ^ (ones + d.kr) := (Nat.pow_add 2 ones d.kr).symm
        _ ≤ 2 ^ d.bits.length := Nat.pow_le_pow_right (by decide) (by omega)

/-- A run to the end. -/
theorem ends_runLength {tile : List Bool} {e : Encoder} {bs : List Bool} (htuned : e.Tuned)
    (h : Emitted tile e.bits bs) (zeros : Nat) :
    ∃ code, Emitted tile (outputRun e zeros).bits (bs ++ code) ∧ code ≠ [] ∧
      Ends decodeRunLength e code (List.replicate zeros 0) := by
  obtain ⟨code, hrun, hne, -, -, hread⟩ := outputRun_spec htuned h zeros
  refine ⟨code, hrun, hne, fun d more hfollows hbits hshort hleft => ?_⟩
  rw [List.length_replicate] at hleft
  have hbroke : d.written ++ List.replicate d.left 0 = d.written ++ List.replicate zeros 0 := by rw [hleft]
  unfold decodeRunLength
  rw [hread d more hfollows hbits, ok_bind]
  simp only
  rcases trySplitBits_cases (.broke d.written d.left) more 1 with hstop | ⟨hbit, hok⟩
  · rw [hstop, error_bind]
    exact ⟨_, _, rfl, hbroke⟩
  · rw [hok, ok_bind]
    simp only
    rcases readCode_cases { d with
        bits := more.drop 1, k := (outputRun e zeros).k, kp := (outputRun e zeros).kp } with
      hstop | ⟨val, d', hok', hval, hwritten, hleft'⟩
    · rw [hstop, error_bind]
      exact ⟨_, _, rfl, hbroke⟩
    · -- The value is small enough to be one, but the run has left no room for it.
      have hlarge : val + 1 ≤ 32767 := by
        calc val + 1 ≤ 2 ^ (more.drop 1).length := hval
          _ ≤ 2 ^ 7 := Nat.pow_le_pow_right (by decide) (by rw [List.length_drop]; omega)
          _ ≤ 32767 := by decide
      have hmin : min zeros d.left = zeros := by omega
      change d'.left = d.left at hleft'
      change d'.written = d.written at hwritten
      rw [hok', ok_bind]
      unfold computeRlMagnitude
      simp only
      rw [toI16_of_le hlarge, ok_bind]
      unfold Decoder.writeByte Decoder.fillRun Decoder.setKp
      refine ⟨_, 0, if_pos ?_, ?_⟩
      · change d'.left - min zeros d'.left = 0
        omega
      · change (d'.written ++ List.replicate (min zeros d'.left) 0) ++ [] = _
        rw [List.append_nil, hwritten, hleft', hmin]

theorem signedMagnitude_get2magsign (whatOdd whatEven : String) {val : Int} (h : InRange val) :
    signedMagnitude whatOdd whatEven (get2magsign val) = .ok val := by
  obtain ⟨hlow, hhigh⟩ := h
  unfold signedMagnitude get2magsign
  by_cases hneg : val < 0
  · have hodd : (val.natAbs * 2 - 1) % 2 ≠ 0 := by omega
    have hhalf : ((val.natAbs * 2 - 1 + 1) % 2 ^ 32) >>> 1 = val.natAbs := by
      rw [Nat.shiftRight_eq_div_pow]
      omega
    have hneg' : -(val.natAbs : Int) = val := by omega
    rw [if_pos hneg, if_pos hodd, hhalf, toI16_of_le (by omega)]
    exact congrArg Except.ok hneg'
  · have heven : ¬(val.natAbs * 2 - 0) % 2 ≠ 0 := by omega
    have hhalf : (val.natAbs * 2 - 0) >>> 1 = val.natAbs := by
      rw [Nat.shiftRight_eq_div_pow]
      omega
    rw [if_neg hneg, if_neg heven, hhalf, toI16_of_le (by omega)]
    exact congrArg Except.ok (by omega)

theorem computeRlgr1Magnitude_get2magsign {val : Int} (h : InRange val) :
    computeRlgr1Magnitude (get2magsign val) = .ok val := by
  have hval := signedMagnitude_get2magsign "(code remainder + 1) >> 1" "code remainder >> 1" h
  unfold computeRlgr1Magnitude
  by_cases hzero : get2magsign val = 0
  · rw [hzero] at hval ⊢
    exact hval
  · rw [if_neg hzero, hval]

theorem get2magsign_lt {val : Int} (h : InRange val) : get2magsign val < 2 ^ 16 := by
  obtain ⟨hlow, hhigh⟩ := h
  unfold get2magsign
  by_cases hneg : val < 0
  · rw [if_pos hneg]
    omega
  · rw [if_neg hneg]
    omega

theorem Follows.setKp {d : Decoder} {e : Encoder} (h : Follows d e) (kp : Nat) :
    Follows (d.setKp kp) (e.setKp kp) := ⟨rfl, h.kr, rfl, h.krp⟩

theorem codeBits_ne_nil (kr val : Nat) : codeBits kr val ≠ [] := by simp [codeBits]

/-- The code of one value. -/
theorem codes_rlgr1 {tile : List Bool} {e : Encoder} {bs : List Bool} (h : Emitted tile e.bits bs) {val : Int}
    (hrange : InRange val) (input : List Int) :
    ∃ code, Emitted tile (encodeGolombRice .rlgr1 e val input).1.bits (bs ++ code) ∧ code ≠ [] ∧
      Codes (decodeGolombRice .rlgr1) e (encodeGolombRice .rlgr1 e val input).1 code [val] := by
  refine ⟨_, emitted_codeGr h (get2magsign val), codeBits_ne_nil _ _, fun d more hfollows hbits hroom => ?_⟩
  unfold decodeGolombRice
  rw [readCode_append hfollows hbits, ok_bind]
  simp only
  rw [computeRlgr1Magnitude_get2magsign hrange, ok_bind, hfollows.kp]
  have hread : Decoded d (encodeGolombRice .rlgr1 e val input).1 more []
      (Decoder.setKp { d with
        bits := more, kr := (codeGr e (get2magsign val)).krp >>> lsGr, krp := (codeGr e (get2magsign val)).krp }
        (nextKp e.kp (get2magsign val))) :=
    ⟨⟨rfl, rfl, rfl, rfl⟩, rfl, (List.append_nil _).symm, rfl⟩
  exact decoded_writeByte hread hroom val

theorem lt_two_pow_bitLength (value : Nat) : value < 2 ^ bitLength value := by
  unfold bitLength
  by_cases hzero : value = 0
  · rw [if_pos hzero, hzero]
    decide
  · rw [if_neg hzero]
    exact Nat.lt_log2_self

/-- What the encoder writes of two doubled magnitudes. -/
def pairBits (e : Encoder) (twoMs1 twoMs2 : Nat) : List Bool :=
  codeBits (e.krp >>> lsGr) (twoMs1 + twoMs2) ++ Bits.ofNat (bitLength (twoMs1 + twoMs2)) twoMs1

theorem ite_outputBits (e : Encoder) (m val : Nat) :
    (if m ≠ 0 then { e with bits := e.bits.outputBits m val } else e) =
      { e with bits := if m ≠ 0 then e.bits.outputBits m val else e.bits } := by
  by_cases hwidth : m ≠ 0
  · rw [if_pos hwidth, if_pos hwidth]
  · rw [if_neg hwidth, if_neg hwidth]

theorem emitted_lowBits {tile : List Bool} {s : BitStream} {bs : List Bool} (h : Emitted tile s bs)
    (m val : Nat) : Emitted tile (if m ≠ 0 then s.outputBits m val else s) (bs ++ Bits.ofNat m val) := by
  by_cases hwidth : m ≠ 0
  · rw [if_pos hwidth]
    exact h.outputBits m val
  · rw [if_neg hwidth]
    rw [not_not] at hwidth
    subst hwidth
    change Emitted tile s (bs ++ [])
    rwa [List.append_nil]

theorem emitted_pair {tile : List Bool} {e : Encoder} {bs : List Bool} (h : Emitted tile e.bits bs) (val : Int)
    (input : List Int) :
    Emitted tile (encodeGolombRice .rlgr3 e val input).1.bits
      (bs ++ pairBits e (get2magsign val) ((input.head?.map get2magsign).getD 0)) := by
  unfold encodeGolombRice pairBits
  simp only
  generalize get2magsign val = twoMs1, (input.head?.map get2magsign).getD 0 = twoMs2
  rw [ite_outputBits, ← List.append_assoc]
  have hlow := emitted_lowBits (emitted_codeGr h (twoMs1 + twoMs2)) (bitLength (twoMs1 + twoMs2)) twoMs1
  by_cases hboth : (twoMs1 ≠ 0 ∧ twoMs2 ≠ 0) ∨ (twoMs1 = 0 ∧ twoMs2 = 0)
  · rw [if_pos hboth]
    exact hlow
  · rw [if_neg hboth]
    exact hlow

theorem wrappingSub_add {a b : Nat} (h : a + b < 2 ^ 32) : wrappingSub (a + b) a = b := by
  unfold wrappingSub
  omega

/-- The doubled magnitudes are read back, and both sides go on with the same parameters. -/
theorem decode_pair {d : Decoder} {e : Encoder} {val : Int} {input : List Int} {twoMs2 : Nat} {more : List Bool}
    (hfollows : Follows d e) (hsecond : (input.head?.map get2magsign).getD 0 = twoMs2)
    (hsmall : get2magsign val + twoMs2 < 2 ^ 32)
    (hbits : d.bits = pairBits e (get2magsign val) twoMs2 ++ more) :
    ∃ d₁, Decoded d (encodeGolombRice .rlgr3 e val input).1 more [] d₁ ∧
      decodeGolombRice .rlgr3 d = (do
        let magnitude ← computeRlgr3Magnitude (get2magsign val)
        let d ← d₁.writeByte magnitude
        let magnitude ← computeRlgr3Magnitude twoMs2
        d.writeByte magnitude) := by
  unfold encodeGolombRice
  simp only
  rw [hsecond, ite_outputBits]
  generalize get2magsign val = twoMs1 at hsmall hbits ⊢
  have hval1 : Bits.toNat (Bits.ofNat (bitLength (twoMs1 + twoMs2)) twoMs1) = twoMs1 := by
    rw [Bits.toNat_ofNat]
    exact Nat.mod_eq_of_lt (Nat.lt_of_le_of_lt (Nat.le_add_right _ _) (lt_two_pow_bitLength _))
  unfold pairBits at hbits
  rw [List.append_assoc] at hbits
  unfold decodeGolombRice
  rw [readCode_append hfollows hbits, ok_bind]
  simp only
  rw [trySplitBits_append _ (Bits.length_ofNat _ _), ok_bind]
  simp only
  rw [hval1, wrappingSub_add hsmall]
  refine ⟨_, ?_, rfl⟩
  by_cases hboth : (twoMs1 ≠ 0 ∧ twoMs2 ≠ 0) ∨ (twoMs1 = 0 ∧ twoMs2 = 0)
  · rw [if_pos hboth, if_pos hboth, hfollows.kp]
    exact ⟨⟨rfl, rfl, rfl, rfl⟩, rfl, (List.append_nil _).symm, rfl⟩
  · rw [if_neg hboth, if_neg hboth]
    exact ⟨⟨hfollows.k, rfl, hfollows.kp, rfl⟩, rfl, (List.append_nil _).symm, rfl⟩

theorem computeRlgr3Magnitude_get2magsign {val : Int} (h : InRange val) :
    computeRlgr3Magnitude (get2magsign val) = .ok val := signedMagnitude_get2magsign _ _ h

/-- The code of two values. -/
theorem codes_rlgr3 {tile : List Bool} {e : Encoder} {bs : List Bool} (h : Emitted tile e.bits bs) {a b : Int}
    (ha : InRange a) (hb : InRange b) (input : List Int) :
    ∃ code, Emitted tile (encodeGolombRice .rlgr3 e a (b :: input)).1.bits (bs ++ code) ∧ code ≠ [] ∧
      Codes (decodeGolombRice .rlgr3) e (encodeGolombRice .rlgr3 e a (b :: input)).1 code [a, b] := by
  have ha' := get2magsign_lt ha
  have hb' := get2magsign_lt hb
  have hsecond : ((b :: input).head?.map get2magsign).getD 0 = get2magsign b := rfl
  refine ⟨_, emitted_pair h a (b :: input), List.append_ne_nil_of_left_ne_nil (codeBits_ne_nil _ _) _,
    fun d more hfollows hbits hroom => ?_⟩
  obtain ⟨d₁, hdecoded, hround⟩ := decode_pair hfollows hsecond (by omega) hbits
  obtain ⟨d₂, hwrite, hdecoded⟩ := decoded_writeByte hdecoded (Nat.le_of_succ_le hroom) a
  obtain ⟨d₃, hwrite', hdecoded⟩ := decoded_writeByte hdecoded hroom b
  refine ⟨d₃, ?_, hdecoded⟩
  rw [hround, computeRlgr3Magnitude_get2magsign ha, ok_bind, hwrite, ok_bind]
  rw [computeRlgr3Magnitude_get2magsign hb, ok_bind, hwrite']

/-- The code of a value that is left over stands for a zero after it, which has no room. -/
theorem ends_rlgr3 {tile : List Bool} {e : Encoder} {bs : List Bool} (h : Emitted tile e.bits bs) {a : Int}
    (ha : InRange a) :
    ∃ code, Emitted tile (encodeGolombRice .rlgr3 e a []).1.bits (bs ++ code) ∧ code ≠ [] ∧
      Ends (decodeGolombRice .rlgr3) e code [a] := by
  have ha' := get2magsign_lt ha
  have hsecond : (([] : List Int).head?.map get2magsign).getD 0 = 0 := rfl
  refine ⟨_, emitted_pair h a [], List.append_ne_nil_of_left_ne_nil (codeBits_ne_nil _ _) _,
    fun d more hfollows hbits _ hleft => ?_⟩
  obtain ⟨d₁, hdecoded, hround⟩ := decode_pair hfollows hsecond (by omega) hbits
  obtain ⟨d₂, hwrite, hdecoded⟩ := decoded_writeByte hdecoded (Nat.le_of_eq hleft.symm) a
  have hfull : d₂.left = 0 := by
    have hcount := hdecoded.left
    rw [hleft] at hcount
    simpa using hcount
  refine ⟨d₂.written, 0, ?_, ?_⟩
  · rw [hround, computeRlgr3Magnitude_get2magsign ha, ok_bind, hwrite, ok_bind]
    exact if_pos hfull
  · rw [hdecoded.written]
    exact List.append_nil _

theorem tuned_rlgr3 {e : Encoder} (h : e.Tuned) (val : Int) (input : List Int) :
    (encodeGolombRice .rlgr3 e val input).1.Tuned := by
  unfold encodeGolombRice
  simp only
  rw [ite_outputBits]
  by_cases hboth : (get2magsign val ≠ 0 ∧ (input.head?.map get2magsign).getD 0 ≠ 0) ∨
      (get2magsign val = 0 ∧ (input.head?.map get2magsign).getD 0 = 0)
  · rw [if_pos hboth]
    exact Encoder.tuned_setKp _ _
  · rw [if_neg hboth]
    exact h

/-! ### Tiles -/

/-- A round writes the code of some values, or of all that are left. -/
theorem encodeRound_spec {tile : List Bool} {e : Encoder} {bs : List Bool} (mode : EntropyAlgorithm)
    (htuned : e.Tuned) (h : Emitted tile e.bits bs) {val : Int} {input : List Int}
    (hrange : ∀ v ∈ val :: input, InRange v) :
    ∃ code, Emitted tile (encodeRound mode e val input).1.bits (bs ++ code) ∧ code ≠ [] ∧
      (encodeRound mode e val input).1.Tuned ∧
      ((∃ values, val :: input = values ++ (encodeRound mode e val input).2 ∧ values ≠ [] ∧
          Codes (decodeRound mode) e (encodeRound mode e val input).1 code values) ∨
        (encodeRound mode e val input).2 = [] ∧ Ends (decodeRound mode) e code (val :: input)) := by
  have hround : ∀ d, Follows d e →
      decodeRound mode d = if e.k ≠ 0 then decodeRunLength d else decodeGolombRice mode d := by
    intro d hfollows
    unfold decodeRound
    rw [hfollows.k, htuned]
  unfold encodeRound
  by_cases hk : e.k ≠ 0
  · simp only [if_pos hk] at hround ⊢
    unfold encodeRunLength
    rcases takeRun_spec 0 (val :: input) with ⟨htake, hzeros⟩ | ⟨zeros, v, rest, htake, hv, hinput⟩
    · rw [htake, Nat.zero_add]
      obtain ⟨code, hcode, hne, hends⟩ := ends_runLength htuned h (val :: input).length
      refine ⟨code, hcode, hne, Encoder.tuned_setKp _ _, .inr ⟨rfl, fun d more hfollows => ?_⟩⟩
      rw [← hzeros] at hends
      rw [hround d hfollows]
      exact hends d more hfollows
    · rw [htake, Nat.zero_add]
      have hmem : v ∈ val :: input := by
        rw [hinput]
        exact List.mem_append_right _ List.mem_cons_self
      obtain ⟨code, hcode, hne, hcodes⟩ := codes_runLength htuned h zeros hv (hrange v hmem)
      refine ⟨code, hcode, hne, Encoder.tuned_setKp _ _, .inl ⟨List.replicate zeros 0 ++ [v], ?_, ?_, ?_⟩⟩
      · rw [hinput, List.append_assoc]
        rfl
      · simp
      · intro d more hfollows
        rw [hround d hfollows]
        exact hcodes d more hfollows
  · simp only [if_neg hk] at hround ⊢
    have hval := hrange val List.mem_cons_self
    cases mode with
    | rlgr1 =>
        obtain ⟨code, hcode, hne, hcodes⟩ := codes_rlgr1 h hval input
        refine ⟨code, hcode, hne, Encoder.tuned_setKp _ _, .inl ⟨[val], rfl, List.cons_ne_nil _ _, ?_⟩⟩
        intro d more hfollows
        rw [hround d hfollows]
        exact hcodes d more hfollows
    | rlgr3 =>
        have htuned' := tuned_rlgr3 htuned val input
        cases input with
        | nil =>
            obtain ⟨code, hcode, hne, hends⟩ := ends_rlgr3 h hval
            refine ⟨code, hcode, hne, htuned', .inr ⟨rfl, fun d more hfollows => ?_⟩⟩
            rw [hround d hfollows]
            exact hends d more hfollows
        | cons b input =>
            have hb := hrange b (List.mem_cons_of_mem _ List.mem_cons_self)
            obtain ⟨code, hcode, hne, hcodes⟩ := codes_rlgr3 h hval hb input
            refine ⟨code, hcode, hne, htuned', .inl ⟨[val, b], rfl, List.cons_ne_nil _ _, ?_⟩⟩
            intro d more hfollows
            rw [hround d hfollows]
            exact hcodes d more hfollows

theorem encodeFrom_nil (mode : EntropyAlgorithm) (fuel : Nat) (e : Encoder) : encodeFrom mode fuel e [] = e := by
  cases fuel with
  | zero => rfl
  | succ fuel => rfl

theorem decodeFrom_full (mode : EntropyAlgorithm) (steps : Nat) {d : Decoder} (h : d.left = 0) :
    decodeFrom mode steps d = .ok d.written := by
  have hfill : d.written ++ List.replicate d.left 0 = d.written := by
    rw [h]
    exact List.append_nil _
  cases steps with
  | zero =>
      unfold decodeFrom
      rw [hfill]
  | succ steps =>
      unfold decodeFrom
      rw [if_neg (fun hopen => hopen.2 h), hfill]

theorem decodeFrom_ok {mode : EntropyAlgorithm} {d d' : Decoder} (steps : Nat) (hbits : d.bits ≠ [])
    (hleft : d.left ≠ 0) (h : decodeRound mode d = .ok d') :
    decodeFrom mode (steps + 1) d = decodeFrom mode steps d' := by
  rw [decodeFrom, if_pos ⟨hbits, hleft⟩, h]

theorem decodeFrom_broke {mode : EntropyAlgorithm} {d : Decoder} {written : List Int} {left : Nat} (steps : Nat)
    (hbits : d.bits ≠ []) (hleft : d.left ≠ 0) (h : decodeRound mode d = .error (.broke written left)) :
    decodeFrom mode (steps + 1) d = .ok (written ++ List.replicate left 0) := by
  rw [decodeFrom, if_pos ⟨hbits, hleft⟩, h]

/-- All the values are read back, whatever few bits follow their code. -/
theorem encodeFrom_spec {tile : List Bool} {fuel : Nat} {e : Encoder} {bs : List Bool} {input : List Int}
    (mode : EntropyAlgorithm) (htuned : e.Tuned) (h : Emitted tile e.bits bs)
    (hrange : ∀ v ∈ input, InRange v) (hfuel : input.length ≤ fuel) :
    ∃ code, Emitted tile (encodeFrom mode fuel e input).bits (bs ++ code) ∧ (input ≠ [] → code ≠ []) ∧
      ∀ d more steps, Follows d e → d.bits = code ++ more → more.length ≤ 7 → d.left = input.length →
        d.bits.length ≤ steps → decodeFrom mode steps d = .ok (d.written ++ input) := by
  induction fuel generalizing e bs input with
  | zero =>
      have hnil : input = [] := List.eq_nil_of_length_eq_zero (Nat.le_zero.mp hfuel)
      subst hnil
      refine ⟨[], by rwa [List.append_nil], fun hne => absurd rfl hne, fun d _ steps _ _ _ hleft _ => ?_⟩
      rw [decodeFrom_full mode steps hleft, List.append_nil]
  | succ fuel ih =>
      cases input with
      | nil =>
          refine ⟨[], by rwa [List.append_nil], fun hne => absurd rfl hne, fun d _ steps _ _ _ hleft _ => ?_⟩
          rw [decodeFrom_full mode steps hleft, List.append_nil]
      | cons val input =>
          obtain ⟨code, hcode, hne, htuned', hround⟩ := encodeRound_spec mode htuned h hrange
          have hpos : 0 < code.length := List.length_pos_iff.mpr hne
          unfold encodeFrom
          simp only
          generalize encodeRound mode e val input = out at hcode htuned' hround ⊢
          obtain ⟨e', rest⟩ := out
          simp only at hcode htuned' hround ⊢
          rcases hround with ⟨values, hvalues, hsome, hcodes⟩ | ⟨hrest, hends⟩
          · have hlength := congrArg List.length hvalues
            rw [List.length_cons, List.length_append] at hlength
            have hvalues_pos : 0 < values.length := List.length_pos_iff.mpr hsome
            rw [List.length_cons] at hfuel
            have hrange' : ∀ v ∈ rest, InRange v := fun v hv =>
              hrange v (hvalues ▸ List.mem_append_right values hv)
            obtain ⟨code', hcode', -, hdecode⟩ := ih htuned' hcode hrange' (by omega)
            rw [List.append_assoc] at hcode'
            refine ⟨code ++ code', hcode', fun _ => List.append_ne_nil_of_left_ne_nil hne _, ?_⟩
            intro d more steps hfollows hbits hshort hleft hsteps
            rw [List.append_assoc] at hbits
            rw [List.length_cons] at hleft
            obtain ⟨d', hround, hdecoded⟩ := hcodes d _ hfollows hbits (by omega)
            have hcount := hdecoded.left
            have hopen : d.bits ≠ [] := by
              rw [hbits]
              exact List.append_ne_nil_of_left_ne_nil hne _
            rw [hbits, List.length_append] at hsteps
            obtain ⟨n, rfl⟩ : ∃ n, steps = n + 1 := ⟨steps - 1, by omega⟩
            rw [decodeFrom_ok n hopen (by omega) hround]
            rw [hdecode d' more n hdecoded.follows hdecoded.bits hshort (by omega)
              (by rw [hdecoded.bits]; omega), hdecoded.written, List.append_assoc, ← hvalues]
          · rw [hrest, encodeFrom_nil]
            refine ⟨code, hcode, fun _ => hne, fun d more steps hfollows hbits hshort hleft hsteps => ?_⟩
            obtain ⟨written, left, hround, hfilled⟩ := hends d more hfollows hbits hshort hleft
            have hopen : d.bits ≠ [] := by
              rw [hbits]
              exact List.append_ne_nil_of_left_ne_nil hne _
            rw [hbits, List.length_append] at hsteps
            obtain ⟨n, rfl⟩ : ∃ n, steps = n + 1 := ⟨steps - 1, by omega⟩
            rw [List.length_cons] at hleft
            rw [decodeFrom_broke n hopen (by omega) hround, hfilled]

/-! ### The size of the code

The parameters do not depend on the buffer, so that the reported size is that of a buffer which is large enough.
-/

/-- Encoders that differ in their buffers alone. -/
structure Alike (e e' : Encoder) : Prop where
  k : e.k = e'.k
  kp : e.kp = e'.kp
  krp : e.krp = e'.krp
  idx : e.bits.idx = e'.bits.idx

theorem idx_put (s : BitStream) (val : List Bool) : (s.put val).idx = s.idx + val.length := by
  unfold BitStream.put
  simp only
  by_cases hfits : s.idx + val.length ≤ s.bits.length
  · rw [if_pos hfits]
  · rw [if_neg hfits]

theorem alike_put {e e' : Encoder} (h : Alike e e') (val : List Bool) :
    Alike { e with bits := e.bits.put val } { e' with bits := e'.bits.put val } :=
  ⟨h.k, h.kp, h.krp, by rw [idx_put, idx_put, h.idx]⟩

theorem alike_setKp {e e' : Encoder} (h : Alike e e') {kp kp' : Nat} (hkp : kp = kp') :
    Alike (e.setKp kp) (e'.setKp kp') := by
  subst hkp
  exact ⟨rfl, rfl, h.krp, h.idx⟩

theorem alike_codeGr {e e' : Encoder} (h : Alike e e') (val : Nat) : Alike (codeGr e val) (codeGr e' val) := by
  have hcode := alike_put (alike_put h (List.replicate (val >>> (e'.krp >>> lsGr)) true)) (List.replicate 1 false)
  unfold codeGr
  simp only
  rw [h.krp]
  by_cases hwidth : e'.krp >>> lsGr ≠ 0
  · rw [if_pos hwidth, if_pos hwidth]
    have hlow := alike_put hcode
      (Bits.ofNat (e'.krp >>> lsGr) (val &&& ((1 <<< (e'.krp >>> lsGr)) - 1)))
    exact ⟨hlow.k, hlow.kp, rfl, hlow.idx⟩
  · rw [if_neg hwidth, if_neg hwidth]
    exact ⟨hcode.k, hcode.kp, rfl, hcode.idx⟩

theorem alike_outputRuns {e e' : Encoder} (h : Alike e e') (fuel nz : Nat) :
    Alike (outputRuns fuel e nz).1 (outputRuns fuel e' nz).1 ∧
      (outputRuns fuel e nz).2 = (outputRuns fuel e' nz).2 := by
  induction fuel generalizing e e' nz with
  | zero => exact ⟨h, rfl⟩
  | succ fuel ih =>
      unfold outputRuns
      rw [h.k]
      by_cases hlong : nz ≥ 1 <<< e'.k
      · rw [if_pos hlong, if_pos hlong]
        apply ih
        exact alike_setKp (alike_put h (List.replicate 1 false)) (congrArg (fun kp => min (kp + upGr) kpMax) h.kp)
      · rw [if_neg hlong, if_neg hlong]
        exact ⟨h, rfl⟩

theorem alike_outputRun {e e' : Encoder} (h : Alike e e') (nz : Nat) :
    Alike (outputRun e nz) (outputRun e' nz) := by
  obtain ⟨hruns, hnz⟩ := alike_outputRuns h nz nz
  unfold outputRun
  simp only
  rw [hnz, hruns.k]
  have hcode := alike_put (alike_put hruns (List.replicate 1 true))
    (Bits.ofNat (outputRuns nz e' nz).1.k (outputRuns nz e' nz).2)
  exact ⟨rfl, hcode.kp, hcode.krp, hcode.idx⟩

theorem alike_outputEnd {e e' : Encoder} (h : Alike e e') (val : Int) :
    Alike (outputEnd e val) (outputEnd e' val) :=
  alike_codeGr (alike_put h (List.replicate 1 (decide (val < 0)))) (val.natAbs - 1)

theorem alike_encodeRunLength {e e' : Encoder} (h : Alike e e') (input : List Int) :
    Alike (encodeRunLength e input).1 (encodeRunLength e' input).1 := by
  have hrun := alike_outputRun h (takeRun 0 input).1
  unfold encodeRunLength
  simp only
  cases (takeRun 0 input).2.1 with
  | none => exact alike_setKp hrun (congrArg (fun kp => kp - dnGr) hrun.kp)
  | some val =>
      have hend := alike_outputEnd hrun val
      exact alike_setKp hend (congrArg (fun kp => kp - dnGr) hend.kp)

theorem alike_encodeGolombRice {e e' : Encoder} (h : Alike e e') (mode : EntropyAlgorithm) (val : Int)
    (input : List Int) : Alike (encodeGolombRice mode e val input).1 (encodeGolombRice mode e' val input).1 := by
  cases mode with
  | rlgr1 => exact alike_setKp (alike_codeGr h _) (congrArg (fun kp => nextKp kp (get2magsign val)) h.kp)
  | rlgr3 =>
      unfold encodeGolombRice
      simp only
      generalize get2magsign val = twoMs1, (input.head?.map get2magsign).getD 0 = twoMs2
      rw [ite_outputBits, ite_outputBits]
      have hcode := alike_codeGr h (twoMs1 + twoMs2)
      have hlow : Alike
          { codeGr e (twoMs1 + twoMs2) with
            bits := if bitLength (twoMs1 + twoMs2) ≠ 0 then
              (codeGr e (twoMs1 + twoMs2)).bits.outputBits (bitLength (twoMs1 + twoMs2)) twoMs1
            else (codeGr e (twoMs1 + twoMs2)).bits }
          { codeGr e' (twoMs1 + twoMs2) with
            bits := if bitLength (twoMs1 + twoMs2) ≠ 0 then
              (codeGr e' (twoMs1 + twoMs2)).bits.outputBits (bitLength (twoMs1 + twoMs2)) twoMs1
            else (codeGr e' (twoMs1 + twoMs2)).bits } := by
        by_cases hwidth : bitLength (twoMs1 + twoMs2) ≠ 0
        · rw [if_pos hwidth, if_pos hwidth]
          exact alike_put hcode _
        · rw [if_neg hwidth, if_neg hwidth]
          exact hcode
      by_cases hboth : (twoMs1 ≠ 0 ∧ twoMs2 ≠ 0) ∨ (twoMs1 = 0 ∧ twoMs2 = 0)
      · rw [if_pos hboth, if_pos hboth]
        exact alike_setKp hlow (congrArg (fun kp => nextKpPair kp twoMs1 twoMs2) h.kp)
      · rw [if_neg hboth, if_neg hboth]
        exact hlow

theorem encodeRound_snd {e e' : Encoder} (h : Alike e e') (mode : EntropyAlgorithm) (val : Int)
    (input : List Int) : (encodeRound mode e val input).2 = (encodeRound mode e' val input).2 := by
  unfold encodeRound
  rw [h.k]
  by_cases hk : e'.k ≠ 0
  · rw [if_pos hk, if_pos hk]
    rfl
  · rw [if_neg hk, if_neg hk]
    cases mode with
    | rlgr1 => rfl
    | rlgr3 => rfl

theorem alike_encodeRound {e e' : Encoder} (h : Alike e e') (mode : EntropyAlgorithm) (val : Int)
    (input : List Int) : Alike (encodeRound mode e val input).1 (encodeRound mode e' val input).1 := by
  unfold encodeRound
  rw [h.k]
  by_cases hk : e'.k ≠ 0
  · rw [if_pos hk, if_pos hk]
    exact alike_encodeRunLength h _
  · rw [if_neg hk, if_neg hk]
    exact alike_encodeGolombRice h mode val input

theorem alike_encodeFrom {e e' : Encoder} (h : Alike e e') (mode : EntropyAlgorithm) (fuel : Nat)
    (input : List Int) : Alike (encodeFrom mode fuel e input) (encodeFrom mode fuel e' input) := by
  induction fuel generalizing e e' input with
  | zero => exact h
  | succ fuel ih =>
      cases input with
      | nil => exact h
      | cons val input =>
          have hround := alike_encodeRound h mode val input
          have hrest := encodeRound_snd h mode val input
          unfold encodeFrom
          simp only
          rw [hrest]
          exact ih hround _

/-- A tile of values in range has a size. A buffer of that size takes the tile, is left alone behind it, and the
tile is decoded to the values; a smaller buffer is refused, and the size reported. -/
theorem encode_round_trip (mode : EntropyAlgorithm) (input : List Int) (hinput : input ≠ [])
    (hrange : ∀ v ∈ input, InRange v) :
    ∃ needed, ∀ tile : Bytes,
      (tile.length < needed → encode mode input tile = .error (.outputTooSmall needed tile.length)) ∧
      (needed ≤ tile.length → ∃ coded, coded.length = needed ∧
        encode mode input tile = .ok (needed, coded ++ tile.drop needed) ∧
        decode mode coded input.length = .ok input) := by
  refine ⟨(encodeFrom mode input.length (.new []) input).bits.len, fun tile => ?_⟩
  have halike : Alike (.new []) (.new tile) := ⟨rfl, rfl, rfl, rfl⟩
  have hlen : (encodeFrom mode input.length (.new []) input).bits.len =
      (encodeFrom mode input.length (.new tile) input).bits.len :=
    congrArg (fun idx => (idx + 7) / 8) (alike_encodeFrom halike mode input.length input).idx
  have hunit : 1 = (1 <<< lsGr) >>> lsGr := by decide
  have htuned : (Encoder.new tile).Tuned := hunit
  obtain ⟨code, hcode, hsome, hdecode⟩ :=
    encodeFrom_spec mode htuned (emitted_new tile) hrange (Nat.le_refl input.length)
  rw [List.nil_append] at hcode
  unfold encode
  rw [if_neg hinput, hlen]
  simp only
  generalize encodeFrom mode input.length (.new tile) input = e at hcode ⊢
  have hneeded : e.bits.len = (code.length + 7) / 8 := congrArg (fun idx => (idx + 7) / 8) hcode.idx
  have htile := Bits.length_ofBytes tile
  have hpos : 0 < code.length := List.length_pos_iff.mpr (hsome hinput)
  refine ⟨fun hsmall => ?_, fun hlarge => ?_⟩
  · rw [if_pos (hcode.overflows (by omega))]
  · obtain ⟨hoverflowed, hbits⟩ := hcode.fits (by omega)
    rw [hoverflowed, if_neg (by decide)]
    obtain ⟨rest, hrest⟩ : ∃ rest, tile.length = e.bits.len + rest := ⟨_, (Nat.add_sub_of_le hlarge).symm⟩
    have hbehind : e.bits.bits.drop (8 * e.bits.len) = Bits.ofBytes (tile.drop e.bits.len) := by
      rw [hbits, List.drop_append, List.drop_eq_nil_of_le (by omega), List.nil_append, List.drop_drop,
        Nat.add_sub_of_le (by omega), Bits.ofBytes_drop]
    refine ⟨Bits.toBytes e.bits.bits e.bits.len, Bits.length_toBytes _ _, ?_, ?_⟩
    · rw [hrest, Bits.toBytes_add, hbehind]
      have hdrop : (tile.drop e.bits.len).length = rest := by
        rw [List.length_drop]
        omega
      rw [← hdrop, Bits.toBytes_ofBytes]
    · have hlength : e.bits.bits.length = 8 * tile.length := by rw [hcode.length, htile]
      have hcoded : Bits.ofBytes (Bits.toBytes e.bits.bits e.bits.len) =
          code ++ ((Bits.ofBytes tile).drop code.length).take (8 * e.bits.len - code.length) := by
        rw [Bits.ofBytes_toBytes (by omega), hbits, List.take_append, List.take_of_length_le (by omega)]
      have hsome' : Bits.toBytes e.bits.bits e.bits.len ≠ [] := by
        rw [← List.length_pos_iff, Bits.length_toBytes]
        omega
      unfold decode
      rw [if_neg hsome']
      simp only
      have hshort : (((Bits.ofBytes tile).drop code.length).take (8 * e.bits.len - code.length)).length ≤ 7 := by
        rw [List.length_take]
        omega
      exact hdecode ⟨_, 1, 1, 1 <<< lsGr, 1 <<< lsGr, [], input.length⟩ _ _ ⟨hunit, hunit, rfl, rfl⟩ hcoded hshort rfl
        (Nat.le_refl _)

theorem encode_round_trip_zeros : ∃ needed, ∀ tile : Bytes,
    (tile.length < needed → encode .rlgr3 [5, 0, 0, -3, 0] tile = .error (.outputTooSmall needed tile.length)) ∧
    (needed ≤ tile.length → ∃ coded, coded.length = needed ∧
      encode .rlgr3 [5, 0, 0, -3, 0] tile = .ok (needed, coded ++ tile.drop needed) ∧
      decode .rlgr3 coded 5 = .ok [5, 0, 0, -3, 0]) :=
  encode_round_trip .rlgr3 [5, 0, 0, -3, 0] (by decide) (by unfold InRange; decide)

end Drift.Codec.Rlgr
