import Mathlib.Algebra.Ring.Nat
import Mathlib.Data.List.Basic
import Mathlib.Data.List.Flatten
import Mathlib.Data.List.Induction

/-!
# The bits of bytes

Bytes as a stream of bits, the most significant bit of each byte first.
-/

namespace Bits

/-- Bit `i` of a byte, counted from the most significant one. -/
def bitAt (byte : UInt8) (i : Nat) : Bool := byte &&& ((0x80 : UInt8) >>> i.toUInt8) ≠ 0

def ofByte (byte : UInt8) : List Bool := (List.range 8).map (bitAt byte)

def ofBytes (bytes : List UInt8) : List Bool := bytes.flatMap ofByte

@[simp]
theorem length_ofByte (byte : UInt8) : (ofByte byte).length = 8 := by
  simp [ofByte]

@[simp]
theorem ofBytes_nil : ofBytes [] = [] := rfl

@[simp]
theorem ofBytes_cons (byte : UInt8) (bytes : List UInt8) :
    ofBytes (byte :: bytes) = ofByte byte ++ ofBytes bytes := rfl

@[simp]
theorem ofBytes_append (bytes bytes' : List UInt8) :
    ofBytes (bytes ++ bytes') = ofBytes bytes ++ ofBytes bytes' := by
  simp [ofBytes]

@[simp]
theorem length_ofBytes (bytes : List UInt8) : (ofBytes bytes).length = 8 * bytes.length := by
  induction bytes with
  | nil => rfl
  | cons byte bytes ih =>
      rw [ofBytes_cons, List.length_append, length_ofByte, ih, List.length_cons]
      omega

theorem getElem?_ofByte {byte : UInt8} {i : Nat} (h : i < 8) :
    (ofByte byte)[i]? = some (bitAt byte i) := by
  simp [ofByte, h]

theorem getElem?_ofBytes (bytes : List UInt8) (p : Nat) :
    (ofBytes bytes)[p]? = bytes[p / 8]?.map (bitAt · (p % 8)) := by
  induction bytes generalizing p with
  | nil => simp
  | cons byte bytes ih =>
      rw [ofBytes_cons]
      by_cases hp : p < 8
      · have hdiv : p / 8 = 0 := Nat.div_eq_of_lt hp
        rw [List.getElem?_append_left (by simpa using hp), getElem?_ofByte hp, hdiv,
          Nat.mod_eq_of_lt hp]
        rfl
      · have hdiv : p / 8 = (p - 8) / 8 + 1 := by omega
        have hmod : p % 8 = (p - 8) % 8 := by omega
        rw [List.getElem?_append_right (by simpa using hp), length_ofByte, ih, hdiv, hmod,
          List.getElem?_cons_succ]

/-! ### Setting a bit -/

theorem bitAt_or {i j : Nat} (hi : i < 8) (hj : j < 8) (byte : UInt8) :
    bitAt (byte ||| ((0x80 : UInt8) >>> i.toUInt8)) j = if j = i then true else bitAt byte j := by
  have hmask : ∀ i j : Fin 8, ((0x80 : UInt8) >>> (i : Nat).toUInt8) &&&
      ((0x80 : UInt8) >>> (j : Nat).toUInt8) =
        if j = i then (0x80 : UInt8) >>> (j : Nat).toUInt8 else 0 := by decide
  have hne : ∀ j : Fin 8, (0x80 : UInt8) >>> (j : Nat).toUInt8 ≠ 0 := by decide
  have hand := hmask ⟨i, hi⟩ ⟨j, hj⟩
  have hbit := hne ⟨j, hj⟩
  simp only [Fin.mk.injEq] at hand hbit
  unfold bitAt
  have hdist : (byte ||| ((0x80 : UInt8) >>> i.toUInt8)) &&& ((0x80 : UInt8) >>> j.toUInt8) =
      (byte &&& ((0x80 : UInt8) >>> j.toUInt8)) |||
        (((0x80 : UInt8) >>> i.toUInt8) &&& ((0x80 : UInt8) >>> j.toUInt8)) := by
    apply UInt8.toBitVec_inj.mp
    simp only [UInt8.toBitVec_and, UInt8.toBitVec_or]
    exact BitVec.and_or_distrib_right
  rw [hdist, hand]
  by_cases hij : j = i
  · rw [if_pos hij, if_pos hij]
    simp [UInt8.or_eq_zero_iff, hbit]
  · rw [if_neg hij, if_neg hij, UInt8.or_zero]

theorem ofByte_or {i : Nat} (hi : i < 8) (byte : UInt8) :
    ofByte (byte ||| ((0x80 : UInt8) >>> i.toUInt8)) = (ofByte byte).set i true := by
  refine List.ext_getElem? fun j => ?_
  by_cases hj : j < 8
  · rw [getElem?_ofByte hj, bitAt_or hi hj, List.getElem?_set, length_ofByte, getElem?_ofByte hj]
    by_cases hij : j = i
    · simp [hij, hi]
    · rw [if_neg hij, if_neg (Ne.symm hij)]
  · rw [List.getElem?_eq_none (by simpa using hj), List.getElem?_eq_none (by simpa using hj)]

theorem ofByte_zero : ofByte 0 = List.replicate 8 false := by decide

/-! ### Numbers -/

/-- The low `width` bits of a number, the most significant one first. -/
def ofNat : Nat → Nat → List Bool
  | 0, _ => []
  | width + 1, value => value.testBit width :: ofNat width value

def toNat (bits : List Bool) : Nat := bits.foldl (fun value bit => 2 * value + bit.toNat) 0

@[simp]
theorem length_ofNat (width value : Nat) : (ofNat width value).length = width := by
  induction width with
  | zero => rfl
  | succ width ih => rw [ofNat, List.length_cons, ih]

theorem foldl_toNat (bits : List Bool) (value : Nat) :
    bits.foldl (fun value bit => 2 * value + bit.toNat) value = value * 2 ^ bits.length + toNat bits := by
  induction bits generalizing value with
  | nil => simp [toNat]
  | cons bit bits ih =>
      have hcons : toNat (bit :: bits) = (2 * 0 + bit.toNat) * 2 ^ bits.length + toNat bits := by
        unfold toNat
        rw [List.foldl_cons, ih]
        rfl
      have hdouble : value * (2 ^ bits.length * 2) = 2 * value * 2 ^ bits.length := by
        rw [Nat.mul_comm (2 ^ bits.length) 2, ← Nat.mul_assoc, Nat.mul_comm value 2]
      rw [List.foldl_cons, ih, hcons, List.length_cons, Nat.pow_succ, hdouble, Nat.add_mul, Nat.mul_zero,
        Nat.zero_add, Nat.add_assoc]

theorem toNat_cons (bit : Bool) (bits : List Bool) :
    toNat (bit :: bits) = bit.toNat * 2 ^ bits.length + toNat bits := by
  unfold toNat
  rw [List.foldl_cons, foldl_toNat, Nat.mul_zero, Nat.zero_add]
  rfl

theorem toNat_lt (bits : List Bool) : toNat bits < 2 ^ bits.length := by
  induction bits with
  | nil => exact Nat.one_pos
  | cons bit bits ih =>
      rw [toNat_cons, List.length_cons, Nat.pow_succ]
      have hbit : bit.toNat ≤ 1 := Bool.toNat_le bit
      have hhigh : bit.toNat * 2 ^ bits.length ≤ 1 * 2 ^ bits.length := Nat.mul_le_mul_right _ hbit
      omega

theorem toNat_ofNat (width value : Nat) : toNat (ofNat width value) = value % 2 ^ width := by
  induction width with
  | zero => rw [ofNat, Nat.pow_zero, Nat.mod_one]; rfl
  | succ width ih =>
      rw [ofNat, toNat_cons, length_ofNat, ih, Nat.testBit_eq_decide_div_mod_eq, Nat.mod_pow_succ]
      rcases Nat.mod_two_eq_zero_or_one (value / 2 ^ width) with hbit | hbit
      · rw [hbit]
        simp
      · rw [hbit]
        simp [Nat.add_comm]

theorem ofNat_add_mul (width value high : Nat) : ofNat width (value + high * 2 ^ width) = ofNat width value := by
  have hlow : ∀ n ≤ width, ofNat n (value + high * 2 ^ width) = ofNat n value := by
    intro n
    induction n with
    | zero => exact fun _ => rfl
    | succ n ih =>
        intro hn
        have hsplit : 2 ^ width = 2 ^ (n + 1) * 2 ^ (width - (n + 1)) := by
          rw [← Nat.pow_add, Nat.add_sub_cancel' hn]
        have hmod : (value + high * 2 ^ width) % 2 ^ (n + 1) = value % 2 ^ (n + 1) := by
          rw [hsplit, Nat.mul_left_comm, Nat.add_mul_mod_self_left]
        have hbit : (value + high * 2 ^ width).testBit n = value.testBit n := by
          have hleft := Nat.testBit_mod_two_pow (value + high * 2 ^ width) (n + 1) n
          have hright := Nat.testBit_mod_two_pow value (n + 1) n
          rw [hmod, hright] at hleft
          simpa using hleft.symm
        rw [ofNat, ofNat, hbit, ih (by omega)]
  exact hlow width (Nat.le_refl _)

theorem ofNat_toNat (bits : List Bool) : ofNat bits.length (toNat bits) = bits := by
  induction bits with
  | nil => rfl
  | cons bit bits ih =>
      have hlt := toNat_lt bits
      rw [toNat_cons, List.length_cons, ofNat, Nat.add_comm, ofNat_add_mul, ih]
      congr 1
      rw [Nat.testBit_eq_decide_div_mod_eq, Nat.add_mul_div_right _ _ (Nat.two_pow_pos _),
        Nat.div_eq_of_lt hlt, Nat.zero_add]
      cases bit with
      | false => rfl
      | true => rfl

theorem ofByte_eq_ofNat (byte : UInt8) : ofByte byte = ofNat 8 byte.toNat := by
  have hall : ∀ n : Fin 256, ofByte (UInt8.ofNat n) = ofNat 8 n := by decide +kernel
  have hbyte := hall ⟨byte.toNat, byte.toNat_lt⟩
  simpa using hbyte

/-! ### Bytes again -/

/-- The first bytes of a stream of bits. -/
def toBytes (bits : List Bool) : Nat → List UInt8
  | 0 => []
  | length + 1 => (toNat (bits.take 8)).toUInt8 :: toBytes (bits.drop 8) length

@[simp]
theorem length_toBytes (bits : List Bool) (length : Nat) : (toBytes bits length).length = length := by
  induction length generalizing bits with
  | zero => rfl
  | succ length ih => rw [toBytes, List.length_cons, ih]

theorem ofBytes_toBytes {bits : List Bool} {length : Nat} (h : 8 * length ≤ bits.length) :
    ofBytes (toBytes bits length) = bits.take (8 * length) := by
  induction length generalizing bits with
  | zero => rw [Nat.mul_zero, List.take_zero]; rfl
  | succ length ih =>
      have hfirst : (bits.take 8).length = 8 := by
        rw [List.length_take]
        omega
      have hbyte : ofByte (toNat (bits.take 8)).toUInt8 = bits.take 8 := by
        have hlt := toNat_lt (bits.take 8)
        have hback := ofNat_toNat (bits.take 8)
        rw [hfirst] at hlt hback
        rw [ofByte_eq_ofNat, Nat.toUInt8_eq, UInt8.toNat_ofNat', Nat.mod_eq_of_lt hlt, hback]
      have hrest : 8 * length ≤ (bits.drop 8).length := by
        rw [List.length_drop]
        omega
      have hsplit : 8 * (length + 1) = 8 + 8 * length := by omega
      rw [toBytes, ofBytes_cons, hbyte, ih hrest, hsplit, List.take_add]

theorem toBytes_add (bits : List Bool) (length length' : Nat) :
    toBytes bits (length + length') = toBytes bits length ++ toBytes (bits.drop (8 * length)) length' := by
  induction length generalizing bits with
  | zero => rw [Nat.zero_add, Nat.mul_zero, List.drop_zero]; rfl
  | succ length ih =>
      have hdrop : 8 + 8 * length = 8 * (length + 1) := by omega
      rw [Nat.add_right_comm, toBytes, toBytes, ih, List.drop_drop, hdrop, List.cons_append]

theorem toBytes_ofBytes (bytes : List UInt8) : toBytes (ofBytes bytes) bytes.length = bytes := by
  induction bytes with
  | nil => rfl
  | cons byte bytes ih =>
      have hbyte : toNat (ofByte byte) = byte.toNat := by
        rw [ofByte_eq_ofNat, toNat_ofNat]
        exact Nat.mod_eq_of_lt byte.toNat_lt
      rw [ofBytes_cons, List.length_cons, toBytes, List.take_left' (length_ofByte byte),
        List.drop_left' (length_ofByte byte), ih, hbyte, Nat.toUInt8_eq, UInt8.ofNat_toNat]

theorem ofBytes_drop (bytes : List UInt8) (length : Nat) :
    (ofBytes bytes).drop (8 * length) = ofBytes (bytes.drop length) := by
  induction length generalizing bytes with
  | zero => rfl
  | succ length ih =>
      cases bytes with
      | nil => rw [List.drop_nil, ofBytes_nil, List.drop_nil]
      | cons byte bytes =>
          have hdrop : 8 * (length + 1) = 8 + 8 * length := by omega
          rw [ofBytes_cons, hdrop, ← List.drop_drop, List.drop_left' (length_ofByte byte), ih, List.drop_succ_cons]

/-! ### The last one bit -/

/-- A list of bits ends in one way in a one bit and zeros. -/
theorem append_replicate_inj {bs bs' : List Bool} {k k' : Nat}
    (h : bs ++ true :: List.replicate k false = bs' ++ true :: List.replicate k' false) :
    bs = bs' ∧ k = k' := by
  have hreverse : List.replicate k false ++ true :: bs.reverse =
      List.replicate k' false ++ true :: bs'.reverse := by
    have := congrArg List.reverse h
    simpa using this
  have hstart : ∀ (k k' : Nat) (as as' : List Bool),
      List.replicate k false ++ true :: as = List.replicate k' false ++ true :: as' →
        as = as' ∧ k = k' := by
    intro k
    induction k with
    | zero =>
        intro k' as as' heq
        cases k' with
        | zero => simpa using heq
        | succ k' => simp [List.replicate_succ] at heq
    | succ k ih =>
        intro k' as as' heq
        cases k' with
        | zero => simp [List.replicate_succ] at heq
        | succ k' =>
            rw [List.replicate_succ, List.replicate_succ, List.cons_append, List.cons_append,
              List.cons.injEq] at heq
            exact (ih k' as as' heq.2).imp_right (congrArg (· + 1))
  exact (hstart k k' _ _ hreverse).imp_left List.reverse_inj.mp

theorem append_true_ne_replicate (bs : List Bool) (k n : Nat) :
    bs ++ true :: List.replicate k false ≠ List.replicate n false := by
  intro h
  have hmem : true ∈ List.replicate n false := by
    rw [← h]
    simp
  exact absurd (List.eq_of_mem_replicate hmem) (by decide)

end Bits
