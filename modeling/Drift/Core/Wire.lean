import Drift.Core.Geometry
import Drift.Lib.Prefix
import Mathlib.Data.Nat.Digits.Defs

/-!
# Bytes of the wire

Little-endian numbers, and the cursor from which the decoders of the protocol crates read. A decoder makes
sure of the size of a part first, and then reads its fields.
-/

namespace Drift

/-- `from_le_bytes`, of any width. -/
def ofLeBytes (bytes : Bytes) : Nat := Nat.ofDigits 256 (bytes.map UInt8.toNat)

/-- `to_le_bytes`, of any width. -/
def toLeBytes : Nat → Nat → Bytes
  | 0, _ => []
  | width + 1, value => (value % 256).toUInt8 :: toLeBytes width (value / 256)

@[simp]
theorem length_toLeBytes (width value : Nat) : (toLeBytes width value).length = width := by
  induction width generalizing value with
  | zero => rfl
  | succ width ih => rw [toLeBytes, List.length_cons, ih]

theorem ofLeBytes_toLeBytes {width value : Nat} (h : value < 256 ^ width) :
    ofLeBytes (toLeBytes width value) = value := by
  induction width generalizing value with
  | zero =>
      rw [Nat.pow_zero, Nat.lt_one_iff] at h
      rw [h]
      rfl
  | succ width ih =>
      have hlow : (value % 256).toUInt8.toNat = value % 256 := by
        rw [Nat.toUInt8_eq, UInt8.toNat_ofNat']
        exact Nat.mod_mod value 256
      have hhigh : value / 256 < 256 ^ width := by
        rw [Nat.pow_succ] at h
        exact Nat.div_lt_of_lt_mul (Nat.mul_comm _ 256 ▸ h)
      calc ofLeBytes (toLeBytes (width + 1) value)
          = (value % 256).toUInt8.toNat + 256 * ofLeBytes (toLeBytes width (value / 256)) :=
            Nat.ofDigits_cons
        _ = value % 256 + 256 * (value / 256) := by rw [hlow, ih hhigh]
        _ = value := Nat.mod_add_div value 256

/-- How many bytes were taken, and those that lie ahead. -/
structure ReadCursor where
  pos : Nat
  ahead : Bytes

/-- The error of a part that is cut short; the name of its decoder is left out. -/
structure NotEnoughBytes where
  received : Nat
  expected : Nat
  offset : Nat
  deriving DecidableEq

abbrev Decoder := StateT ReadCursor (Except NotEnoughBytes)

namespace ReadCursor

def new (data : Bytes) : ReadCursor := ⟨0, data⟩

def source : Prefix.Source ReadCursor UInt8 where
  ahead := ahead
  skip c n := ⟨c.pos + n, c.ahead.drop n⟩
  skip_zero _ := rfl
  skip_skip c m n := by rw [List.drop_drop, Nat.add_assoc]
  ahead_skip _ _ := rfl

def ensureSize (expected : Nat) : Decoder Unit := fun c =>
  if expected ≤ c.ahead.length then .ok ((), c) else .error ⟨c.ahead.length, expected, c.pos⟩

/-- The next `n` bytes; that there are as many was ensured. -/
def readArray (n : Nat) : Decoder Bytes := fun c => .ok (c.ahead.take n, source.skip c n)

def readU8 : Decoder UInt8 := do return (← readArray 1).headD 0

def readU16 : Decoder Nat := do return ofLeBytes (← readArray 2)

def readU32 : Decoder Nat := do return ofLeBytes (← readArray 4)

@[simp] theorem bind_readArray {α : Type} (n : Nat) (k : Bytes → Decoder α) (c : ReadCursor) :
    (readArray n >>= k) c = k (c.ahead.take n) (source.skip c n) := rfl

@[simp] theorem pure_apply {α : Type} (a : α) (c : ReadCursor) :
    (pure a : Decoder α) c = .ok (a, c) := rfl

/-- What is left, which stays. -/
def remaining : Decoder Bytes := fun c => .ok (c.ahead, c)

/-- A part whose size is ensured before its fields are read. -/
theorem fixed_ensured {α : Type} {p : Decoder α} {n : Nat} {f : Bytes → α}
    (h : ∀ c, p c = .ok (f (c.ahead.take n), source.skip c n)) :
    Prefix.Fixed source (do ensureSize n; p) n f where
  ok c hc := by
    have hensured : ensureSize n c = .ok ((), c) := if_pos hc
    rw [Prefix.bind_of_ok hensured, h]
    rfl
  error c hc := ⟨_, Prefix.bind_of_error (if_neg (Nat.not_le.mpr hc))⟩

end ReadCursor

end Drift
