import Mathlib.Data.Rat.Floor

/-!
# Numbers that programs compute with

A program that computes with floating-point numbers is stated over any type with the operations it uses:
the machine's numbers with their rounding, or the rational ones, which are exact and all finite.
-/

/-- Numbers with the operations of the machine's. -/
class Scalar (F : Type) extends Add F, Sub F, Mul F, Div F, Neg F where
  ofNat : Nat → F
  le : F → F → Bool
  isNaN : F → Bool
  isFinite : F → Bool
  floor : F → F
  trunc : F → F
  /-- The value of an integral number. -/
  toInt : F → Int

namespace Scalar

variable {F : Type} [Scalar F]

def lt (a b : F) : Bool := le a b && !le b a

/-- The smaller of two numbers, or the one that is a number. -/
def min (a b : F) : F := if isNaN a then b else if isNaN b then a else if le a b then a else b

/-- The larger of two numbers, or the one that is a number. -/
def max (a b : F) : F := if isNaN a then b else if isNaN b then a else if le a b then b else a

def clamp (a low high : F) : F := if lt a low then low else if lt high a then high else a

instance : Scalar Float where
  ofNat := Float.ofNat
  le a b := decide (a ≤ b)
  isNaN := Float.isNaN
  isFinite := Float.isFinite
  floor := Float.floor
  trunc a := if a < 0 then a.ceil else a.floor
  toInt a := a.toInt64.toInt

instance : Scalar ℚ where
  ofNat n := n
  le a b := decide (a ≤ b)
  isNaN _ := false
  isFinite _ := true
  floor a := ⌊a⌋
  trunc a := if a < 0 then ⌈a⌉ else ⌊a⌋
  toInt a := ⌊a⌋

end Scalar
