import Drift.Core.Geometry
import Mathlib.Data.List.Basic

/-!
# Tokens of ZGFX

The forty tokens of the compressed stream, each behind a code word of its own.
-/

namespace Drift.Zgfx

/-- The sliding window of both sides. -/
def historySize : Nat := 2500000

inductive TokenType where
  | nullLiteral
  | literal (literalValue : UInt8)
  | «match» (distanceValueSize distanceBase : Nat)
  deriving DecidableEq

structure Token where
  tokenPrefix : List Bool
  ty : TokenType
  deriving DecidableEq

/-- The digits of a code word, the first bit first. -/
def bits (digits : List Nat) : List Bool := digits.map (· = 1)

def tokenTable : List Token :=
  [⟨bits [0], .nullLiteral⟩,
    ⟨bits [1, 1, 0, 0, 0], .literal 0x00⟩,
    ⟨bits [1, 1, 0, 0, 1], .literal 0x01⟩,
    ⟨bits [1, 1, 0, 1, 0, 0], .literal 0x02⟩,
    ⟨bits [1, 1, 0, 1, 0, 1], .literal 0x03⟩,
    ⟨bits [1, 1, 0, 1, 1, 0], .literal 0xff⟩,
    ⟨bits [1, 1, 0, 1, 1, 1, 0], .literal 0x04⟩,
    ⟨bits [1, 1, 0, 1, 1, 1, 1], .literal 0x05⟩,
    ⟨bits [1, 1, 1, 0, 0, 0, 0], .literal 0x06⟩,
    ⟨bits [1, 1, 1, 0, 0, 0, 1], .literal 0x07⟩,
    ⟨bits [1, 1, 1, 0, 0, 1, 0], .literal 0x08⟩,
    ⟨bits [1, 1, 1, 0, 0, 1, 1], .literal 0x09⟩,
    ⟨bits [1, 1, 1, 0, 1, 0, 0], .literal 0x0a⟩,
    ⟨bits [1, 1, 1, 0, 1, 0, 1], .literal 0x0b⟩,
    ⟨bits [1, 1, 1, 0, 1, 1, 0], .literal 0x3a⟩,
    ⟨bits [1, 1, 1, 0, 1, 1, 1], .literal 0x3b⟩,
    ⟨bits [1, 1, 1, 1, 0, 0, 0], .literal 0x3c⟩,
    ⟨bits [1, 1, 1, 1, 0, 0, 1], .literal 0x3d⟩,
    ⟨bits [1, 1, 1, 1, 0, 1, 0], .literal 0x3e⟩,
    ⟨bits [1, 1, 1, 1, 0, 1, 1], .literal 0x3f⟩,
    ⟨bits [1, 1, 1, 1, 1, 0, 0], .literal 0x40⟩,
    ⟨bits [1, 1, 1, 1, 1, 0, 1], .literal 0x80⟩,
    ⟨bits [1, 1, 1, 1, 1, 1, 0, 0], .literal 0x0c⟩,
    ⟨bits [1, 1, 1, 1, 1, 1, 0, 1], .literal 0x38⟩,
    ⟨bits [1, 1, 1, 1, 1, 1, 1, 0], .literal 0x39⟩,
    ⟨bits [1, 1, 1, 1, 1, 1, 1, 1], .literal 0x66⟩,
    ⟨bits [1, 0, 0, 0, 1], .match 5 0⟩,
    ⟨bits [1, 0, 0, 1, 0], .match 7 32⟩,
    ⟨bits [1, 0, 0, 1, 1], .match 9 160⟩,
    ⟨bits [1, 0, 1, 0, 0], .match 10 672⟩,
    ⟨bits [1, 0, 1, 0, 1], .match 12 1696⟩,
    ⟨bits [1, 0, 1, 1, 0, 0], .match 14 5792⟩,
    ⟨bits [1, 0, 1, 1, 0, 1], .match 15 22176⟩,
    ⟨bits [1, 0, 1, 1, 1, 0, 0], .match 18 54944⟩,
    ⟨bits [1, 0, 1, 1, 1, 0, 1], .match 20 317088⟩,
    ⟨bits [1, 0, 1, 1, 1, 1, 0, 0], .match 20 1365664⟩,
    ⟨bits [1, 0, 1, 1, 1, 1, 0, 1], .match 21 2414240⟩,
    ⟨bits [1, 0, 1, 1, 1, 1, 1, 0, 0], .match 22 4511392⟩,
    ⟨bits [1, 0, 1, 1, 1, 1, 1, 0, 1], .match 23 8705696⟩,
    ⟨bits [1, 0, 1, 1, 1, 1, 1, 1, 0], .match 24 17094304⟩]

end Drift.Zgfx
