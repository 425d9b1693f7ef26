import Mathlib.Order.Basic
import Std.Data.ExtTreeMap

/-!
# Input events

The events a session sends to the server, the scancodes in them, and the preferences of a profile
that decide which events a key becomes.
-/

namespace Drift.Input

open Std

/-- Pointer buttons of fast-path input. -/
inductive MouseButton where
  | left
  | right
  | middle
  | x1
  | x2
  deriving DecidableEq

/-- One input event in remote desktop coordinates. -/
inductive InputEvent where
  | key (scancode : UInt8) (extended down : Bool)
  | unicode (ch : UInt16) (down : Bool)
  | mouseMove (x y : UInt16)
  | mouseButton (button : MouseButton) (down : Bool) (x y : UInt16)
  | wheel (horizontal : Bool) (units : Int16)
  | syncToggles (caps num : Bool)
  | releaseAll
  deriving DecidableEq

/-- What the Command key is sent as. -/
inductive CmdAs where
  | super
  | ctrl
  deriving DecidableEq

structure KeyboardPrefs where
  cmdAs : CmdAs
  typeWithMacLayout : Bool
  deriving DecidableEq

/-- A set-1 scancode, with the `0xE0` prefix as a flag. -/
structure Scancode where
  code : UInt8
  extended : Bool
  deriving DecidableEq

namespace Scancode

def new (code : UInt8) : Scancode := ⟨code, false⟩

def ext (code : UInt8) : Scancode := ⟨code, true⟩

/-- The press or release event of a scancode. -/
def event (sc : Scancode) (down : Bool) : InputEvent := .key sc.code sc.extended down

/-- Scancodes are ordered by code, then prefix. -/
instance : Ord Scancode :=
  ⟨compareLex (compareOn Scancode.code) (compareOn Scancode.extended)⟩

instance : TransOrd Scancode :=
  inferInstanceAs (TransCmp (compareLex (compareOn Scancode.code) (compareOn Scancode.extended)))

instance : LawfulEqOrd Scancode where
  eq_of_compare {a b} h := by
    simp only [compare, compareLex, Ordering.then_eq_eq] at h
    have hcode : a.code = b.code := Std.compare_eq_iff_eq.mp h.1
    have hextended : a.extended = b.extended := Std.compare_eq_iff_eq.mp h.2
    cases a
    cases b
    simp_all

end Scancode

end Drift.Input
