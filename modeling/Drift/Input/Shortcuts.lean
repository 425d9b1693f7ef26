import Drift.Input.Modifiers

/-!
# Menu shortcuts

The combos that go to the menu instead of the remote. They are matched by the character, or by the
position of the key where the layout types no ASCII character.
-/

namespace Drift.Input

/-- A shortcut of the menu. -/
inductive MenuShortcut where
  | newConnection
  | showConnections
  | editConnection
  | disconnect
  | closeWindow
  | quit
  | selectSession (n : Nat)
  | cycleWindows
  deriving DecidableEq

def graveAccent : Char := Char.ofNat 0x60

/-- The US-ANSI character at the key position of a shortcut. -/
def ansiPositionChar (code : UInt16) : Option Char :=
  if code = kvk.ansiN then some 'n'
  else if code = kvk.ansiE then some 'e'
  else if code = kvk.ansiD then some 'd'
  else if code = kvk.ansiW then some 'w'
  else if code = kvk.ansiQ then some 'q'
  else if code = kvk.ansiGrave then some graveAccent
  else none

def digitCodes : List UInt16 :=
  [kvk.ansi0, kvk.ansi1, kvk.ansi2, kvk.ansi3, kvk.ansi4, kvk.ansi5, kvk.ansi6, kvk.ansi7,
    kvk.ansi8, kvk.ansi9]

/-- The digit of a key of the digit row, by position. -/
def digit (code : UInt16) : Option Nat := digitCodes.idxOf? code

/-- The one ASCII character typed, in lower case. -/
def typedChar (charsIgnoringModifiers : String) : Option Char :=
  match charsIgnoringModifiers.toList with
  | [c] => if c.toNat < 128 then some c.toLower else none
  | _ => none

/-- The shortcut of a key, for the menu; other combos are for the remote. -/
def menuShortcut (code : UInt16) (charsIgnoringModifiers : String) (flags : ModifierFlags) :
    Option MenuShortcut :=
  if !flags.command || flags.control || flags.option then none
  else
    let key := (typedChar charsIgnoringModifiers).or (ansiPositionChar code)
    if flags.shift then
      if key = some 'd' then some .disconnect else none
    else
      match digit code with
      | some 0 => some .showConnections
      | some n => some (.selectSession n)
      | none => key.bind fun c =>
        if c = 'n' then some .newConnection
        else if c = 'e' then some .editConnection
        else if c = 'w' then some .closeWindow
        else if c = 'q' then some .quit
        else if c = graveAccent then some .cycleWindows
        else if c = '0' then some .showConnections
        else if '1' ≤ c ∧ c ≤ '9' then some (.selectSession (c.toNat - '0'.toNat))
        else none

end Drift.Input
