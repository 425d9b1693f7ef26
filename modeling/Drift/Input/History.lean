import Drift.Input.Keyboard

/-!
# What should be pressed

`History` says which scancodes a session should hold on the remote, from the calls alone: the
scancode each key still down was sent with, the modifiers held according to the last flags, and the
scancode each of them was sent with. There is no reference count, no deferral and no event here; a
Command key is simply held without having been sent until the first key or pointer button used with
it.
-/

namespace Drift.Input

structure History where
  prefs : KeyboardPrefs
  keyboard : KeyboardType
  /-- The last flags seen. -/
  flags : ModifierFlags
  mods : ModifierSet
  /-- The scancode each modifier was sent with, since it is held. -/
  sent : ModifierKey → Option Scancode
  /-- The scancode each other key was sent with, since it is down. -/
  keys : UInt16 → Option Scancode

namespace History

def start (prefs : KeyboardPrefs) (keyboard : KeyboardType) : History where
  prefs := prefs
  keyboard := keyboard
  flags := ⟨0⟩
  mods := ∅
  sent := fun _ => none
  keys := fun _ => none

/-- New flags: a modifier that is no longer held was sent with nothing any more, and one that is
newly held is sent at once unless it is a Command key. -/
def see (h : History) (flags : ModifierFlags) (changed : Option UInt16) : History :=
  let mods := heldModifiers flags changed h.mods
  { h with
    flags := flags
    mods := mods
    sent := fun key =>
      if key ∉ mods then none
      else if key ∈ h.mods ∨ key.isCommand then h.sent key
      else scancodeFor key.kvk h.keyboard h.prefs.cmdAs }

/-- A key or a button is used: the Command keys held are sent if they were not yet. -/
def useCommand (h : History) : History :=
  { h with
    sent := fun key =>
      if key ∈ h.mods ∧ key.isCommand ∧ h.sent key = none then
        scancodeFor key.kvk h.keyboard h.prefs.cmdAs
      else h.sent key }

def keyDownScancode (h : History) (code : UInt16) (flags : ModifierFlags) : History :=
  let h := h.see flags none
  if isModifier code ∨ (h.keys code).isSome then h
  else
    match scancodeFor code h.keyboard h.prefs.cmdAs with
    | none => h
    | some sc => { h.useCommand with keys := Function.update h.keys code (some sc) }

def apply (h : History) : Keyboard.Op → History
  | .setPrefs prefs => { h with prefs := prefs }
  | .setKeyboardType keyboard => { h with keyboard := keyboard }
  | .flagsChanged code flags => h.see flags (some code)
  | .keyDown code flags isRepeat composing =>
    if routeKeyDown h.prefs code flags composing = .scancode ∧ isRepeat = false then
      h.keyDownScancode code flags
    else h
  | .keyDownScancode code flags => h.keyDownScancode code flags
  | .keyUp code => { h with keys := Function.update h.keys code none }
  | .preparePointerButton => h.useCommand
  | .focusLost => { h with mods := ∅, sent := fun _ => none, keys := fun _ => none }
  | .focusGained flags => h.see flags none
  | .insertText _ | .menuShortcutTaken | .ctrlAltDel => h

/-- The history of a list of calls on a fresh keyboard. -/
def session (prefs : KeyboardPrefs) (keyboard : KeyboardType) (ops : List Keyboard.Op) : History :=
  ops.foldl apply (start prefs keyboard)

/-- A scancode that a key still down was sent with. -/
def KeyHolds (h : History) (sc : Scancode) : Prop := ∃ code, h.keys code = some sc

/-- A scancode that a modifier still held was sent with. -/
def ModifierHolds (h : History) (sc : Scancode) : Prop := ∃ key ∈ h.mods, h.sent key = some sc

end History

end Drift.Input
