import Drift.Input.Unicode
import Drift.Lib.RefCount
import Drift.Lib.Transition

/-!
# The keyboard translator

`Keyboard` turns key, flags, text and focus notifications into input events. Scancodes shared by
several local keys are reference counted in `pressed`; the Command keys are deferred in `cmdPending`
until another key or a pointer button is used with them. The internal operations take and return an
`Emitting`: the keyboard and the events of the operation so far, which the source passes along as
`out`.
-/

namespace Drift.Input

open Std

/-- Scancodes lifted around Unicode events: Shift, Alt and AltGr. -/
def textLevelModifiers : List Scancode := [.new 0x2A, .new 0x36, .new 0x38, .ext 0x38]

/-- Result of `Keyboard.keyDown`. -/
inductive KeyDown where
  | send (events : List InputEvent)
  | interpretText
  deriving DecidableEq

structure Keyboard where
  prefs : KeyboardPrefs
  keyboard : KeyboardType
  mods : ModifierSet
  modSent : ModifierKey → Option Scancode
  cmdPending : ModifierSet
  cmdConsumed : ModifierSet
  heldKeys : ExtTreeMap UInt16 Scancode
  pressed : RefCount.Counts Scancode
  caps : Option Bool

namespace Keyboard

abbrev Emitting := Keyboard × List InputEvent

def new (prefs : KeyboardPrefs) (keyboard : KeyboardType) : Keyboard where
  prefs := prefs
  keyboard := keyboard
  mods := ∅
  modSent := fun _ => none
  cmdPending := ∅
  cmdConsumed := ∅
  heldKeys := ∅
  pressed := ∅
  caps := none

/-- Scancodes the remote currently considers pressed, in ascending order. -/
def remotePressed (kb : Keyboard) : List Scancode := kb.pressed.keys

/-! ### Internal operations -/

/-- One more use of a scancode; the counts are `u8` and saturate. -/
def press (sc : Scancode) (p : Emitting) : Emitting :=
  ({ p.1 with pressed := RefCount.acquire 255 p.1.pressed sc },
    if RefCount.count p.1.pressed sc = 0 then p.2 ++ [sc.event true] else p.2)

/-- One use less of a scancode; a scancode that is not pressed is left alone. -/
def release (sc : Scancode) (p : Emitting) : Emitting :=
  match p.1.pressed[sc]? with
  | none => p
  | some count =>
    ({ p.1 with pressed := RefCount.release p.1.pressed sc },
      if count - 1 = 0 then p.2 ++ [sc.event false] else p.2)

/-- The scancode of a modifier key under the current preferences and keyboard type. -/
def modifierScancode (kb : Keyboard) (key : ModifierKey) : Option Scancode :=
  scancodeFor key.kvk kb.keyboard kb.prefs.cmdAs

/-- Emits `SyncToggles` when the Caps Lock state changed, or always with `force`. -/
def syncCaps (flags : ModifierFlags) (force : Bool) (p : Emitting) : Emitting :=
  let changed := p.1.caps.any fun c => c ≠ flags.capsLock
  ({ p.1 with caps := some flags.capsLock },
    if force || changed then p.2 ++ [.syncToggles flags.capsLock true] else p.2)

def pressModifier (key : ModifierKey) (p : Emitting) : Emitting :=
  if key.isCommand then
    ({ p.1 with
        cmdPending := insert key p.1.cmdPending
        cmdConsumed := p.1.cmdConsumed.erase key }, p.2)
  else
    match p.1.modifierScancode key with
    | none => p
    | some sc =>
      let p := press sc p
      ({ p.1 with modSent := Function.update p.1.modSent key (some sc) }, p.2)

def releaseModifier (key : ModifierKey) (p : Emitting) : Emitting :=
  if key ∈ p.1.cmdPending then
    let consumed := decide (key ∈ p.1.cmdConsumed)
    let p : Emitting :=
      ({ p.1 with
          cmdPending := p.1.cmdPending.erase key
          cmdConsumed := p.1.cmdConsumed.erase key }, p.2)
    if consumed then p
    else
      -- A lone tap.
      match p.1.modifierScancode key with
      | none => p
      | some sc => release sc (press sc p)
  else
    match p.1.modSent key with
    | none => p
    | some sc =>
      release sc ({ p.1 with modSent := Function.update p.1.modSent key none }, p.2)

/-- Diffs the held modifiers: releases first, last class first, then presses. -/
def applyModifiers (flags : ModifierFlags) (changed : Option UInt16) (p : Emitting) : Emitting :=
  let mods := p.1.mods
  let held := heldModifiers flags changed mods
  let p := ModifierKey.all.reverse.foldl
    (fun p key => if key ∈ mods ∧ key ∉ held then releaseModifier key p else p) p
  let p := ModifierKey.all.foldl
    (fun p key => if key ∉ mods ∧ key ∈ held then pressModifier key p else p) p
  ({ p.1 with mods := held }, p.2)

def sendCommand (p : Emitting) (key : ModifierKey) : Emitting :=
  match p.1.modifierScancode key with
  | none => p
  | some sc =>
    let p := press sc p
    ({ p.1 with modSent := Function.update p.1.modSent key (some sc) }, p.2)

def flushCommand (p : Emitting) : Emitting :=
  let p := p.1.cmdPending.iter.foldl sendCommand p
  ({ p.1 with cmdPending := ∅, cmdConsumed := ∅ }, p.2)

/-! ### Operations -/

def setPrefs (kb : Keyboard) (prefs : KeyboardPrefs) : Keyboard := { kb with prefs := prefs }

def setKeyboardType (kb : Keyboard) (keyboard : KeyboardType) : Keyboard :=
  { kb with keyboard := keyboard }

def flagsChanged (kb : Keyboard) (code : UInt16) (flags : ModifierFlags) : Emitting :=
  applyModifiers flags (some code) (syncCaps flags (code = kvk.capsLock) (kb, []))

/-- Sends a key as a scancode press whatever its routing. -/
def keyDownScancode (kb : Keyboard) (code : UInt16) (flags : ModifierFlags) : Emitting :=
  let p := applyModifiers flags none (syncCaps flags false (kb, []))
  if isModifier code || p.1.heldKeys.contains code then p
  else
    match scancodeFor code p.1.keyboard p.1.prefs.cmdAs with
    | none => p
    | some sc =>
      let p := press sc (flushCommand p)
      ({ p.1 with heldKeys := p.1.heldKeys.insert code sc }, p.2)

def keyDown (kb : Keyboard) (code : UInt16) (flags : ModifierFlags) (isRepeat composing : Bool) :
    Keyboard × KeyDown :=
  match routeKeyDown kb.prefs code flags composing with
  | .text => (kb, .interpretText)
  | .scancode =>
    if isRepeat then (kb, .send [])
    else
      let p := kb.keyDownScancode code flags
      (p.1, .send p.2)

/-- Releases the scancode sent for a key, if any. -/
def keyUp (kb : Keyboard) (code : UInt16) : Emitting :=
  match kb.heldKeys[code]? with
  | none => (kb, [])
  | some sc => release sc ({ kb with heldKeys := kb.heldKeys.erase code }, [])

/-- Unicode events for committed text, with the held text-level modifiers lifted around them. -/
def insertText (kb : Keyboard) (text : String) : List InputEvent :=
  let textEvents := textToEvents text
  if textEvents.isEmpty then textEvents
  else
    let lifted := textLevelModifiers.filter kb.pressed.contains
    lifted.map (·.event false) ++ textEvents ++ lifted.map (·.event true)

def menuShortcutTaken (kb : Keyboard) : Keyboard := { kb with cmdConsumed := kb.cmdPending }

def preparePointerButton (kb : Keyboard) : Emitting := flushCommand (kb, [])

/-- Releases what the remote considers pressed and forgets all key state. -/
def focusLost (kb : Keyboard) : Emitting :=
  ({ kb with
      pressed := ∅
      heldKeys := ∅
      mods := ∅
      modSent := fun _ => none
      cmdPending := ∅
      cmdConsumed := ∅ }, kb.pressed.keys.map (·.event false))

def focusGained (kb : Keyboard) (flags : ModifierFlags) : Emitting :=
  applyModifiers flags none (syncCaps flags true (kb, []))

def ctrlAltDelSequence : List Scancode := [.new 0x1D, .new 0x38, .ext 0x53]

def ctrlAltDel (kb : Keyboard) : Emitting :=
  let p := ctrlAltDelSequence.foldl (fun p sc => press sc p) (kb, [])
  ctrlAltDelSequence.reverse.foldl (fun p sc => release sc p) p

/-- One call on a keyboard. -/
inductive Op where
  | setPrefs (prefs : KeyboardPrefs)
  | setKeyboardType (keyboard : KeyboardType)
  | flagsChanged (code : UInt16) (flags : ModifierFlags)
  | keyDown (code : UInt16) (flags : ModifierFlags) (isRepeat composing : Bool)
  | keyDownScancode (code : UInt16) (flags : ModifierFlags)
  | keyUp (code : UInt16)
  | insertText (text : String)
  | menuShortcutTaken
  | preparePointerButton
  | focusLost
  | focusGained (flags : ModifierFlags)
  | ctrlAltDel

/-- The keyboard after one call and the events the call returned. -/
def apply (kb : Keyboard) : Op → Emitting
  | .setPrefs prefs => (kb.setPrefs prefs, [])
  | .setKeyboardType keyboard => (kb.setKeyboardType keyboard, [])
  | .flagsChanged code flags => kb.flagsChanged code flags
  | .keyDown code flags isRepeat composing =>
    match kb.keyDown code flags isRepeat composing with
    | (kb, .send events) => (kb, events)
    | (kb, .interpretText) => (kb, [])
  | .keyDownScancode code flags => kb.keyDownScancode code flags
  | .keyUp code => kb.keyUp code
  | .insertText text => (kb, kb.insertText text)
  | .menuShortcutTaken => (kb.menuShortcutTaken, [])
  | .preparePointerButton => kb.preparePointerButton
  | .focusLost => kb.focusLost
  | .focusGained flags => kb.focusGained flags
  | .ctrlAltDel => kb.ctrlAltDel

/-- The keyboard after a list of calls on a fresh one, and all the events in order. -/
def session (prefs : KeyboardPrefs) (keyboard : KeyboardType) (ops : List Op) : Emitting :=
  Transition.run apply (new prefs keyboard) ops

end Keyboard

end Drift.Input
