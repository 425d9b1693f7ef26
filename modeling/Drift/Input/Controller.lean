import Drift.Input.Coords
import Drift.Input.Keyboard
import Drift.Input.Scroll
import Drift.Input.Shortcuts

/-!
# The input of a view

`InputController` turns what happens to the view of a session into the events to send: keys through the
keyboard translator, scrolling through the accumulator, and pointer events at the pixels under them. It
holds the buttons that were pressed on the remote and the last pixel that was sent.
-/

namespace Drift.Input

/-- Outcome of a key equivalent: not for the remote, for the menu, or events for the remote. -/
inductive KeyEquivalent where
  | pass
  | menu (shortcut : MenuShortcut)
  | claim (events : List InputEvent)
  deriving DecidableEq

namespace MouseButton

/-- The buttons in the order of their indices. -/
def all : List MouseButton := [left, right, middle, x1, x2]

@[simp]
theorem mem_all (button : MouseButton) : button ∈ all := by
  cases button <;> decide

end MouseButton

structure InputController (F : Type) where
  keyboard : Keyboard
  scroll : ScrollAccumulator F
  view : ViewGeometry F
  desktop : Option (Size × ScaleMode)
  viewport : Option (Viewport F)
  buttons : Finset MouseButton
  last : Option Pixel

namespace InputController

variable {F : Type} [Scalar F]

open Scalar

def new (prefs : KeyboardPrefs) (keyboard : KeyboardType) (scroll : ScrollConfig F) :
    InputController F where
  keyboard := .new prefs keyboard
  scroll := .new scroll
  view := ⟨⟨ofNat 0, ofNat 0⟩, ofNat 1⟩
  desktop := none
  viewport := none
  buttons := ∅
  last := none

def setKeyboardPrefs (c : InputController F) (prefs : KeyboardPrefs) : InputController F :=
  { c with keyboard := c.keyboard.setPrefs prefs }

def setScrollConfig (c : InputController F) (config : ScrollConfig F) : InputController F :=
  { c with scroll := .new config }

/-! ### Desktop and geometry -/

def updateViewport (c : InputController F) : InputController F :=
  { c with
    viewport := c.desktop.map fun (desktop, mode) => .new c.view desktop mode
    last := none }

def setViewGeometry (c : InputController F) (view : ViewGeometry F) : InputController F :=
  { c with view := view }.updateViewport

def setDesktop (c : InputController F) (desktop : Size) (mode : ScaleMode) : InputController F :=
  { c with desktop := some (desktop, mode) }.updateViewport

/-- Pointer events are dropped from here on. -/
def clearDesktop (c : InputController F) : InputController F :=
  { c with desktop := none, viewport := none, last := none }

/-! ### Keys -/

def onKeyboard (c : InputController F) (p : Keyboard.Emitting) :
    InputController F × List InputEvent :=
  ({ c with keyboard := p.1 }, p.2)

def keyDown (c : InputController F) (code : UInt16) (flags : ModifierFlags)
    (isRepeat composing : Bool) : InputController F × KeyDown :=
  let k := c.keyboard.keyDown code flags isRepeat composing
  ({ c with keyboard := k.1 }, k.2)

def keyDownScancode (c : InputController F) (code : UInt16) (flags : ModifierFlags) :
    InputController F × List InputEvent :=
  c.onKeyboard (c.keyboard.keyDownScancode code flags)

def keyUp (c : InputController F) (code : UInt16) : InputController F × List InputEvent :=
  c.onKeyboard (c.keyboard.keyUp code)

def flagsChanged (c : InputController F) (code : UInt16) (flags : ModifierFlags) :
    InputController F × List InputEvent :=
  c.onKeyboard (c.keyboard.flagsChanged code flags)

def insertText (c : InputController F) (text : String) : InputController F × List InputEvent :=
  (c, c.keyboard.insertText text)

/-- A chord with Command or Control goes to the menu or to the remote. -/
def keyEquivalent (c : InputController F) (isFirstResponder : Bool) (code : UInt16)
    (charsIgnoringModifiers : String) (flags : ModifierFlags) (isRepeat : Bool) :
    InputController F × KeyEquivalent :=
  if !isFirstResponder || !(flags.command || flags.control) then (c, .pass)
  else
    match menuShortcut code charsIgnoringModifiers flags with
    | some shortcut => ({ c with keyboard := c.keyboard.menuShortcutTaken }, .menu shortcut)
    | none =>
      match c.keyboard.keyDown code flags isRepeat false with
      | (keyboard, .send events) => ({ c with keyboard := keyboard }, .claim events)
      | (keyboard, .interpretText) =>
        if isRepeat then ({ c with keyboard := keyboard }, .claim [])
        else
          let k := keyboard.keyDownScancode code flags
          ({ c with keyboard := k.1 }, .claim k.2)

/-! ### Pointer -/

def map (c : InputController F) (point : ViewPoint F) : Option Pixel :=
  c.viewport.bind (·.viewToDesktop point)

def mouseMove (c : InputController F) (point : ViewPoint F) :
    InputController F × List InputEvent :=
  match c.map point with
  | none => (c, [])
  | some p => if c.last = some p then (c, []) else ({ c with last := some p }, [.mouseMove p.x p.y])

def mouseButton (c : InputController F) (button : MouseButton) (down : Bool)
    (point : ViewPoint F) : InputController F × List InputEvent :=
  match c.map point with
  | none => (c, [])
  | some p =>
    if down then
      let k := c.keyboard.preparePointerButton
      ({ c with keyboard := k.1, buttons := insert button c.buttons, last := some p },
        k.2 ++ [.mouseButton button true p.x p.y])
    else if button ∈ c.buttons then
      ({ c with buttons := c.buttons.erase button, last := some p },
        [.mouseButton button false p.x p.y])
    else
      -- Already released, or pressed before the view saw it.
      (c, [])

def onScroll (c : InputController F) (delta : ScrollDelta F) (gestureBegan : Bool) :
    InputController F × List InputEvent :=
  let acc := if gestureBegan then c.scroll.reset else c.scroll
  let pushed := acc.push delta
  ({ c with scroll := pushed.1 }, pushed.2)

/-! ### Focus -/

def focusGained (c : InputController F) (flags : ModifierFlags) :
    InputController F × List InputEvent :=
  c.onKeyboard (c.keyboard.focusGained flags)

/-- Releases the keys and buttons that are held. -/
def focusLost (c : InputController F) : InputController F × List InputEvent :=
  let k := c.keyboard.focusLost
  let released : List InputEvent :=
    match c.last with
    | some p => (MouseButton.all.filter (· ∈ c.buttons)).map fun b => .mouseButton b false p.x p.y
    | none => []
  ({ c with keyboard := k.1, buttons := ∅, scroll := c.scroll.reset }, k.2 ++ released)

def ctrlAltDel (c : InputController F) : InputController F × List InputEvent :=
  c.onKeyboard c.keyboard.ctrlAltDel

/-- One call on a controller. -/
inductive Op (F : Type) where
  | setKeyboardPrefs (prefs : KeyboardPrefs)
  | setScrollConfig (config : ScrollConfig F)
  | setViewGeometry (view : ViewGeometry F)
  | setDesktop (desktop : Size) (mode : ScaleMode)
  | clearDesktop
  | keyDown (code : UInt16) (flags : ModifierFlags) (isRepeat composing : Bool)
  | keyDownScancode (code : UInt16) (flags : ModifierFlags)
  | keyUp (code : UInt16)
  | flagsChanged (code : UInt16) (flags : ModifierFlags)
  | insertText (text : String)
  | keyEquivalent (isFirstResponder : Bool) (code : UInt16) (charsIgnoringModifiers : String)
      (flags : ModifierFlags) (isRepeat : Bool)
  | mouseMove (point : ViewPoint F)
  | mouseButton (button : MouseButton) (down : Bool) (point : ViewPoint F)
  | scroll (delta : ScrollDelta F) (gestureBegan : Bool)
  | focusGained (flags : ModifierFlags)
  | focusLost
  | ctrlAltDel

/-- The controller after one call, and the events that the call returned to be sent. -/
def apply (c : InputController F) : Op F → InputController F × List InputEvent
  | .setKeyboardPrefs prefs => (c.setKeyboardPrefs prefs, [])
  | .setScrollConfig config => (c.setScrollConfig config, [])
  | .setViewGeometry view => (c.setViewGeometry view, [])
  | .setDesktop desktop mode => (c.setDesktop desktop mode, [])
  | .clearDesktop => (c.clearDesktop, [])
  | .keyDown code flags isRepeat composing =>
    match c.keyDown code flags isRepeat composing with
    | (c, .send events) => (c, events)
    | (c, .interpretText) => (c, [])
  | .keyDownScancode code flags => c.keyDownScancode code flags
  | .keyUp code => c.keyUp code
  | .flagsChanged code flags => c.flagsChanged code flags
  | .insertText text => c.insertText text
  | .keyEquivalent isFirstResponder code charsIgnoringModifiers flags isRepeat =>
    match c.keyEquivalent isFirstResponder code charsIgnoringModifiers flags isRepeat with
    | (c, .claim events) => (c, events)
    | (c, _) => (c, [])
  | .mouseMove point => c.mouseMove point
  | .mouseButton button down point => c.mouseButton button down point
  | .scroll delta gestureBegan => c.onScroll delta gestureBegan
  | .focusGained flags => c.focusGained flags
  | .focusLost => c.focusLost
  | .ctrlAltDel => c.ctrlAltDel

end InputController

end Drift.Input
