import Drift.Input.Event
import Mathlib.Data.List.Defs

/-!
# Fast-path input

The encoder turns input events into fast-path events and remembers what is held, so that
`releaseAll` releases exactly that.
-/

namespace Drift.Rdp

open Std Input

namespace PointerFlags

def verticalWheel : UInt16 := 0x0200

def horizontalWheel : UInt16 := 0x0400

def move : UInt16 := 0x0800

def leftButton : UInt16 := 0x1000

def rightButton : UInt16 := 0x2000

def middleButtonOrWheel : UInt16 := 0x4000

/-- Also the flag of the extended mouse events. -/
def down : UInt16 := 0x8000

def xButton1 : UInt16 := 0x0001

def xButton2 : UInt16 := 0x0002

end PointerFlags

inductive FastPathInputEvent where
  | keyboardEvent (release extended : Bool) (scancode : UInt8)
  | unicodeKeyboardEvent (release : Bool) (ch : UInt16)
  | mouseEvent (flags : UInt16) (wheelUnits : Int16) (x y : UInt16)
  | mouseEventEx (flags : UInt16) (x y : UInt16)
  | syncEvent (capsLock numLock : Bool)
  deriving DecidableEq

/-- The most events of one fast-path frame. -/
def FastPathInput.maxEvents : Nat := 255

namespace FastPathInputEvent

def key (sc : Scancode) (down : Bool) : FastPathInputEvent :=
  .keyboardEvent (!down) sc.extended sc.code

def button (id : MouseButton) (down : Bool) (x y : UInt16) : FastPathInputEvent :=
  let pressed : UInt16 → UInt16 := fun f => if down then f ||| PointerFlags.down else f
  match id with
  | .left => .mouseEvent (pressed PointerFlags.leftButton) 0 x y
  | .right => .mouseEvent (pressed PointerFlags.rightButton) 0 x y
  | .middle => .mouseEvent (pressed PointerFlags.middleButtonOrWheel) 0 x y
  | .x1 => .mouseEventEx (pressed PointerFlags.xButton1) x y
  | .x2 => .mouseEventEx (pressed PointerFlags.xButton2) x y

end FastPathInputEvent

def buttonOrder : List MouseButton := [.left, .right, .middle, .x1, .x2]

structure InputEncoder where
  keys : ExtTreeMap Scancode Unit
  buttons : MouseButton → Bool
  position : UInt16 × UInt16
  toggles : Bool × Bool

namespace InputEncoder

def default : InputEncoder where
  keys := ∅
  buttons := fun _ => false
  position := (0, 0)
  toggles := (false, false)

def encode (e : InputEncoder) : InputEvent → InputEncoder × List FastPathInputEvent
  | .key scancode extended down =>
    let sc : Scancode := ⟨scancode, extended⟩
    ({ e with keys := if down then e.keys.insert sc () else e.keys.erase sc }, [.key sc down])
  | .unicode ch down => (e, [.unicodeKeyboardEvent (!down) ch])
  | .mouseMove x y => ({ e with position := (x, y) }, [.mouseEvent PointerFlags.move 0 x y])
  | .mouseButton button down x y =>
    ({ e with
        position := (x, y)
        buttons := fun id => if id = button then down else e.buttons id },
      [.button button down x y])
  | .wheel horizontal units =>
    let flags := if horizontal then PointerFlags.horizontalWheel else PointerFlags.verticalWheel
    (e, [.mouseEvent flags (max (-255) (min 255 units)) e.position.1 e.position.2])
  | .syncToggles caps num => ({ e with toggles := (caps, num) }, [.syncEvent caps num])
  | .releaseAll =>
    let (x, y) := e.position
    ({ e with keys := ∅, buttons := fun _ => false },
      e.keys.keys.map (.key · false) ++
        (buttonOrder.filter e.buttons).map (.button · false x y))

/-- The last lock-key state the app reported. -/
def lastToggles (e : InputEncoder) : InputEvent := .syncToggles e.toggles.1 e.toggles.2

def encodeAll (e : InputEncoder) : List InputEvent → InputEncoder × List FastPathInputEvent
  | [] => (e, [])
  | event :: events =>
    let (e, first) := e.encode event
    let (e, rest) := e.encodeAll events
    (e, first ++ rest)

end InputEncoder

end Drift.Rdp
