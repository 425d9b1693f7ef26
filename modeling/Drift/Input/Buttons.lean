import Drift.Input.Controller
import Drift.Lib.Balance

/-!
# Buttons on the wire

What the remote sees of the pointer buttons: the presses and releases in the events of a session, call
after call.
-/

namespace Drift.Input

/-- The press or release of a pointer button in an input event, if it is one. -/
def InputEvent.buttonEdge : InputEvent → Option (Balance.Edge MouseButton)
  | .mouseButton button down _ _ => some ⟨button, down⟩
  | _ => none

/-- The buttons the remote holds after a list of events, from those it held before; `none` when it was
sent a press of a held button or a release of another. -/
abbrev replayButtons : Finset MouseButton → List InputEvent → Option (Finset MouseButton) :=
  Balance.replay InputEvent.buttonEdge

namespace InputController

variable {F : Type} [Scalar F]

abbrev InputStep (F : Type) := Transition.Step (InputController F) (Op F) InputEvent

/-- The record of a list of calls on a fresh controller. -/
def steps (prefs : KeyboardPrefs) (keyboard : KeyboardType) (scroll : ScrollConfig F)
    (ops : List (Op F)) : List (InputStep F) :=
  (Transition.run (Transition.recorded apply) (new prefs keyboard scroll) ops).2

def watchButtons (held : Option (Finset MouseButton)) (t : InputStep F) :
    Option (Finset MouseButton) :=
  held.bind fun held => replayButtons held t.outs

def Op.isFocusLost : Op F → Bool
  | .focusLost => true
  | _ => false

/-- Every press is of a button that is up and every release of one that is down, and all buttons are up
when the focus was lost. -/
def Balanced (held : Option (Finset MouseButton)) (t : InputStep F) : Prop :=
  ∃ after ∈ watchButtons held t, t.input.isFocusLost = true → after = ∅

instance (held : Option (Finset MouseButton)) (t : InputStep F) : Decidable (Balanced held t) :=
  inferInstanceAs (Decidable (∃ after ∈ watchButtons held t, _ → after = ∅))

/-- A button is pressed that was not released, or the focus is lost while buttons are held and no pixel
is known to release them at. -/
def slips (c : InputController F) : Op F → Bool
  | .mouseButton button true point => (c.map point).isSome && decide (button ∈ c.buttons)
  | .focusLost => c.last.isNone && decide (c.buttons ≠ ∅)
  | _ => false

end InputController

end Drift.Input
