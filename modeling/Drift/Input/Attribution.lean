import Drift.Input.Keyboard

/-!
# On whose behalf

The events of a keyboard together with the modifier keys that each of them was sent for: those of one
modifier key when it is pressed, released or flushed, the holders of a scancode that is lifted around
text, and none for other keys. The operations are those of `Keyboard`, and without the keys the events
are the same (`forget`).
-/

namespace Drift.Input.Keyboard

open Std

/-- A keyboard and its events so far, each with the modifier keys it was sent for. -/
abbrev Attributed := Keyboard × List (InputEvent × ModifierSet)

/-- The events of an operation, sent on behalf of `who`. -/
def onBehalf (who : ModifierSet) (f : Emitting → Emitting) (p : Attributed) : Attributed :=
  let emitted := f (p.1, [])
  (emitted.1, p.2 ++ emitted.2.map fun event => (event, who))

/-- The modifier keys that were sent with a scancode. -/
def holders (kb : Keyboard) (sc : Scancode) : ModifierSet :=
  Finset.univ.filter fun key => kb.modSent key = some sc

def applyModifiersFor (flags : ModifierFlags) (changed : Option UInt16) (p : Attributed) :
    Attributed :=
  let mods := p.1.mods
  let held := heldModifiers flags changed mods
  let p := ModifierKey.all.reverse.foldl
    (fun p key => if key ∈ mods ∧ key ∉ held then onBehalf {key} (releaseModifier key) p else p) p
  let p := ModifierKey.all.foldl
    (fun p key => if key ∉ mods ∧ key ∈ held then onBehalf {key} (pressModifier key) p else p) p
  ({ p.1 with mods := held }, p.2)

def flushCommandFor (p : Attributed) : Attributed :=
  let p := p.1.cmdPending.iter.foldl (fun p key => onBehalf {key} (sendCommand · key) p) p
  ({ p.1 with cmdPending := ∅, cmdConsumed := ∅ }, p.2)

def keyDownScancodeFor (kb : Keyboard) (code : UInt16) (flags : ModifierFlags) : Attributed :=
  let p := applyModifiersFor flags none (onBehalf ∅ (syncCaps flags false) (kb, []))
  if isModifier code || p.1.heldKeys.contains code then p
  else
    match scancodeFor code p.1.keyboard p.1.prefs.cmdAs with
    | none => p
    | some sc =>
      let p := onBehalf ∅ (press sc) (flushCommandFor p)
      ({ p.1 with heldKeys := p.1.heldKeys.insert code sc }, p.2)

def insertTextFor (kb : Keyboard) (text : String) : List (InputEvent × ModifierSet) :=
  let textEvents := textToEvents text
  if textEvents.isEmpty then []
  else
    let lifted := textLevelModifiers.filter kb.pressed.contains
    lifted.map (fun sc => (sc.event false, kb.holders sc)) ++
      textEvents.map (fun event => (event, ∅)) ++
      lifted.map (fun sc => (sc.event true, kb.holders sc))

/-- One call, with the keys its events are for. -/
def applyFor (kb : Keyboard) : Op → Attributed
  | .flagsChanged code flags =>
    applyModifiersFor flags (some code) (onBehalf ∅ (syncCaps flags (code = kvk.capsLock)) (kb, []))
  | .keyDown code flags isRepeat composing =>
    match routeKeyDown kb.prefs code flags composing with
    | .text => (kb, [])
    | .scancode => if isRepeat then (kb, []) else kb.keyDownScancodeFor code flags
  | .keyDownScancode code flags => kb.keyDownScancodeFor code flags
  | .insertText text => (kb, kb.insertTextFor text)
  | .preparePointerButton => flushCommandFor (kb, [])
  | .focusGained flags => applyModifiersFor flags none (onBehalf ∅ (syncCaps flags true) (kb, []))
  -- These only release scancodes, or press them for the menu item.
  | op => onBehalf ∅ (fun p => ((p.1.apply op).1, p.2 ++ (p.1.apply op).2)) (kb, [])

/-- A keyboard and its events, without the keys. -/
def forget (p : Attributed) : Emitting := (p.1, p.2.map Prod.fst)

end Drift.Input.Keyboard
