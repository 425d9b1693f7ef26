import Drift.Input.Buttons
import Drift.Input.Proof.Wire

/-!
# Buttons are balanced on the wire

The remote has the buttons down that the controller holds, as long as no call slips: a press of a button
that is held is a second press for the remote, and a loss of focus without a last pixel leaves the remote
with the buttons down. The keys and the wheel send nothing of the buttons.
-/

namespace Drift.Input

open Transition

/-! ### Events of the keyboard and the wheel -/

def Silent (os : List InputEvent) : Prop := ∀ e ∈ os, e.buttonEdge = none

theorem silent_nil : Silent [] := fun _ he => absurd he List.not_mem_nil

theorem silent_append {os ps : List InputEvent} (hos : Silent os) (hps : Silent ps) :
    Silent (os ++ ps) := by
  intro e he
  rcases List.mem_append.mp he with he | he
  · exact hos e he
  · exact hps e he

theorem silent_singleton {e : InputEvent} (he : e.buttonEdge = none) : Silent [e] := by
  intro e' he'
  obtain rfl := List.mem_singleton.mp he'
  exact he

theorem Silent.replay {os : List InputEvent} (h : Silent os) (held : Finset MouseButton) :
    replayButtons held os = some held :=
  Balance.replay_of_forall_none h

namespace Keyboard

variable {kb : Keyboard}

theorem kept_silent : Kept fun p => Silent p.2 where
  press := by
    intro p sc h
    simp only [press]
    split
    · exact silent_append h (silent_singleton rfl)
    · exact h
  release := by
    intro p sc h
    unfold release
    split
    · exact h
    · dsimp only
      split
      · exact silent_append h (silent_singleton rfl)
      · exact h
  toggles := fun _ _ h => silent_append h (silent_singleton rfl)
  of_pressed_eq := fun h _ => h

theorem silent_map_event (scs : List Scancode) (down : Bool) :
    Silent (scs.map (·.event down)) := by
  intro e he
  obtain ⟨sc, -, rfl⟩ := List.mem_map.mp he
  rfl

theorem silent_insertText (kb : Keyboard) (text : String) : Silent (kb.insertText text) := by
  have htext : Silent (textToEvents text) := by
    intro e he
    obtain ⟨ch, down, rfl⟩ := eq_unicode_of_mem_textToEvents he
    rfl
  unfold insertText
  dsimp only
  split
  · exact htext
  · exact silent_append (silent_append (silent_map_event _ false) htext) (silent_map_event _ true)

theorem silent_keyDown {code : UInt16} {flags : ModifierFlags} {isRepeat composing : Bool}
    {kb' : Keyboard} {events : List InputEvent}
    (h : kb.keyDown code flags isRepeat composing = (kb', .send events)) : Silent events := by
  unfold keyDown at h
  split at h
  · cases h
  · split at h
    · cases h
      exact silent_nil
    · cases h
      exact kept_silent.keyDownScancode kb silent_nil code flags

end Keyboard

theorem silent_splitUnits (chunk : Nat) [NeZero chunk] (horizontal : Bool) (remaining : Int) :
    Silent (splitUnits chunk horizontal remaining) := by
  induction remaining using splitUnits.induct chunk with
  | case1 => 
      rw [splitUnits]
      exact silent_nil
  | case2 remaining hne step ih =>
      rw [splitUnits, if_neg hne]
      exact silent_append (silent_singleton rfl) ih

variable {F : Type} [Scalar F]

theorem silent_emitUnits (residual units : F) (chunk : Nat) [NeZero chunk] (horizontal : Bool) :
    Silent (emitUnits residual units chunk horizontal).2 :=
  silent_splitUnits chunk horizontal _

theorem silent_push (acc : ScrollAccumulator F) (delta : ScrollDelta F) :
    Silent (acc.push delta).2 := by
  cases delta with
  | precise dx dy =>
      exact silent_append (silent_emitUnits _ _ _ _) (silent_emitUnits _ _ _ _)
  | lines dx dy => exact silent_append (silent_emitUnits _ _ _ _) (silent_emitUnits _ _ _ _)

namespace InputController

variable {c : InputController F}

/-! ### Calls -/

/-- What a call can do to the buttons that are held, and what is sent then. -/
inductive ButtonMoves (c : InputController F) : Op F → Finset MouseButton → List InputEvent → Prop
  | stays (op : Op F) (os : List InputEvent) (hop : op.isFocusLost = false)
      (hslips : c.slips op = false) (hos : Silent os) : ButtonMoves c op c.buttons os
  | presses (button : MouseButton) (point : ViewPoint F) (p : Pixel) (os : List InputEvent)
      (hmap : c.map point = some p) (hos : Silent os) :
      ButtonMoves c (.mouseButton button true point) (insert button c.buttons)
        (os ++ [.mouseButton button true p.x p.y])
  | releases (button : MouseButton) (point : ViewPoint F) (p : Pixel) (hheld : button ∈ c.buttons) :
      ButtonMoves c (.mouseButton button false point) (c.buttons.erase button)
        [.mouseButton button false p.x p.y]
  | loses (p : Pixel) (os : List InputEvent) (hlast : c.last = some p) (hos : Silent os) :
      ButtonMoves c .focusLost ∅ (os ++
        (MouseButton.all.filter (· ∈ c.buttons)).map fun b => .mouseButton b false p.x p.y)
  | forgets (os : List InputEvent) (hlast : c.last = none) (hos : Silent os) :
      ButtonMoves c .focusLost ∅ os

theorem mouseButton_moves (c : InputController F) (button : MouseButton) (down : Bool)
    (point : ViewPoint F) : ButtonMoves c (.mouseButton button down point)
      (c.mouseButton button down point).1.buttons (c.mouseButton button down point).2 := by
  unfold mouseButton
  split
  · next hmap => exact .stays _ _ rfl (by cases down <;> simp [slips, hmap]) silent_nil
  · next p hmap =>
      cases down with
      | true =>
          have hkeys : Silent c.keyboard.preparePointerButton.2 :=
            Keyboard.kept_silent.flushCommand silent_nil
          exact .presses button point p _ hmap hkeys
      | false =>
          simp only [Bool.false_eq_true, if_false]
          split
          · next hheld => exact .releases button point p hheld
          · exact .stays _ _ rfl rfl silent_nil

theorem focusLost_moves (c : InputController F) :
    ButtonMoves c .focusLost c.focusLost.1.buttons c.focusLost.2 := by
  have hkeys : Silent c.keyboard.focusLost.2 := Keyboard.silent_map_event _ false
  unfold focusLost
  cases hlast : c.last with
  | some p => exact .loses p _ hlast hkeys
  | none =>
      simp only [List.append_nil]
      exact .forgets _ hlast hkeys

omit [Scalar F] in
theorem keyEquivalent_claim (c : InputController F) (isFirstResponder : Bool) (code : UInt16)
    (chars : String) (flags : ModifierFlags) (isRepeat : Bool) :
    (c.keyEquivalent isFirstResponder code chars flags isRepeat).1.buttons = c.buttons ∧
      ∀ events, (c.keyEquivalent isFirstResponder code chars flags isRepeat).2 = .claim events →
        Silent events := by
  unfold keyEquivalent
  split
  · exact ⟨rfl, nofun⟩
  split
  · exact ⟨rfl, nofun⟩
  split
  · next keyboard events hkey =>
      refine ⟨rfl, fun events' hevents => ?_⟩
      cases hevents
      exact Keyboard.silent_keyDown hkey
  · next keyboard hkey =>
      split
      · refine ⟨rfl, fun events hevents => ?_⟩
        cases hevents
        exact silent_nil
      · refine ⟨rfl, fun events hevents => ?_⟩
        cases hevents
        exact Keyboard.kept_silent.keyDownScancode keyboard silent_nil code flags

/-- **Calls.** A call does one of the things of `ButtonMoves`. -/
theorem apply_moves (c : InputController F) (op : Op F) :
    ButtonMoves c op (c.apply op).1.buttons (c.apply op).2 := by
  have hkept := Keyboard.kept_silent
  cases op with
  | setKeyboardPrefs prefs => exact .stays _ _ rfl rfl silent_nil
  | setScrollConfig config => exact .stays _ _ rfl rfl silent_nil
  | setViewGeometry view => exact .stays _ _ rfl rfl silent_nil
  | setDesktop desktop mode => exact .stays _ _ rfl rfl silent_nil
  | clearDesktop => exact .stays _ _ rfl rfl silent_nil
  | keyDown code flags isRepeat composing =>
      simp only [apply, keyDown]
      cases hkey : c.keyboard.keyDown code flags isRepeat composing with
      | mk keyboard down =>
          cases down with
          | send events => exact .stays _ _ rfl rfl (Keyboard.silent_keyDown hkey)
          | interpretText => exact .stays _ _ rfl rfl silent_nil
  | keyDownScancode code flags =>
      exact .stays _ _ rfl rfl (hkept.keyDownScancode c.keyboard silent_nil code flags)
  | keyUp code => exact .stays _ _ rfl rfl (hkept.keyUp c.keyboard silent_nil code)
  | flagsChanged code flags =>
      exact .stays _ _ rfl rfl (hkept.flagsChanged c.keyboard silent_nil code flags)
  | insertText text => exact .stays _ _ rfl rfl (Keyboard.silent_insertText _ text)
  | keyEquivalent isFirstResponder code chars flags isRepeat =>
      obtain ⟨hbuttons, hclaim⟩ :=
        keyEquivalent_claim c isFirstResponder code chars flags isRepeat
      simp only [apply]
      split
      · next c' events hkey =>
          rw [hkey] at hbuttons hclaim
          have hbuttons : c'.buttons = c.buttons := hbuttons
          rw [hbuttons]
          exact .stays _ _ rfl rfl (hclaim events rfl)
      · next c' outcome hnot hkey =>
          rw [hkey] at hbuttons
          have hbuttons : c'.buttons = c.buttons := hbuttons
          rw [hbuttons]
          exact .stays _ _ rfl rfl silent_nil
  | mouseMove point =>
      simp only [apply, mouseMove]
      split
      · exact .stays _ _ rfl rfl silent_nil
      split
      · exact .stays _ _ rfl rfl silent_nil
      · exact .stays _ _ rfl rfl (silent_singleton rfl)
  | mouseButton button down point => exact mouseButton_moves c button down point
  | scroll delta gestureBegan => exact .stays _ _ rfl rfl (silent_push _ delta)
  | focusGained flags =>
      exact .stays _ _ rfl rfl (hkept.focusGained c.keyboard silent_nil flags)
  | focusLost => exact focusLost_moves c
  | ctrlAltDel => exact .stays _ _ rfl rfl (hkept.ctrlAltDel c.keyboard silent_nil)

/-! ### Runs -/

theorem replay_concat_press {os : List InputEvent} (hos : Silent os) (held : Finset MouseButton)
    (button : MouseButton) (p : Pixel) :
    replayButtons held (os ++ [.mouseButton button true p.x p.y]) =
      if button ∈ held then none else some (insert button held) := by
  have hsame : judge (Balance.check InputEvent.buttonEdge) held os = some held := hos.replay held
  rw [replayButtons, Balance.replay, judge_append, hsame, Option.bind_some, judge_singleton]
  split_ifs with hheld
  · simp [Balance.check, Balance.edge, InputEvent.buttonEdge, hheld]
  · exact Balance.check_press rfl hheld

theorem replay_released (held : Finset MouseButton) (p : Pixel) :
    replayButtons held ((MouseButton.all.filter (· ∈ held)).map fun b => .mouseButton b false p.x p.y)
      = some ∅ := by
  have hnodup : (MouseButton.all.filter (· ∈ held)).Nodup := List.Nodup.filter _ (by decide)
  have hheld : ∀ b ∈ MouseButton.all.filter (· ∈ held), b ∈ held :=
    fun b hb => by simpa using hb
  have hup : ∀ b : MouseButton,
      (InputEvent.mouseButton b false p.x p.y).buttonEdge = some ⟨b, false⟩ := fun b => rfl
  refine (Balance.replay_releases hup hnodup hheld).trans (congrArg some ?_)
  ext b
  simp

/-- A call that does not slip leaves the remote with the buttons that the controller holds. -/
theorem ButtonMoves.replay {op : Op F} {buttons : Finset MouseButton} {os : List InputEvent}
    (h : ButtonMoves c op buttons os) (hslips : c.slips op = false) :
    replayButtons c.buttons os = some buttons ∧ (op.isFocusLost = true → buttons = ∅) := by
  cases h with
  | stays op os hop hslips hos =>
      refine ⟨hos.replay _, fun hlost => ?_⟩
      rw [hop] at hlost
      cases hlost
  | presses button point p os hmap hos =>
      refine ⟨?_, nofun⟩
      have hfree : button ∉ c.buttons := by simpa [slips, hmap] using hslips
      rw [replay_concat_press hos, if_neg hfree]
  | releases button point p hheld => 
      refine ⟨?_, nofun⟩
      exact (judge_singleton ..).trans (Balance.check_release rfl hheld)
  | loses p os hlast hos =>
      refine ⟨?_, fun _ => rfl⟩
      exact judge_append_of_eq (hos.replay _) (replay_released c.buttons p)
  | forgets os hlast hos =>
      have hempty : c.buttons = ∅ := by simpa [slips, hlast] using hslips
      refine ⟨?_, fun _ => rfl⟩
      rw [hempty]
      exact hos.replay ∅

theorem ButtonMoves.slipped {op : Op F} {buttons : Finset MouseButton} {os : List InputEvent}
    (h : ButtonMoves c op buttons os) (hslips : c.slips op = true) :
    ∀ after, replayButtons c.buttons os = some after →
      op.isFocusLost = true ∧ after ≠ ∅ := by
  intro after hafter
  cases h with
  | stays op os hop hnot hos =>
      rw [hnot] at hslips
      cases hslips
  | presses button point p os hmap hos =>
      have hheld : button ∈ c.buttons := by simpa [slips, hmap] using hslips
      rw [replay_concat_press hos, if_pos hheld] at hafter
      cases hafter
  | releases button point p hheld => cases hslips
  | loses p os hlast hos => simp [slips, hlast] at hslips
  | forgets os hlast hos =>
      have hheld : c.buttons ≠ ∅ := by simpa [slips, hlast] using hslips
      rw [hos.replay] at hafter
      rw [← Option.some.inj hafter]
      exact ⟨rfl, hheld⟩

/-- **Buttons.** The presses and releases of the buttons alternate for the remote and no button is left
pressed when the focus is lost, in exactly the runs in which no call slips. -/
theorem balanced_steps_iff (prefs : KeyboardPrefs) (keyboard : KeyboardType)
    (scroll : ScrollConfig F) (ops : List (Op F)) :
    Holds watchButtons Balanced (some ∅) (steps prefs keyboard scroll ops) ↔
      Along (recorded apply) watchButtons (fun c _ op => c.slips op = false)
        (new prefs keyboard scroll) (some ∅) ops := by
  have hnew : some ∅ = some (new prefs keyboard scroll).buttons := rfl
  refine run_holds_iff (fun (c : InputController F) held => held = some c.buttons) ?_ hnew ops
  rintro c held op rfl
  have hmoves := apply_moves c op
  have hholds : Holds watchButtons Balanced (some c.buttons) (recorded apply c op).2 ↔
      Balanced (some c.buttons) ⟨c, op, (c.apply op).2, (c.apply op).1⟩ := by
    simp [recorded]
  rw [hholds]
  cases hslips : c.slips op with
  | false =>
      obtain ⟨hreplay, hlost⟩ := hmoves.replay hslips
      exact ⟨iff_of_true ⟨_, hreplay, hlost⟩ rfl, fun _ => hreplay⟩
  | true =>
      refine ⟨iff_of_false ?_ nofun, nofun⟩
      rintro ⟨after, hafter, hempty⟩
      obtain ⟨hlost, hne⟩ := hmoves.slipped hslips after hafter
      exact hne (hempty hlost)

/-- The desktop is set again, as every view of a connected session does, during a drag that ends with the
loss of the focus. -/
def redrawnDrag : List (Op Float) :=
  [.setDesktop ⟨1280, 800⟩ .fit, .mouseButton .left true ⟨0, 0⟩, .setDesktop ⟨1280, 800⟩ .fit,
    .focusLost]

theorem not_balanced_redrawnDrag :
    ¬Holds watchButtons Balanced (some ∅)
      (steps ⟨.super, false⟩ .ansi ⟨2, false⟩ redrawnDrag) := by
  decide

end InputController

end Drift.Input
