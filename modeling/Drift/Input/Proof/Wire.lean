import Drift.Input.Keyboard
import Drift.Lib.Balance

/-!
# The wire stays balanced

The remote's view of the keyboard is the replay of all scancode events. Every operation keeps it
equal to the scancodes in `pressed`: the internal operations keep the relation `Synced` between the
remote's view and the keyboard with its events so far, and an operation is a composition of them.
The relation does not depend on why a scancode is pressed, so the diffing of modifiers and the
deferral of the Command keys need nothing beyond the two lemmas for `press` and `release`.
-/

namespace Drift.Input

open Std

/-- The press or release in an input event, if it is a scancode event. -/
def InputEvent.scancodeEdge : InputEvent → Option (Balance.Edge Scancode)
  | .key scancode extended down => some ⟨⟨scancode, extended⟩, down⟩
  | _ => none

@[simp]
theorem Scancode.scancodeEdge_event (sc : Scancode) (down : Bool) :
    (sc.event down).scancodeEdge = some ⟨sc, down⟩ := rfl

/-- The scancodes the remote holds after a list of events, from those it held before; `none` when
it was sent a press of a held scancode or a release of another. -/
abbrev replay : Finset Scancode → List InputEvent → Option (Finset Scancode) :=
  Balance.replay InputEvent.scancodeEdge

namespace Keyboard

/-! ### Relations that the keyboard keeps -/

/-- A relation between a keyboard and its events so far that uses and releases of scancodes keep, and that
does not depend on why a scancode is pressed. -/
structure Kept (R : Emitting → Prop) : Prop where
  press : ∀ {p} sc, R p → R (press sc p)
  release : ∀ {p} sc, R p → R (release sc p)
  toggles : ∀ {p} caps num, R p → R (p.1, p.2 ++ [.syncToggles caps num])
  of_pressed_eq : ∀ {p kb}, R p → kb.pressed = p.1.pressed → R (kb, p.2)

namespace Kept

variable {R : Emitting → Prop} {p : Emitting}

theorem foldl {α : Type} {f : Emitting → α → Emitting} (hf : ∀ p a, R p → R (f p a)) (h : R p)
    (as : List α) : R (as.foldl f p) :=
  List.foldlRecOn as f h fun p hp a _ => hf p a hp

theorem syncCaps (hR : Kept R) (h : R p) (flags : ModifierFlags) (force : Bool) :
    R (syncCaps flags force p) := by
  have hcaps : R ({ p.1 with caps := some flags.capsLock }, p.2) := hR.of_pressed_eq h rfl
  simp only [Keyboard.syncCaps]
  split
  · exact hR.toggles _ _ hcaps
  · exact hcaps

theorem pressModifier (hR : Kept R) (h : R p) (key : ModifierKey) : R (pressModifier key p) := by
  unfold Keyboard.pressModifier
  split
  · exact hR.of_pressed_eq h rfl
  split
  · exact h
  · next sc _ => exact hR.of_pressed_eq (hR.press sc h) rfl

theorem releaseModifier (hR : Kept R) (h : R p) (key : ModifierKey) :
    R (releaseModifier key p) := by
  unfold Keyboard.releaseModifier
  split
  · dsimp only
    split
    · exact hR.of_pressed_eq h rfl
    split
    · exact hR.of_pressed_eq h rfl
    · next sc _ =>
      refine hR.release sc (hR.press sc (hR.of_pressed_eq h ?_))
      rfl
  · split
    · exact h
    · next sc _ =>
      refine hR.release sc (hR.of_pressed_eq h ?_)
      rfl

theorem applyModifiers (hR : Kept R) (h : R p) (flags : ModifierFlags)
    (changed : Option UInt16) : R (applyModifiers flags changed p) := by
  unfold Keyboard.applyModifiers
  refine hR.of_pressed_eq (foldl (R := R) ?_ (foldl (R := R) ?_ h _) _) rfl
  · intro p key hp
    split
    · exact hR.pressModifier hp key
    · exact hp
  · intro p key hp
    split
    · exact hR.releaseModifier hp key
    · exact hp

theorem sendCommand (hR : Kept R) (h : R p) (key : ModifierKey) : R (sendCommand p key) := by
  unfold Keyboard.sendCommand
  split
  · exact h
  · next sc _ => exact hR.of_pressed_eq (hR.press sc h) rfl

theorem flushCommand (hR : Kept R) (h : R p) : R (flushCommand p) :=
  hR.of_pressed_eq (foldl (R := R) (fun _ _ hp => hR.sendCommand hp _) h _) rfl

theorem keyDownScancode (hR : Kept R) (kb : Keyboard) (h : R (kb, [])) (code : UInt16) (flags : ModifierFlags) :
    R (kb.keyDownScancode code flags) := by
  have hmods := hR.applyModifiers (hR.syncCaps h flags false) flags none
  unfold Keyboard.keyDownScancode
  dsimp only
  split
  · exact hmods
  split
  · exact hmods
  · next sc _ => exact hR.of_pressed_eq (hR.press sc (hR.flushCommand hmods)) rfl

theorem keyUp (hR : Kept R) (kb : Keyboard) (h : R (kb, [])) (code : UInt16) : R (kb.keyUp code) := by
  unfold Keyboard.keyUp
  split
  · exact h
  · next sc _ =>
    refine hR.release sc (hR.of_pressed_eq h ?_)
    rfl

theorem flagsChanged (hR : Kept R) (kb : Keyboard) (h : R (kb, [])) (code : UInt16) (flags : ModifierFlags) :
    R (kb.flagsChanged code flags) :=
  hR.applyModifiers (hR.syncCaps h flags _) flags (some code)

theorem focusGained (hR : Kept R) (kb : Keyboard) (h : R (kb, [])) (flags : ModifierFlags) :
    R (kb.focusGained flags) :=
  hR.applyModifiers (hR.syncCaps h flags true) flags none

theorem ctrlAltDel (hR : Kept R) (kb : Keyboard) (h : R (kb, [])) : R kb.ctrlAltDel :=
  foldl (R := R) (fun _ sc hp => hR.release sc hp)
    (foldl (R := R) (fun _ sc hp => hR.press sc hp) h _) _

end Kept

/-! ### The remote's view -/

/-- A remote that held the scancodes `held` before the events holds those in `pressed` after. -/
structure Synced (held : Finset Scancode) (p : Emitting) : Prop where
  positive : RefCount.Positive p.1.pressed
  replay_eq : replay held p.2 = some (RefCount.keySet p.1.pressed)

namespace Synced

variable {held : Finset Scancode} {p : Emitting}

theorem of_pressed_eq (h : Synced held p) {kb : Keyboard} (hkb : kb.pressed = p.1.pressed) :
    Synced held (kb, p.2) :=
  ⟨by rw [hkb]; exact h.positive, by rw [hkb]; exact h.replay_eq⟩

theorem replay_concat (h : Synced held p) {e : InputEvent} {held' : Finset Scancode}
    (he : Balance.check InputEvent.scancodeEdge (RefCount.keySet p.1.pressed) e = some held') :
    replay held (p.2 ++ [e]) = some held' :=
  Transition.judge_append_of_eq h.replay_eq (by rw [Transition.judge_singleton, he])

theorem press (h : Synced held p) (sc : Scancode) : Synced held (press sc p) where
  positive := RefCount.positive_acquire (by decide) h.positive sc
  replay_eq := by
    simp only [Keyboard.press, RefCount.keySet_acquire]
    split
    · next hzero =>
      have hnot : sc ∉ RefCount.keySet p.1.pressed := by
        rw [RefCount.mem_keySet_iff_count h.positive, hzero]
        exact Nat.lt_irrefl 0
      exact h.replay_concat (Balance.check_press (sc.scancodeEdge_event true) hnot)
    · next hpos =>
      have hmem : sc ∈ RefCount.keySet p.1.pressed :=
        (RefCount.mem_keySet_iff_count h.positive).mpr (Nat.pos_of_ne_zero hpos)
      rw [Finset.insert_eq_of_mem hmem]
      exact h.replay_eq

theorem release (h : Synced held p) (sc : Scancode) : Synced held (release sc p) := by
  unfold Keyboard.release
  split
  · exact h
  · next count hcount =>
    have hpos : 0 < count := h.positive sc count hcount
    have heq : RefCount.count p.1.pressed sc = count := RefCount.count_of_getElem? hcount
    refine ⟨RefCount.positive_release h.positive sc, ?_⟩
    simp only [RefCount.keySet_release, heq]
    split
    · next hlast =>
      rw [if_pos (by omega)]
      have hmem : sc ∈ RefCount.keySet p.1.pressed :=
        (RefCount.mem_keySet_iff_count h.positive).mpr (by omega)
      exact h.replay_concat (Balance.check_release (sc.scancodeEdge_event false) hmem)
    · next hmore =>
      rw [if_neg (by omega)]
      exact h.replay_eq

theorem kept (held : Finset Scancode) : Kept (Synced held) where
  press := fun sc h => h.press sc
  release := fun sc h => h.release sc
  toggles := fun _ _ h => ⟨h.positive, h.replay_concat (Balance.check_none rfl)⟩
  of_pressed_eq := fun h hkb => h.of_pressed_eq hkb

end Synced

/-! ### Operations -/

section Operations

variable {kb : Keyboard}

/-- A remote in step with the keyboard stays in step when no event is sent. -/
theorem synced_nil (hpos : RefCount.Positive kb.pressed) :
    Synced (RefCount.keySet kb.pressed) (kb, []) :=
  ⟨hpos, rfl⟩

/-- Lifting and pressing the text-level modifiers again leaves the remote as it was. -/
theorem replay_insertText (kb : Keyboard) (text : String) :
    replay (RefCount.keySet kb.pressed) (kb.insertText text) =
      some (RefCount.keySet kb.pressed) := by
  have htext : replay (RefCount.keySet kb.pressed) (textToEvents text) =
      some (RefCount.keySet kb.pressed) := by
    refine Balance.replay_of_forall_none fun e he => ?_
    obtain ⟨ch, down, rfl⟩ := eq_unicode_of_mem_textToEvents he
    rfl
  unfold insertText
  dsimp only
  split
  · exact htext
  · set held := RefCount.keySet kb.pressed with hheld
    set lifted := textLevelModifiers.filter kb.pressed.contains with hlifted
    have hnodup : lifted.Nodup := List.Nodup.filter _ (by decide)
    have hmem : ∀ sc ∈ lifted, sc ∈ held := by
      intro sc hsc
      rw [hheld, RefCount.mem_keySet, ← ExtTreeMap.contains_eq_isSome_getElem?]
      exact (List.mem_filter.mp hsc).2
    have hrelease : replay held (lifted.map (·.event false)) = some (held \ lifted.toFinset) :=
      Balance.replay_releases (fun sc => sc.scancodeEdge_event false) hnodup hmem
    have hunicode : replay (held \ lifted.toFinset) (textToEvents text) =
        some (held \ lifted.toFinset) := by
      refine Balance.replay_of_forall_none fun e he => ?_
      obtain ⟨ch, down, rfl⟩ := eq_unicode_of_mem_textToEvents he
      rfl
    have hpress : replay (held \ lifted.toFinset) (lifted.map (·.event true)) = some held := by
      rw [replay, Balance.replay_presses (fun sc => sc.scancodeEdge_event true) hnodup
        (fun sc hsc => by simp [hsc])]
      congr 1
      exact Finset.sdiff_union_of_subset fun sc hsc => hmem sc (List.mem_toFinset.mp hsc)
    exact Transition.judge_append_of_eq (Transition.judge_append_of_eq hrelease hunicode) hpress

theorem replay_focusLost (kb : Keyboard) :
    replay (RefCount.keySet kb.pressed) kb.focusLost.2 = some ∅ := by
  have hrelease : replay (RefCount.keySet kb.pressed) kb.focusLost.2 =
      some (RefCount.keySet kb.pressed \ kb.pressed.keys.toFinset) :=
    Balance.replay_releases (fun sc => sc.scancodeEdge_event false) ExtTreeMap.nodup_keys
      fun sc hsc => List.mem_toFinset.mpr hsc
  rw [hrelease, RefCount.keySet, Finset.sdiff_self]

/-- Every call leaves the remote with exactly the scancodes the keyboard counts as pressed. -/
theorem synced_apply (hpos : RefCount.Positive kb.pressed) (op : Op) :
    Synced (RefCount.keySet kb.pressed) (kb.apply op) := by
  have hnil := synced_nil hpos
  have hkept := Synced.kept (RefCount.keySet kb.pressed)
  cases op with
  | setPrefs prefs => exact hnil.of_pressed_eq rfl
  | setKeyboardType keyboard => exact hnil.of_pressed_eq rfl
  | flagsChanged code flags => exact hkept.flagsChanged kb hnil code flags
  | keyDown code flags isRepeat composing =>
      simp only [apply, keyDown]
      cases routeKeyDown kb.prefs code flags composing with
      | text => exact hnil
      | scancode =>
          cases isRepeat with
          | true => exact hnil
          | false => exact hkept.keyDownScancode kb hnil code flags
  | keyDownScancode code flags => exact hkept.keyDownScancode kb hnil code flags
  | keyUp code => exact hkept.keyUp kb hnil code
  | insertText text => exact ⟨hpos, replay_insertText kb text⟩
  | menuShortcutTaken => exact hnil.of_pressed_eq rfl
  | preparePointerButton => exact hkept.flushCommand hnil
  | focusLost =>
      refine ⟨RefCount.positive_empty, ?_⟩
      rw [show (kb.apply .focusLost).2 = kb.focusLost.2 from rfl, replay_focusLost]
      exact congrArg some RefCount.keySet_empty.symm
  | focusGained flags => exact hkept.focusGained kb hnil flags
  | ctrlAltDel =>
      rw [apply]
      exact hkept.ctrlAltDel kb hnil

end Operations

theorem positive_session (prefs : KeyboardPrefs) (keyboard : KeyboardType) (ops : List Op) :
    RefCount.Positive (session prefs keyboard ops).1.pressed :=
  Transition.run_invariant (fun kb : Keyboard => RefCount.Positive kb.pressed)
    (fun _ op hpos => (synced_apply hpos op).positive) RefCount.positive_empty ops

/-- **Balanced wire.** After any calls on a fresh keyboard the remote accepted every scancode
event, holds exactly the scancodes of `remotePressed`, and losing the focus releases exactly
those, each once, and leaves nothing pressed. -/
theorem replay_session (prefs : KeyboardPrefs) (keyboard : KeyboardType) (ops : List Op) :
    let p := session prefs keyboard ops
    replay ∅ p.2 = some p.1.remotePressed.toFinset ∧
      p.1.focusLost.2 = p.1.remotePressed.map (·.event false) ∧
      p.1.remotePressed.Nodup ∧
      p.1.focusLost.1.remotePressed = [] := by
  have hstep : ∀ kb held op, RefCount.Positive kb.pressed ∧ RefCount.keySet kb.pressed = held →
      ∃ held', replay held (apply kb op).2 = some held' ∧
        RefCount.Positive (apply kb op).1.pressed ∧
        RefCount.keySet (apply kb op).1.pressed = held' := by
    rintro kb held op ⟨hpos, rfl⟩
    have hsynced := synced_apply hpos op
    exact ⟨_, hsynced.replay_eq, hsynced.positive, rfl⟩
  obtain ⟨held, hreplay, _, hheld⟩ := Transition.run_judged _ hstep (s := new prefs keyboard)
    ⟨RefCount.positive_empty, RefCount.keySet_empty⟩ ops
  refine ⟨?_, rfl, ExtTreeMap.nodup_keys, rfl⟩
  rw [session, replay, Balance.replay, hreplay, ← hheld]
  rfl

end Keyboard

end Drift.Input
