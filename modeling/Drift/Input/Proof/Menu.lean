import Drift.Input.Attribution
import Drift.Input.Proof.Held

/-!
# Combos for the menu

The attributed events of a run are its events (`run_attributed`). From a Command key going down until it
comes up nothing is sent for it, as long as no other key or button makes the keyboard send it and the menu
takes the combo or the focus goes (`nothing_sent_for_menu`).
-/

namespace Drift.Input.Keyboard

open Std

/-! ### Without the keys -/

def Appends (f : Emitting → Emitting) : Prop :=
  ∀ kb out, f (kb, out) = ((f (kb, [])).1, out ++ (f (kb, [])).2)

theorem appends_press (sc : Scancode) : Appends (press sc) := by
  intro kb out
  unfold press
  by_cases hcount : RefCount.count kb.pressed sc = 0
  · simp only [if_pos hcount, List.nil_append]
  · simp only [if_neg hcount, List.append_nil]

theorem appends_release (sc : Scancode) : Appends (release sc) := by
  intro kb out
  unfold release
  simp only
  cases kb.pressed[sc]? with
  | none => simp only [List.append_nil]
  | some count =>
      by_cases hlast : count - 1 = 0
      · simp only [if_pos hlast, List.nil_append]
      · simp only [if_neg hlast, List.append_nil]

theorem Appends.comp {f g : Emitting → Emitting} (hf : Appends f) (hg : Appends g) :
    Appends fun p => g (f p) := by
  intro kb out
  calc
    g (f (kb, out)) = g ((f (kb, [])).1, out ++ (f (kb, [])).2) := by rw [hf]
    _ = ((g ((f (kb, [])).1, [])).1,
          out ++ (f (kb, [])).2 ++ (g ((f (kb, [])).1, [])).2) := hg _ _
    _ = ((g (f (kb, []))).1, out ++ (g (f (kb, []))).2) := by
      have hrest : g (f (kb, [])) = _ := hg (f (kb, [])).1 (f (kb, [])).2
      rw [hrest, List.append_assoc]

theorem appends_silent (change : Keyboard → Keyboard) : Appends fun p => (change p.1, p.2) := by
  intro kb out
  simp only [List.append_nil]

theorem appends_syncCaps (flags : ModifierFlags) (force : Bool) : Appends (syncCaps flags force) := by
  intro kb out
  simp only [syncCaps]
  split
  · rw [List.nil_append]
  · rw [List.append_nil]

theorem appends_sendCommand (key : ModifierKey) : Appends (sendCommand · key) := by
  intro kb out
  simp only [sendCommand]
  cases kb.modifierScancode key with
  | none => simp only [List.append_nil]
  | some sc =>
      exact ((appends_press sc).comp
        (appends_silent fun kb => { kb with modSent := Function.update kb.modSent key (some sc) })) kb out

theorem appends_pressModifier (key : ModifierKey) : Appends (pressModifier key) := by
  intro kb out
  simp only [pressModifier]
  by_cases hcommand : key.isCommand = true
  · simp only [if_pos hcommand, List.append_nil]
  · simp only [if_neg hcommand]
    exact appends_sendCommand key kb out

theorem appends_releaseModifier (key : ModifierKey) : Appends (releaseModifier key) := by
  intro kb out
  simp only [releaseModifier]
  by_cases hpending : key ∈ kb.cmdPending
  · simp only [if_pos hpending]
    by_cases hconsumed : key ∈ kb.cmdConsumed
    · simp only [hconsumed, decide_true, if_true, List.append_nil]
    · simp only [hconsumed, decide_false, Bool.false_eq_true, if_false]
      split
      · simp only [List.append_nil]
      · next sc _ => exact ((appends_press sc).comp (appends_release sc)) _ out
  · simp only [if_neg hpending]
    cases kb.modSent key with
    | none => simp only [List.append_nil]
    | some sc => exact appends_release sc _ out

theorem forget_onBehalf {f : Emitting → Emitting} (hf : Appends f) (who : ModifierSet)
    (p : Attributed) : forget (onBehalf who f p) = f (forget p) := by
  have hall : f (forget p) = ((f (p.1, [])).1, p.2.map Prod.fst ++ (f (p.1, [])).2) := hf _ _
  rw [hall]
  unfold forget onBehalf
  simp only [List.map_append, List.map_map]
  congr 2
  exact List.map_id' (f (p.1, [])).2

theorem forget_foldl {f : Attributed → ModifierKey → Attributed}
    {g : Emitting → ModifierKey → Emitting} (h : ∀ p key, forget (f p key) = g (forget p) key)
    (keys : List ModifierKey) (p : Attributed) :
    forget (keys.foldl f p) = keys.foldl g (forget p) := by
  induction keys generalizing p with
  | nil => rfl
  | cons key keys ih => rw [List.foldl_cons, List.foldl_cons, ih, h]

theorem forget_applyModifiersFor (flags : ModifierFlags) (changed : Option UInt16) (p : Attributed) :
    forget (applyModifiersFor flags changed p) = applyModifiers flags changed (forget p) := by
  set held := heldModifiers flags changed p.1.mods with hheld
  set released := ModifierKey.all.reverse.foldl (fun q key =>
    if key ∈ p.1.mods ∧ key ∉ held then onBehalf {key} (releaseModifier key) q else q) p with hreleased
  have hfirst : forget released = ModifierKey.all.reverse.foldl (fun q key =>
      if key ∈ p.1.mods ∧ key ∉ held then releaseModifier key q else q) (forget p) := by
    refine forget_foldl (fun q key => ?_) _ p
    by_cases hkey : key ∈ p.1.mods ∧ key ∉ held
    · simp only [if_pos hkey, forget_onBehalf (appends_releaseModifier key)]
    · simp only [if_neg hkey]
  have hsecond := forget_foldl (f := fun q key =>
      if key ∉ p.1.mods ∧ key ∈ held then onBehalf {key} (pressModifier key) q else q)
    (g := fun q key => if key ∉ p.1.mods ∧ key ∈ held then pressModifier key q else q)
    (fun q key => by
      by_cases hkey : key ∉ p.1.mods ∧ key ∈ held
      · simp only [if_pos hkey, forget_onBehalf (appends_pressModifier key)]
      · simp only [if_neg hkey]) ModifierKey.all released
  rw [hfirst] at hsecond
  exact congrArg (fun q : Emitting => (({ q.1 with mods := held }, q.2) : Emitting)) hsecond

theorem forget_flushCommandFor (p : Attributed) :
    forget (flushCommandFor p) = flushCommand (forget p) := by
  have hloop := forget_foldl (f := fun p key => onBehalf {key} (sendCommand · key) p)
    (g := sendCommand) (fun q key => forget_onBehalf (appends_sendCommand key) {key} q)
    p.1.cmdPending.iter p
  exact congrArg (fun q : Emitting =>
    (({ q.1 with cmdPending := ∅, cmdConsumed := ∅ }, q.2) : Emitting)) hloop

theorem forget_keyDownScancodeFor (kb : Keyboard) (code : UInt16) (flags : ModifierFlags) :
    forget (kb.keyDownScancodeFor code flags) = kb.keyDownScancode code flags := by
  have hstart := forget_applyModifiersFor flags none (onBehalf ∅ (syncCaps flags false) (kb, []))
  rw [forget_onBehalf (appends_syncCaps flags false)] at hstart
  unfold keyDownScancodeFor keyDownScancode
  simp only
  generalize applyModifiersFor flags none (onBehalf ∅ (syncCaps flags false) (kb, [])) = p at hstart ⊢
  have hstart : applyModifiers flags none (syncCaps flags false (kb, [])) = forget p := hstart.symm
  rw [hstart]
  have hstate : (forget p).1 = p.1 := rfl
  rw [hstate]
  split
  · rfl
  cases scancodeFor code p.1.keyboard p.1.prefs.cmdAs with
  | none => rfl
  | some sc =>
      have hpressed := forget_onBehalf (appends_press sc) ∅ (flushCommandFor p)
      rw [forget_flushCommandFor] at hpressed
      exact congrArg (fun q : Emitting =>
        (({ q.1 with heldKeys := q.1.heldKeys.insert code sc }, q.2) : Emitting)) hpressed

theorem forget_applyFor (kb : Keyboard) (op : Op) : forget (kb.applyFor op) = kb.apply op := by
  have hrest : forget (onBehalf ∅ (fun p => ((p.1.apply op).1, p.2 ++ (p.1.apply op).2)) (kb, [])) =
      kb.apply op := by
    rw [forget_onBehalf fun kb out => by rw [List.nil_append]]
    rfl
  cases op with
  | flagsChanged code flags =>
      exact (forget_applyModifiersFor _ _ _).trans
        (congrArg _ (forget_onBehalf (appends_syncCaps flags _) ∅ (kb, [])))
  | focusGained flags =>
      exact (forget_applyModifiersFor _ _ _).trans
        (congrArg _ (forget_onBehalf (appends_syncCaps flags _) ∅ (kb, [])))
  | keyDown code flags isRepeat composing =>
      simp only [applyFor, apply, keyDown]
      cases routeKeyDown kb.prefs code flags composing with
      | text => rfl
      | scancode =>
          cases isRepeat with
          | true => rfl
          | false => exact forget_keyDownScancodeFor kb code flags
  | keyDownScancode code flags => exact forget_keyDownScancodeFor kb code flags
  | preparePointerButton => exact forget_flushCommandFor (kb, [])
  | insertText text =>
      refine Prod.ext rfl ?_
      change (kb.insertTextFor text).map Prod.fst = kb.insertText text
      unfold insertTextFor insertText
      by_cases hempty : (textToEvents text).isEmpty = true
      · simp only [if_pos hempty]
        exact (List.isEmpty_iff.mp hempty).symm
      · simp only [if_neg hempty, List.map_append, List.map_map]
        congr 2
        exact List.map_id' _
  | setPrefs prefs => exact hrest
  | setKeyboardType keyboard => exact hrest
  | keyUp code => exact hrest
  | menuShortcutTaken => exact hrest
  | focusLost => exact hrest
  | ctrlAltDel => exact hrest

theorem run_attributed (kb : Keyboard) (ops : List Op) :
    forget (Transition.run applyFor kb ops) = Transition.run apply kb ops := by
  induction ops generalizing kb with
  | nil => rfl
  | cons op ops ih =>
      have hop := forget_applyFor kb op
      rw [Transition.run_cons, Transition.run_cons, ← hop]
      have hstate : (forget (kb.applyFor op)).1 = (kb.applyFor op).1 := rfl
      rw [hstate, ← ih]
      simp only [forget, List.map_append]

/-! ### Nothing sent for a key -/

def Spared (key : ModifierKey) (events : List (InputEvent × ModifierSet)) : Prop :=
  ∀ event ∈ events, key ∉ event.2

section Spared

variable {key : ModifierKey} {p : Attributed}

theorem spared_nil : Spared key [] := fun _ h => (List.not_mem_nil h).elim

theorem Spared.append {es es' : List (InputEvent × ModifierSet)} (h : Spared key es)
    (h' : Spared key es') : Spared key (es ++ es') := by
  intro event hevent
  rcases List.mem_append.mp hevent with hevent | hevent
  · exact h event hevent
  · exact h' event hevent

theorem Spared.onBehalf (h : Spared key p.2) {who : ModifierSet} (hwho : key ∉ who)
    (f : Emitting → Emitting) : Spared key (onBehalf who f p).2 := by
  refine h.append fun event hevent => ?_
  obtain ⟨e, -, rfl⟩ := List.mem_map.mp hevent
  exact hwho

theorem Spared.silent (h : Spared key p.2) {f : Emitting → Emitting} (who : ModifierSet)
    (hf : (f (p.1, [])).2 = []) : Spared key (Keyboard.onBehalf who f p).2 := by
  unfold Keyboard.onBehalf
  simp only [hf, List.map_nil, List.append_nil]
  exact h

theorem Spared.flushCommandFor (h : Spared key p.2) (hpending : key ∉ p.1.cmdPending) :
    Spared key (flushCommandFor p).2 := by
  have hloop : ∀ (ks : List ModifierKey) (q : Attributed), key ∉ ks → Spared key q.2 →
      Spared key (ks.foldl (fun q k => Keyboard.onBehalf {k} (sendCommand · k) q) q).2 := by
    intro ks
    induction ks with
    | nil => exact fun q _ hq => hq
    | cons k ks ih =>
        intro q hks hq
        have hk : key ∉ ({k} : ModifierSet) := fun hmem =>
          hks (Finset.mem_singleton.mp hmem ▸ List.mem_cons_self)
        exact ih _ (fun hmem => hks (List.mem_cons_of_mem k hmem)) (hq.onBehalf hk _)
  exact hloop _ p (fun hmem => hpending (ModifierSet.mem_iter.mp hmem)) h

/-- A key that would come up without an event: it was not sent, and the menu took it if it is
deferred. -/
def Quiet (key : ModifierKey) (kb : Keyboard) : Prop :=
  kb.modSent key = none ∧ (key ∈ kb.cmdPending → key ∈ kb.cmdConsumed)

theorem releaseModifier_quiet {kb : Keyboard} (h : Quiet key kb) :
    (releaseModifier key (kb, [])).2 = [] ∧ Quiet key (releaseModifier key (kb, [])).1 := by
  obtain ⟨hsent, hconsumed⟩ := h
  unfold releaseModifier
  by_cases hpending : key ∈ kb.cmdPending
  · simp only [if_pos hpending, hconsumed hpending, decide_true, if_true]
    exact ⟨trivial, hsent, fun hmem => absurd rfl (Finset.mem_erase.mp hmem).1⟩
  · simp only [if_neg hpending, hsent]
    exact ⟨trivial, hsent, fun hmem => absurd hmem hpending⟩

theorem releaseModifier_other {k : ModifierKey} (hne : key ≠ k) (kb : Keyboard) :
    (releaseModifier k (kb, [])).1.modSent key = kb.modSent key ∧
      (key ∈ (releaseModifier k (kb, [])).1.cmdPending ↔ key ∈ kb.cmdPending) ∧
      (key ∈ (releaseModifier k (kb, [])).1.cmdConsumed ↔ key ∈ kb.cmdConsumed) := by
  unfold releaseModifier
  simp only
  by_cases hpending : k ∈ kb.cmdPending
  · rw [if_pos hpending]
    split
    · simp [hne]
    split
    · simp [hne]
    · rw [release_fst, press_fst]
      simp [hne]
  · rw [if_neg hpending]
    split
    · simp
    · rw [release_fst]
      simp [hne]

theorem pressModifier_other {k : ModifierKey} (hne : key ≠ k) (kb : Keyboard) :
    key ∈ (pressModifier k (kb, [])).1.cmdConsumed ↔ key ∈ kb.cmdConsumed := by
  unfold pressModifier
  split
  · simp [hne]
  split
  · exact Iff.rfl
  · exact Iff.rfl

theorem Spared.releases (h : Spared key p.2) (gone : ModifierKey → Prop) [DecidablePred gone]
    (hquiet : gone key → Quiet key p.1) (ks : List ModifierKey) :
    Spared key (ks.foldl
      (fun p k => if gone k then Keyboard.onBehalf {k} (releaseModifier k) p else p) p).2 := by
  induction ks generalizing p with
  | nil => exact h
  | cons k ks ih =>
      rw [List.foldl_cons]
      by_cases hk : gone k
      · rw [if_pos hk]
        by_cases hne : key = k
        · subst hne
          obtain ⟨hsilent, hstays⟩ := releaseModifier_quiet (hquiet hk)
          exact ih (h.silent _ hsilent) fun _ => hstays
        · obtain ⟨hsent, hpending, hconsumed⟩ := releaseModifier_other hne p.1
          refine ih (h.onBehalf (by simpa using hne) _) fun hgone => ?_
          obtain ⟨hsent', hconsumed'⟩ := hquiet hgone
          exact ⟨hsent.trans hsent', fun hmem => hconsumed.mpr (hconsumed' (hpending.mp hmem))⟩
      · rw [if_neg hk]
        exact ih h hquiet

theorem Spared.presses (h : Spared key p.2) (hcommand : key.isCommand = true)
    (come : ModifierKey → Prop) [DecidablePred come] (ks : List ModifierKey) :
    Spared key (ks.foldl
      (fun p k => if come k then Keyboard.onBehalf {k} (pressModifier k) p else p) p).2 := by
  induction ks generalizing p with
  | nil => exact h
  | cons k ks ih =>
      rw [List.foldl_cons]
      refine ih ?_
      by_cases hk : come k
      · rw [if_pos hk]
        by_cases hne : key = k
        · subst hne
          apply h.silent
          unfold pressModifier
          rw [if_pos hcommand]
        · exact h.onBehalf (by simpa using hne) _
      · rw [if_neg hk]
        exact h

theorem Spared.applyModifiersFor (h : Spared key p.2) (hcommand : key.isCommand = true)
    (flags : ModifierFlags) (changed : Option UInt16)
    (hquiet : key ∈ p.1.mods → key ∉ heldModifiers flags changed p.1.mods → Quiet key p.1) :
    Spared key (applyModifiersFor flags changed p).2 := by
  have hreleased := h.releases
    (fun k => k ∈ p.1.mods ∧ k ∉ heldModifiers flags changed p.1.mods)
    (fun hgone => hquiet hgone.1 hgone.2) ModifierKey.all.reverse
  exact hreleased.presses hcommand
    (fun k => k ∉ p.1.mods ∧ k ∈ heldModifiers flags changed p.1.mods) ModifierKey.all

theorem mem_consumed_applyModifiersFor {flags : ModifierFlags} {changed : Option UInt16}
    (hmem : key ∈ p.1.mods) (hheld : key ∈ heldModifiers flags changed p.1.mods)
    (hconsumed : key ∈ p.1.cmdConsumed) :
    key ∈ (applyModifiersFor flags changed p).1.cmdConsumed := by
  have hreleased := List.foldlRecOn (motive := fun q : Attributed => key ∈ q.1.cmdConsumed)
    ModifierKey.all.reverse
    (fun q k => if k ∈ p.1.mods ∧ k ∉ heldModifiers flags changed p.1.mods then
      onBehalf {k} (releaseModifier k) q else q) hconsumed fun q hq k _ => by
        by_cases hk : k ∈ p.1.mods ∧ k ∉ heldModifiers flags changed p.1.mods
        · rw [if_pos hk]
          have hne : key ≠ k := by
            rintro rfl
            exact hk.2 hheld
          exact (releaseModifier_other hne q.1).2.2.mpr hq
        · rw [if_neg hk]
          exact hq
  exact List.foldlRecOn (motive := fun q : Attributed => key ∈ q.1.cmdConsumed) ModifierKey.all
    (fun q k => if k ∉ p.1.mods ∧ k ∈ heldModifiers flags changed p.1.mods then
      onBehalf {k} (pressModifier k) q else q) hreleased fun q hq k _ => by
        by_cases hk : k ∉ p.1.mods ∧ k ∈ heldModifiers flags changed p.1.mods
        · rw [if_pos hk]
          have hne : key ≠ k := by
            rintro rfl
            exact hk.1 hmem
          exact (pressModifier_other hne q.1).mpr hq
        · rw [if_neg hk]
          exact hq

end Spared

/-! ### Calls -/

def sendsScancode (kb : Keyboard) (code : UInt16) : Bool :=
  !isModifier code && !kb.heldKeys.contains code &&
    (scancodeFor code kb.keyboard kb.prefs.cmdAs).isSome

/-- The call sends a key that is not a modifier as a scancode. -/
def sendsKey (kb : Keyboard) : Op → Bool
  | .keyDown code flags isRepeat composing =>
    routeKeyDown kb.prefs code flags composing = .scancode && !isRepeat && kb.sendsScancode code
  | .keyDownScancode code _ => kb.sendsScancode code
  | _ => false

section Calls

variable {key : ModifierKey} {kb : Keyboard} {h : History}

theorem tracks_applyModifiersFor (ht : Tracks h kb) (flags : ModifierFlags)
    (changed : Option UInt16) (force : Bool) :
    Tracks (h.see flags changed)
      (applyModifiersFor flags changed (onBehalf ∅ (syncCaps flags force) (kb, []))).1 := by
  have hevents := forget_applyModifiersFor flags changed (onBehalf ∅ (syncCaps flags force) (kb, []))
  rw [forget_onBehalf (appends_syncCaps flags force)] at hevents
  have hstate : (applyModifiersFor flags changed (onBehalf ∅ (syncCaps flags force) (kb, []))).1 =
      (applyModifiers flags changed (syncCaps flags force (kb, []))).1 := congrArg Prod.fst hevents
  rw [hstate]
  exact (Tracks.syncCaps (p := (kb, [])) ht flags force).applyModifiers flags changed

theorem spared_applyModifiersFor (hcommand : key.isCommand = true) (flags : ModifierFlags)
    (changed : Option UInt16) (force : Bool)
    (hquiet : key ∈ kb.mods → key ∉ heldModifiers flags changed kb.mods → Quiet key kb) :
    Spared key
      (applyModifiersFor flags changed (onBehalf ∅ (syncCaps flags force) (kb, []))).2 :=
  Spared.applyModifiersFor (spared_nil.onBehalf (Finset.notMem_empty key) _) hcommand flags changed
    hquiet

theorem heldKeys_see {kb' : Keyboard} {flags : ModifierFlags} {changed : Option UInt16}
    (ht : Tracks h kb) (ht' : Tracks (h.see flags changed) kb') (code : UInt16) :
    kb'.heldKeys.contains code = kb.heldKeys.contains code := by
  rw [ExtTreeMap.contains_eq_isSome_getElem?, ExtTreeMap.contains_eq_isSome_getElem?,
    ht'.counted.keys_eq, ht.counted.keys_eq]
  rfl

theorem scancodeFor_see {kb' : Keyboard} {flags : ModifierFlags} {changed : Option UInt16}
    (ht : Tracks h kb) (ht' : Tracks (h.see flags changed) kb') (code : UInt16) :
    scancodeFor code kb'.keyboard kb'.prefs.cmdAs = scancodeFor code kb.keyboard kb.prefs.cmdAs := by
  rw [ht'.keyboard_eq, ht'.prefs_eq, ht.keyboard_eq, ht.prefs_eq]
  rfl

theorem mods_keyDownScancode (h : History) (code : UInt16) (flags : ModifierFlags) :
    (h.keyDownScancode code flags).mods = (h.see flags none).mods := by
  unfold History.keyDownScancode
  simp only
  split
  · rfl
  split <;> rfl

/-- A key goes down: what is sent for the Command key, if the key is not sent while it is held. -/
theorem spared_keyDownScancodeFor (ht : Tracks h kb) (hcommand : key.isCommand = true)
    {code : UInt16} {flags : ModifierFlags}
    (hsends : key ∈ (h.see flags none).mods → kb.sendsScancode code = false)
    (hquiet : key ∈ kb.mods → key ∉ heldModifiers flags none kb.mods → Quiet key kb) :
    Spared key (kb.keyDownScancodeFor code flags).2 := by
  have hspared := spared_applyModifiersFor hcommand flags none false hquiet
  have htracks := tracks_applyModifiersFor ht flags none false
  unfold keyDownScancodeFor
  simp only
  generalize applyModifiersFor flags none (onBehalf ∅ (syncCaps flags false) (kb, [])) = p
    at hspared htracks ⊢
  rw [heldKeys_see ht htracks, scancodeFor_see ht htracks]
  by_cases hskip : (isModifier code || kb.heldKeys.contains code) = true
  · rw [if_pos hskip]
    exact hspared
  · rw [if_neg hskip]
    cases hsc : scancodeFor code kb.keyboard kb.prefs.cmdAs with
    | none => exact hspared
    | some sc =>
        have hpending : key ∉ p.1.cmdPending := by
          intro hmem
          have hoff := hsends ((htracks.pending_iff key).mp hmem).1
          unfold sendsScancode at hoff
          rw [hsc] at hoff
          simp at hoff hskip
          exact absurd (hoff hskip.1) hskip.2
        exact (hspared.flushCommandFor hpending).onBehalf (Finset.notMem_empty key) _

/-- What is sent for text is sent for the holders of its level modifiers. -/
theorem spared_insertTextFor (hsent : kb.modSent key = none) (text : String) :
    Spared key (kb.insertTextFor text) := by
  have hholders : ∀ sc, key ∉ kb.holders sc := by
    intro sc hmem
    rw [(Finset.mem_filter.mp hmem).2] at hsent
    cases hsent
  unfold insertTextFor
  simp only
  split
  · exact spared_nil
  · apply Spared.append
    · apply Spared.append
      · intro event hevent
        obtain ⟨sc, -, rfl⟩ := List.mem_map.mp hevent
        exact hholders sc
      · intro event hevent
        obtain ⟨e, -, rfl⟩ := List.mem_map.mp hevent
        exact Finset.notMem_empty key
    · intro event hevent
      obtain ⟨sc, -, rfl⟩ := List.mem_map.mp hevent
      exact hholders sc

/-- **One call.** Nothing is sent for a Command key that was not sent yet, unless the call sends a key or
prepares a button while it is held, or lets it come up unclaimed. -/
theorem spared_applyFor (ht : Tracks h kb) (hcommand : key.isCommand = true)
    (hsent : h.sent key = none) (op : Op)
    (hholds : key ∈ (kb.apply op).1.mods → kb.sendsKey op = false ∧ op ≠ .preparePointerButton)
    (hends : key ∈ kb.mods → key ∉ (kb.apply op).1.mods →
      key ∈ kb.cmdConsumed ∨ op = .focusLost) :
    Spared key (kb.applyFor op).2 := by
  have hafter := ht.apply op
  rw [hafter.mods_eq] at hholds hends
  have hmodSent : kb.modSent key = none := by rw [ht.counted.sent_eq, hsent]
  have hquiet : op ≠ .focusLost → key ∈ kb.mods → key ∉ (h.apply op).mods → Quiet key kb :=
    fun hop hmem hgone =>
      ⟨hmodSent, fun _ => (hends hmem hgone).resolve_right hop⟩
  have hrest : Spared key (onBehalf ∅ (fun p => ((p.1.apply op).1, p.2 ++ (p.1.apply op).2))
      (kb, [])).2 := spared_nil.onBehalf (Finset.notMem_empty key) _
  cases op with
  | flagsChanged code flags =>
      refine spared_applyModifiersFor hcommand flags _ _ ?_
      rw [ht.mods_eq] at hquiet ⊢
      exact hquiet (fun heq => by cases heq)
  | focusGained flags =>
      refine spared_applyModifiersFor hcommand flags _ _ ?_
      rw [ht.mods_eq] at hquiet ⊢
      exact hquiet (fun heq => by cases heq)
  | keyDownScancode code flags =>
      have hmods : (h.apply (.keyDownScancode code flags)).mods = (h.see flags none).mods :=
        mods_keyDownScancode h code flags
      rw [hmods] at hholds hquiet
      refine spared_keyDownScancodeFor ht hcommand (fun hmem => (hholds hmem).1) ?_
      rw [ht.mods_eq] at hquiet ⊢
      exact hquiet (fun heq => by cases heq)
  | keyDown code flags isRepeat composing =>
      simp only [applyFor]
      simp only [sendsKey, History.apply, ← ht.prefs_eq] at hholds hquiet
      cases hroute : routeKeyDown kb.prefs code flags composing with
      | text => exact spared_nil
      | scancode =>
          cases isRepeat with
          | true => exact spared_nil
          | false =>
              simp only [hroute, and_self, if_true, mods_keyDownScancode] at hholds hquiet
              refine spared_keyDownScancodeFor ht hcommand (fun hmem => ?_) ?_
              · simpa using (hholds hmem).1
              · rw [ht.mods_eq] at hquiet ⊢
                exact hquiet (fun heq => by cases heq)
  | insertText text => exact spared_insertTextFor hmodSent text
  | preparePointerButton =>
      refine Spared.flushCommandFor spared_nil fun hmem => ?_
      exact (hholds ((ht.pending_iff key).mp hmem).1).2 rfl
  | setPrefs prefs => exact hrest
  | setKeyboardType keyboard => exact hrest
  | keyUp code => exact hrest
  | menuShortcutTaken => exact hrest
  | focusLost => exact hrest
  | ctrlAltDel => exact hrest

theorem sent_see (hcommand : key.isCommand = true) (hsent : h.sent key = none)
    (flags : ModifierFlags) (changed : Option UInt16) : (h.see flags changed).sent key = none := by
  simp only [History.see, hcommand, or_true, if_true, hsent, ite_self]

theorem sent_useCommand (hsent : h.sent key = none) (hmem : key ∉ h.mods) :
    h.useCommand.sent key = none := by
  simp only [History.useCommand]
  rw [if_neg fun hcond => hmem hcond.1, hsent]

/-- A key that is sent flushes the Command keys, but not one that is up. -/
theorem sent_keyDownScancode (ht : Tracks h kb) (hcommand : key.isCommand = true)
    (hsent : h.sent key = none) {code : UInt16} {flags : ModifierFlags}
    (hsends : key ∈ (h.see flags none).mods → kb.sendsScancode code = false) :
    (h.keyDownScancode code flags).sent key = none := by
  have hsee := sent_see hcommand hsent flags none
  unfold History.keyDownScancode
  simp only
  by_cases hskip : isModifier code = true ∨ ((h.see flags none).keys code).isSome = true
  · rw [if_pos hskip]
    exact hsee
  · rw [if_neg hskip]
    cases hsc : scancodeFor code (h.see flags none).keyboard (h.see flags none).prefs.cmdAs with
    | none => exact hsee
    | some sc =>
        refine sent_useCommand hsee fun hmem => ?_
        have hoff := hsends hmem
        have hsc' : scancodeFor code kb.keyboard kb.prefs.cmdAs = some sc := by
          rw [ht.keyboard_eq, ht.prefs_eq]
          exact hsc
        have hheld : kb.heldKeys.contains code = ((h.see flags none).keys code).isSome := by
          rw [ExtTreeMap.contains_eq_isSome_getElem?, ht.counted.keys_eq]
          rfl
        unfold sendsScancode at hoff
        rw [hsc', hheld] at hoff
        simp at hoff hskip
        simp [hskip] at hoff

theorem sent_apply (ht : Tracks h kb) (hcommand : key.isCommand = true)
    (hsent : h.sent key = none) (op : Op)
    (hholds : key ∈ (h.apply op).mods → kb.sendsKey op = false ∧ op ≠ .preparePointerButton) :
    (h.apply op).sent key = none := by
  cases op with
  | flagsChanged code flags => exact sent_see hcommand hsent flags (some code)
  | focusGained flags => exact sent_see hcommand hsent flags none
  | keyDownScancode code flags =>
      refine sent_keyDownScancode ht hcommand hsent fun hmem => ?_
      exact (hholds (mods_keyDownScancode h code flags ▸ hmem)).1
  | keyDown code flags isRepeat composing =>
      simp only [History.apply, sendsKey, ← ht.prefs_eq] at hholds ⊢
      by_cases hsends : routeKeyDown kb.prefs code flags composing = .scancode ∧ isRepeat = false
      · simp only [if_pos hsends, mods_keyDownScancode] at hholds ⊢
        refine sent_keyDownScancode ht hcommand hsent fun hmem => ?_
        simpa [hsends] using (hholds hmem).1
      · rw [if_neg hsends]
        exact hsent
  | preparePointerButton => exact sent_useCommand hsent fun hmem => (hholds hmem).2 rfl
  | focusLost => rfl
  | _ => exact hsent

theorem consumed_keyDownScancodeFor (ht : Tracks h kb) {code : UInt16} {flags : ModifierFlags}
    (hmem : key ∈ kb.mods) (hheld : key ∈ (h.see flags none).mods)
    (hsends : kb.sendsScancode code = false) (hconsumed : key ∈ kb.cmdConsumed) :
    key ∈ (kb.keyDownScancodeFor code flags).1.cmdConsumed := by
  have hstill : key ∈ (applyModifiersFor flags none
      (onBehalf ∅ (syncCaps flags false) (kb, []))).1.cmdConsumed := by
    refine mem_consumed_applyModifiersFor hmem ?_ hconsumed
    exact ht.mods_eq ▸ hheld
  have htracks := tracks_applyModifiersFor ht flags none false
  unfold keyDownScancodeFor
  simp only
  generalize applyModifiersFor flags none (onBehalf ∅ (syncCaps flags false) (kb, [])) = p
    at hstill htracks ⊢
  rw [heldKeys_see ht htracks, scancodeFor_see ht htracks]
  by_cases hskip : (isModifier code || kb.heldKeys.contains code) = true
  · rw [if_pos hskip]
    exact hstill
  · rw [if_neg hskip]
    cases hsc : scancodeFor code kb.keyboard kb.prefs.cmdAs with
    | none => exact hstill
    | some sc =>
        unfold sendsScancode at hsends
        rw [hsc] at hsends
        simp at hsends hskip
        simp [hskip] at hsends

theorem consumed_applyFor (ht : Tracks h kb) (hcommand : key.isCommand = true)
    (hsent : h.sent key = none) {op : Op} (hmem : key ∈ kb.mods)
    (hheld : key ∈ (kb.apply op).1.mods) (hsends : kb.sendsKey op = false)
    (hbutton : op ≠ .preparePointerButton)
    (hconsumed : key ∈ kb.cmdConsumed ∨ op = .menuShortcutTaken) :
    key ∈ (kb.applyFor op).1.cmdConsumed := by
  have htaken : op ≠ .menuShortcutTaken → key ∈ kb.cmdConsumed := hconsumed.resolve_right
  rw [(ht.apply op).mods_eq] at hheld
  cases op with
  | flagsChanged code flags =>
      refine mem_consumed_applyModifiersFor hmem ?_ (htaken fun heq => by cases heq)
      exact ht.mods_eq ▸ hheld
  | focusGained flags =>
      refine mem_consumed_applyModifiersFor hmem ?_ (htaken fun heq => by cases heq)
      exact ht.mods_eq ▸ hheld
  | keyDownScancode code flags =>
      have hheld : key ∈ (h.see flags none).mods := mods_keyDownScancode h code flags ▸ hheld
      exact consumed_keyDownScancodeFor ht hmem hheld hsends (htaken fun heq => by cases heq)
  | keyDown code flags isRepeat composing =>
      have hclaimed := htaken fun heq => by cases heq
      simp only [History.apply, sendsKey, applyFor, ← ht.prefs_eq] at hheld hsends ⊢
      cases hroute : routeKeyDown kb.prefs code flags composing with
      | text => exact hclaimed
      | scancode =>
          cases isRepeat with
          | true => exact hclaimed
          | false =>
              simp only [hroute, and_self, if_true, mods_keyDownScancode] at hheld
              refine consumed_keyDownScancodeFor ht hmem hheld ?_ hclaimed
              simpa [hroute] using hsends
  | menuShortcutTaken =>
      exact (ht.pending_iff key).mpr ⟨ht.mods_eq ▸ hmem, hcommand, hsent⟩
  | preparePointerButton => exact absurd rfl hbutton
  | focusLost => exact absurd hheld (Finset.notMem_empty key)
  | keyUp code =>
      change key ∈ (kb.keyUp code).1.cmdConsumed
      unfold keyUp
      split
      · exact htaken fun heq => by cases heq
      · rw [release_fst]
        exact htaken fun heq => by cases heq
  | ctrlAltDel =>
      change key ∈ kb.ctrlAltDel.1.cmdConsumed
      rw [ctrlAltDel, foldl_release_fst, foldl_press_fst]
      exact htaken fun heq => by cases heq
  | setPrefs prefs => exact htaken fun heq => by cases heq
  | setKeyboardType keyboard => exact htaken fun heq => by cases heq
  | insertText text => exact htaken fun heq => by cases heq

end Calls

/-! ### Intervals -/

/-- The key is held after the call, which sends no other key and prepares no button. -/
def Holding (key : ModifierKey) (kb : Keyboard) (op : Op) : Prop :=
  key ∈ (kb.apply op).1.mods ∧ kb.sendsKey op = false ∧ op ≠ .preparePointerButton

abbrev HoldingAlong (key : ModifierKey) (kb : Keyboard) (ops : List Op) : Prop :=
  Transition.Along apply (fun _ _ => ()) (fun kb _ op => Holding key kb op) kb () ops

section Intervals

variable {key : ModifierKey} {kb : Keyboard} {h : History}

theorem fst_run (kb : Keyboard) (ops : List Op) :
    (Transition.run applyFor kb ops).1 = (Transition.run apply kb ops).1 :=
  congrArg Prod.fst (run_attributed kb ops)

theorem fst_applyFor (kb : Keyboard) (op : Op) : (kb.applyFor op).1 = (kb.apply op).1 :=
  congrArg Prod.fst (forget_applyFor kb op)

/-- While a Command key is held, nothing is sent for it, and the menu's claim stays. -/
theorem spared_holding (hcommand : key.isCommand = true) {ops : List Op} (ht : Tracks h kb)
    (hsent : h.sent key = none) (hmem : key ∈ kb.mods) (halong : HoldingAlong key kb ops) :
    Spared key (Transition.run applyFor kb ops).2 ∧
      ∃ h', Tracks h' (Transition.run applyFor kb ops).1 ∧ h'.sent key = none ∧
        (key ∈ kb.cmdConsumed ∨ .menuShortcutTaken ∈ ops →
          key ∈ (Transition.run applyFor kb ops).1.cmdConsumed) := by
  induction ops generalizing kb h with
  | nil =>
      refine ⟨spared_nil, h, ht, hsent, fun htaken => ?_⟩
      exact htaken.resolve_right List.not_mem_nil
  | cons op ops ih =>
      obtain ⟨⟨hheld, hsends, hbutton⟩, hrest⟩ := halong
      have hspared := spared_applyFor ht hcommand hsent op (fun _ => ⟨hsends, hbutton⟩)
        (fun _ hgone => absurd hheld hgone)
      have hafter := ht.apply op
      have hsent' := sent_apply ht hcommand hsent op fun _ => ⟨hsends, hbutton⟩
      have hclaimed := consumed_applyFor ht hcommand hsent hmem hheld hsends hbutton
      rw [← fst_applyFor] at hheld hafter
      have hrest : HoldingAlong key (kb.applyFor op).1 ops := fst_applyFor kb op ▸ hrest
      obtain ⟨hspared', h', htracks, hnone, hkept⟩ := ih hafter hsent' hheld hrest
      rw [Transition.run_cons]
      refine ⟨hspared.append hspared', h', htracks, hnone, fun htaken => hkept ?_⟩
      rcases htaken with htaken | htaken
      · exact .inl (hclaimed (.inl htaken))
      · rcases List.mem_cons.mp htaken with heq | htaken
        · exact .inl (hclaimed (.inr heq.symm))
        · exact .inr htaken

/-- Command goes down, the menu takes a shortcut, and Command comes up. -/
def menuShortcut : List Op :=
  [.flagsChanged kvk.command ⟨0x100008⟩, .menuShortcutTaken, .flagsChanged kvk.command ⟨0⟩]

end Intervals

end Drift.Input.Keyboard
