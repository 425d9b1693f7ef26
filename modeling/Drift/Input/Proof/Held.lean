import Drift.Input.History
import Drift.Input.Proof.Wire
import Mathlib.Data.Fintype.EquivFin
import Mathlib.Tactic.Tauto

/-!
# Pressed is what is held

The keyboard follows its history: after every call the reference count of a scancode is the number
of keys down that were sent with it plus the number of modifiers held that were sent with it, and
the deferred Command keys are those held that were not sent. At most 128 keys and eight modifiers
can be counted, so the `u8` counters never saturate and the count is exact. A scancode is pressed
when its count is positive, which is what the history says should be pressed.
-/

namespace Drift.Input

open Std

instance fintypeUInt16 : Fintype UInt16 :=
  Fintype.ofEquiv (Fin UInt16.size)
    ⟨UInt16.ofFin, UInt16.toFin, fun _ => rfl, fun _ => rfl⟩

theorem card_codes_below : (Finset.univ.filter fun code : UInt16 => code < 128).card ≤ 128 := by
  have hmaps : ∀ code ∈ Finset.univ.filter fun code : UInt16 => code < 128,
      code.toNat ∈ Finset.range 128 := by
    intro code hcode
    exact Finset.mem_range.mpr (UInt16.lt_iff_toNat_lt.mp (Finset.mem_filter.mp hcode).2)
  have hinj : Set.InjOn UInt16.toNat (Finset.univ.filter fun code : UInt16 => code < 128) :=
    fun a _ b _ h => UInt16.toNat_inj.mp h
  simpa using Finset.card_le_card_of_injOn UInt16.toNat hmaps hinj

namespace Keyboard

/-! ### What the internal operations leave alone -/

/-- The part of the state that presses and releases never touch. -/
def settings (kb : Keyboard) : KeyboardPrefs × KeyboardType × ModifierSet :=
  (kb.prefs, kb.keyboard, kb.mods)

variable {p : Emitting}

theorem press_fst (sc : Scancode) (p : Emitting) :
    (press sc p).1 = { p.1 with pressed := RefCount.acquire 255 p.1.pressed sc } := rfl

theorem release_fst (sc : Scancode) (p : Emitting) :
    (release sc p).1 = { p.1 with pressed := RefCount.release p.1.pressed sc } := by
  unfold release
  split
  · next hnone => simp [RefCount.release, hnone]
  · rfl

theorem foldl_press_fst (scs : List Scancode) (p : Emitting) :
    (scs.foldl (fun p sc => press sc p) p).1 =
      { p.1 with pressed := scs.foldl (RefCount.acquire 255) p.1.pressed } := by
  induction scs generalizing p with
  | nil => rfl
  | cons sc scs ih => rw [List.foldl_cons, ih, press_fst, List.foldl_cons]

theorem foldl_release_fst (scs : List Scancode) (p : Emitting) :
    (scs.foldl (fun p sc => release sc p) p).1 =
      { p.1 with pressed := scs.foldl RefCount.release p.1.pressed } := by
  induction scs generalizing p with
  | nil => rfl
  | cons sc scs ih => rw [List.foldl_cons, ih, release_fst, List.foldl_cons]

theorem settings_sendCommand (p : Emitting) (key : ModifierKey) :
    (sendCommand p key).1.settings = p.1.settings := by
  unfold sendCommand
  split <;> rfl

theorem settings_foldl_sendCommand (p : Emitting) (keys : List ModifierKey) :
    (keys.foldl sendCommand p).1.settings = p.1.settings := by
  induction keys generalizing p with
  | nil => rfl
  | cons key keys ih => rw [List.foldl_cons, ih, settings_sendCommand]

theorem settings_pressModifier (key : ModifierKey) (p : Emitting) :
    (pressModifier key p).1.settings = p.1.settings := by
  unfold pressModifier
  split
  · rfl
  split <;> rfl

theorem settings_releaseModifier (key : ModifierKey) (p : Emitting) :
    (releaseModifier key p).1.settings = p.1.settings := by
  unfold releaseModifier
  split
  · dsimp only
    split
    · rfl
    split
    · rfl
    · rw [release_fst]
      rfl
  split
  · rfl
  · rw [release_fst]
    rfl

theorem modifierScancode_eq_of_settings {kb kb' : Keyboard} (h : kb.settings = kb'.settings)
    (key : ModifierKey) : kb.modifierScancode key = kb'.modifierScancode key := by
  simp only [settings, Prod.mk.injEq] at h
  rw [modifierScancode, modifierScancode, h.1, h.2.1]

/-! ### Exact counts -/

/-- The counts of `kb` are the uses by the assignments `keys` and `sent`, which are its own. -/
structure Counted (keys : UInt16 → Option Scancode) (sent : ModifierKey → Option Scancode)
    (kb : Keyboard) : Prop where
  keys_eq : ∀ code : UInt16, kb.heldKeys[code]? = keys code
  keys_lt : ∀ code, keys code ≠ none → code < 128
  sent_eq : kb.modSent = sent
  count_eq : ∀ sc, RefCount.count kb.pressed sc = RefCount.uses keys sc + RefCount.uses sent sc

namespace Counted

variable {keys : UInt16 → Option Scancode} {sent : ModifierKey → Option Scancode}
  {kb : Keyboard}

theorem count_lt (h : Counted keys sent kb) (sc : Scancode) :
    RefCount.count kb.pressed sc < 250 := by
  have hkeys : RefCount.uses keys sc ≤ 128 :=
    (RefCount.uses_le_card (fun code hcode =>
      Finset.mem_filter.mpr ⟨Finset.mem_univ code, h.keys_lt code hcode⟩) sc).trans
      card_codes_below
  have hsent : RefCount.uses sent sc ≤ (Finset.univ : Finset ModifierKey).card :=
    RefCount.uses_le_card (fun key _ => Finset.mem_univ key) sc
  have hcard : (Finset.univ : Finset ModifierKey).card = 8 := rfl
  rw [h.count_eq]
  omega

theorem count_tap (h : Counted keys sent kb) (sc j : Scancode) :
    RefCount.count (RefCount.release (RefCount.acquire 255 kb.pressed sc) sc) j =
      RefCount.count kb.pressed j := by
  have hlt := h.count_lt sc
  rw [RefCount.count_release, RefCount.count_acquire (by omega)]
  omega

theorem assign_modifier (h : Counted keys sent kb) {key : ModifierKey} (hfree : sent key = none)
    (sc : Scancode) :
    Counted keys (Function.update sent key (some sc))
      { kb with
        pressed := RefCount.acquire 255 kb.pressed sc
        modSent := Function.update kb.modSent key (some sc) } where
  keys_eq := h.keys_eq
  keys_lt := h.keys_lt
  sent_eq := congrArg (Function.update · key (some sc)) h.sent_eq
  count_eq j := by
    have hlt := h.count_lt sc
    rw [RefCount.count_acquire (by omega), RefCount.uses_assign hfree, h.count_eq, Nat.add_assoc]

theorem unassign_modifier (h : Counted keys sent kb) {key : ModifierKey} {sc : Scancode}
    (hsc : sent key = some sc) :
    Counted keys (Function.update sent key none)
      { kb with
        pressed := RefCount.release kb.pressed sc
        modSent := Function.update kb.modSent key none } where
  keys_eq := h.keys_eq
  keys_lt := h.keys_lt
  sent_eq := congrArg (Function.update · key none) h.sent_eq
  count_eq j := by
    have huses := RefCount.uses_unassign hsc j
    rw [RefCount.count_release, h.count_eq]
    omega

theorem assign_key (h : Counted keys sent kb) {code : UInt16} (hfree : keys code = none)
    (hcode : code < 128) (sc : Scancode) :
    Counted (Function.update keys code (some sc)) sent
      { kb with
        pressed := RefCount.acquire 255 kb.pressed sc
        heldKeys := kb.heldKeys.insert code sc } where
  keys_eq j := by
    rw [ExtTreeMap.getElem?_insert]
    by_cases hj : code = j
    · subst hj
      simp
    · simp [hj, Function.update_of_ne (Ne.symm hj), h.keys_eq]
  keys_lt j hj := by
    by_cases heq : j = code
    · rw [heq]
      exact hcode
    · rw [Function.update_of_ne heq] at hj
      exact h.keys_lt j hj
  sent_eq := h.sent_eq
  count_eq j := by
    have hlt := h.count_lt sc
    rw [RefCount.count_acquire (by omega), RefCount.uses_assign hfree, h.count_eq]
    omega

theorem unassign_key (h : Counted keys sent kb) {code : UInt16} {sc : Scancode}
    (hsc : keys code = some sc) :
    Counted (Function.update keys code none) sent
      { kb with
        pressed := RefCount.release kb.pressed sc
        heldKeys := kb.heldKeys.erase code } where
  keys_eq j := by
    rw [ExtTreeMap.getElem?_erase]
    by_cases hj : code = j
    · subst hj
      simp
    · simp [hj, Function.update_of_ne (Ne.symm hj), h.keys_eq]
  keys_lt j hj := by
    by_cases heq : j = code
    · rw [heq, Function.update_self] at hj
      exact absurd rfl hj
    · rw [Function.update_of_ne heq] at hj
      exact h.keys_lt j hj
  sent_eq := h.sent_eq
  count_eq j := by
    have huses := RefCount.uses_unassign hsc j
    rw [RefCount.count_release, h.count_eq]
    omega

theorem foldl_sendCommand {p : Emitting} (h : Counted keys sent p.1) {ks : List ModifierKey}
    (hnodup : ks.Nodup) (hfree : ∀ key ∈ ks, sent key = none) :
    Counted keys (fun key => if key ∈ ks then p.1.modifierScancode key else sent key)
      (ks.foldl sendCommand p).1 := by
  induction ks generalizing p sent with
  | nil => simpa using h
  | cons key ks ih =>
      obtain ⟨hkey, hks⟩ := List.nodup_cons.mp hnodup
      have hnone : sent key = none := hfree key List.mem_cons_self
      have hstep : Counted keys (Function.update sent key (p.1.modifierScancode key))
          (sendCommand p key).1 := by
        have hsame : Function.update sent key none = sent := by
          rw [← hnone, Function.update_eq_self]
        unfold sendCommand
        cases hsc : p.1.modifierScancode key with
        | none =>
            rw [hsame]
            exact h
        | some sc => exact h.assign_modifier hnone sc
      have hrest : ∀ j ∈ ks, Function.update sent key (p.1.modifierScancode key) j = none := by
        intro j hj
        have hne : j ≠ key := fun heq => hkey (heq ▸ hj)
        rw [Function.update_of_ne hne]
        exact hfree j (List.mem_cons_of_mem key hj)
      have hfinal := ih hstep hks hrest
      rw [List.foldl_cons]
      convert hfinal using 2 with j
      rw [modifierScancode_eq_of_settings (settings_sendCommand p key) j]
      by_cases hj : j = key
      · subst hj
        simp [hkey]
      · simp [hj]

end Counted

/-! ### Following the history -/

/-- The keyboard agrees with a history whose modifiers are `h.mods`. Its own `mods` are left out:
they are set at the end of `applyModifiers`. -/
structure Follows (h : History) (kb : Keyboard) : Prop where
  prefs_eq : kb.prefs = h.prefs
  keyboard_eq : kb.keyboard = h.keyboard
  counted : Counted h.keys h.sent kb
  sent_mem : ∀ key, h.sent key ≠ none → key ∈ h.mods
  pending_iff : ∀ key, key ∈ kb.cmdPending ↔ key ∈ h.mods ∧ key.isCommand ∧ h.sent key = none

end Keyboard

namespace History

def drop (h : History) (key : ModifierKey) : History :=
  { h with mods := h.mods.erase key, sent := Function.update h.sent key none }

def take (h : History) (key : ModifierKey) : History :=
  { h with
    mods := insert key h.mods
    sent :=
      if key.isCommand then h.sent
      else Function.update h.sent key (scancodeFor key.kvk h.keyboard h.prefs.cmdAs) }

theorem foldl_drop (ks : List ModifierKey) (h : History) :
    ks.foldl drop h =
      { h with
        mods := h.mods \ ks.toFinset
        sent := fun key => if key ∈ ks then none else h.sent key } := by
  induction ks generalizing h with
  | nil => simp
  | cons k ks ih =>
      rw [List.foldl_cons, ih]
      simp only [drop, mk.injEq, true_and, and_true]
      refine ⟨?_, ?_⟩
      · ext key
        simp only [Finset.mem_sdiff, Finset.mem_erase, List.mem_toFinset, List.mem_cons]
        tauto
      · funext key
        by_cases hkey : key = k
        · subst hkey
          simp
        · simp [hkey]

theorem foldl_take (ks : List ModifierKey) (h : History) :
    ks.foldl take h =
      { h with
        mods := h.mods ∪ ks.toFinset
        sent := fun key =>
          if key ∈ ks ∧ key.isCommand = false then
            scancodeFor key.kvk h.keyboard h.prefs.cmdAs
          else h.sent key } := by
  induction ks generalizing h with
  | nil => simp
  | cons k ks ih =>
      rw [List.foldl_cons, ih]
      simp only [take, mk.injEq, true_and, and_true]
      refine ⟨?_, ?_⟩
      · ext key
        simp only [Finset.mem_union, Finset.mem_insert, List.mem_toFinset, List.mem_cons]
        tauto
      · funext key
        by_cases hkey : key = k
        · subst hkey
          cases key.isCommand <;> simp
        · cases hcmd : k.isCommand <;> simp [hkey]

end History

namespace Keyboard

namespace Follows

variable {h : History} {p : Emitting}

theorem modifierScancode_eq {kb : Keyboard} (hf : Follows h kb) (key : ModifierKey) :
    kb.modifierScancode key = scancodeFor key.kvk h.keyboard h.prefs.cmdAs := by
  rw [modifierScancode, hf.prefs_eq, hf.keyboard_eq]

theorem releaseModifier (hf : Follows h p.1) (key : ModifierKey) :
    Follows (h.drop key) (releaseModifier key p).1 := by
  have hsettings := settings_releaseModifier key p
  simp only [settings, Prod.mk.injEq] at hsettings
  have hmem : ∀ k, Function.update h.sent key none k ≠ none → k ∈ h.mods.erase key := by
    intro k hk
    by_cases hne : k = key
    · simp [hne] at hk
    · rw [Function.update_of_ne hne] at hk
      exact Finset.mem_erase.mpr ⟨hne, hf.sent_mem k hk⟩
  refine ⟨hsettings.1.trans hf.prefs_eq, hsettings.2.1.trans hf.keyboard_eq, ?_, hmem, ?_⟩
  · unfold Keyboard.releaseModifier
    split
    · next hpending =>
      have hnone : h.sent key = none := ((hf.pending_iff key).mp hpending).2.2
      have hsent : Function.update h.sent key none = h.sent := by
        rw [← hnone, Function.update_eq_self]
      simp only [History.drop, hsent]
      split
      · exact { hf.counted with }
      split
      · exact { hf.counted with }
      · next sc _ =>
        rw [release_fst, press_fst]
        exact
          { hf.counted with
            count_eq := fun j => (hf.counted.count_tap sc j).trans (hf.counted.count_eq j) }
    · have hmodSent := congrFun hf.counted.sent_eq key
      split
      · next hnone =>
        rw [hnone] at hmodSent
        simp only [History.drop]
        rw [hmodSent, Function.update_eq_self]
        exact hf.counted
      · next sc hsc =>
        rw [hsc] at hmodSent
        rw [release_fst]
        exact hf.counted.unassign_modifier hmodSent.symm
  · intro k
    have hiff := hf.pending_iff k
    have hpending : k ∈ (Keyboard.releaseModifier key p).1.cmdPending ↔
        k ∈ p.1.cmdPending ∧ k ≠ key := by
      unfold Keyboard.releaseModifier
      split
      · dsimp only
        split
        · simp [and_comm]
        split
        · simp [and_comm]
        · rw [release_fst, press_fst]
          simp [and_comm]
      · next hnot =>
        have hne : k ∈ p.1.cmdPending → k ≠ key := fun hk heq => hnot (heq ▸ hk)
        split
        · simpa using hne
        · rw [release_fst]
          simpa using hne
    simp only [History.drop]
    rw [hpending, hiff, Finset.mem_erase]
    by_cases hne : k = key
    · simp [hne]
    · simp [hne]

theorem pressModifier (hf : Follows h p.1) {key : ModifierKey} (hkey : key ∉ h.mods) :
    Follows (h.take key) (pressModifier key p).1 := by
  have hsettings := settings_pressModifier key p
  simp only [settings, Prod.mk.injEq] at hsettings
  have hnone : h.sent key = none := by
    by_contra hsent
    exact hkey (hf.sent_mem key hsent)
  obtain ⟨sc, hsc⟩ := key.exists_scancodeFor h.keyboard h.prefs.cmdAs
  have hscancode : p.1.modifierScancode key = some sc := by rw [hf.modifierScancode_eq, hsc]
  refine ⟨hsettings.1.trans hf.prefs_eq, hsettings.2.1.trans hf.keyboard_eq, ?_, ?_, ?_⟩
  · unfold Keyboard.pressModifier
    simp only [History.take]
    split
    · exact { hf.counted with }
    · rw [hscancode, hsc]
      exact hf.counted.assign_modifier hnone sc
  · intro k hk
    simp only [History.take] at hk ⊢
    by_cases hne : k = key
    · exact hne ▸ Finset.mem_insert_self _ _
    · refine Finset.mem_insert_of_mem (hf.sent_mem k ?_)
      split at hk
      · exact hk
      · rwa [Function.update_of_ne hne] at hk
  · intro k
    have hiff := hf.pending_iff k
    unfold Keyboard.pressModifier
    simp only [History.take]
    split
    · next hcmd =>
      simp only [Finset.mem_insert, hiff]
      by_cases hne : k = key
      · subst hne
        simp [hcmd, hnone]
      · simp [hne]
    · next hcmd =>
      rw [hscancode]
      simp only [press_fst, hiff, Finset.mem_insert]
      by_cases hne : k = key
      · subst hne
        simp [hcmd]
      · simp [hne]

theorem foldl_releaseModifier (hf : Follows h p.1) (ks : List ModifierKey) :
    Follows (ks.foldl History.drop h)
      (ks.foldl (fun p key => Keyboard.releaseModifier key p) p).1 := by
  induction ks generalizing h p with
  | nil => exact hf
  | cons key ks ih => exact ih (hf.releaseModifier key)

theorem foldl_pressModifier (hf : Follows h p.1) {ks : List ModifierKey} (hnodup : ks.Nodup)
    (hfree : ∀ key ∈ ks, key ∉ h.mods) :
    Follows (ks.foldl History.take h)
      (ks.foldl (fun p key => Keyboard.pressModifier key p) p).1 := by
  induction ks generalizing h p with
  | nil => exact hf
  | cons key ks ih =>
      obtain ⟨hkey, hks⟩ := List.nodup_cons.mp hnodup
      refine ih (hf.pressModifier (hfree key List.mem_cons_self)) hks ?_
      intro j hj hmem
      rcases Finset.mem_insert.mp hmem with rfl | hmem
      · exact hkey hj
      · exact hfree j (List.mem_cons_of_mem key hj) hmem

theorem applyModifiers (hf : Follows h p.1) (hmods : p.1.mods = h.mods) (flags : ModifierFlags)
    (changed : Option UInt16) :
    Follows (h.see flags changed) (applyModifiers flags changed p).1 := by
  set held := heldModifiers flags changed h.mods with hheld
  set gone := ModifierKey.all.reverse.filter fun key => key ∈ h.mods ∧ key ∉ held with hgone
  set come := ModifierKey.all.filter fun key => key ∉ h.mods ∧ key ∈ held with hcome
  have hmemGone : ∀ key, key ∈ gone ↔ key ∈ h.mods ∧ key ∉ held := by simp [hgone]
  have hmemCome : ∀ key, key ∈ come ↔ key ∉ h.mods ∧ key ∈ held := by simp [hcome]
  have hdrop := hf.foldl_releaseModifier gone
  have hfree : ∀ key ∈ come, key ∉ (gone.foldl History.drop h).mods := by
    intro key hkey
    rw [History.foldl_drop]
    exact fun hmem => ((hmemCome key).mp hkey).1 (Finset.mem_sdiff.mp hmem).1
  have hnodup : come.Nodup := ModifierKey.all_nodup.filter _
  have htake := hdrop.foldl_pressModifier hnodup hfree
  rw [History.foldl_take, History.foldl_drop] at htake
  -- The two loops of the source run over the modifiers that went and those that came.
  have hloops : (Keyboard.applyModifiers flags changed p).1 =
      { (come.foldl (fun p key => Keyboard.pressModifier key p)
          (gone.foldl (fun p key => Keyboard.releaseModifier key p) p)).1 with mods := held } := by
    rw [hgone, hcome, List.foldl_filter, List.foldl_filter]
    simp only [Keyboard.applyModifiers, hmods, decide_eq_true_eq, hheld]
  have hmodsEq : h.mods \ gone.toFinset ∪ come.toFinset = held := by
    ext key
    simp only [Finset.mem_union, Finset.mem_sdiff, List.mem_toFinset, hmemGone, hmemCome]
    tauto
  have hsentEq : ∀ key,
      (if key ∈ come ∧ key.isCommand = false then
          scancodeFor key.kvk h.keyboard h.prefs.cmdAs
        else if key ∈ gone then none else h.sent key) = (h.see flags changed).sent key := by
    intro key
    have hnone : key ∉ h.mods → h.sent key = none := fun hkey => by
      by_contra hsent
      exact hkey (hf.sent_mem key hsent)
    simp only [History.see, ← hheld, hmemCome, hmemGone]
    by_cases hkey : key ∈ h.mods <;> by_cases hkey' : key ∈ held <;>
      cases hcmd : key.isCommand <;> simp [hkey, hkey', hnone]
  have hfinal : Follows (h.see flags changed)
      (come.foldl (fun p key => Keyboard.pressModifier key p)
        (gone.foldl (fun p key => Keyboard.releaseModifier key p) p)).1 := by
    refine ⟨htake.prefs_eq, htake.keyboard_eq, ?_, ?_, ?_⟩
    · have hcounted := htake.counted
      simp only [hsentEq] at hcounted
      exact hcounted
    · have hsent_mem := htake.sent_mem
      simp only [hsentEq, hmodsEq] at hsent_mem
      exact hsent_mem
    · have hpending_iff := htake.pending_iff
      simp only [hsentEq, hmodsEq] at hpending_iff
      exact hpending_iff
  rw [hloops]
  exact { hfinal with counted := { hfinal.counted with } }

theorem flushCommand (hf : Follows h p.1) : Follows h.useCommand (flushCommand p).1 := by
  have hsettings := settings_foldl_sendCommand p p.1.cmdPending.iter
  simp only [settings, Prod.mk.injEq] at hsettings
  have hcounted := hf.counted.foldl_sendCommand p.1.cmdPending.iter_nodup fun key hkey =>
    ((hf.pending_iff key).mp (ModifierSet.mem_iter.mp hkey)).2.2
  have hsentEq : (fun key => if key ∈ p.1.cmdPending.iter then p.1.modifierScancode key
      else h.sent key) = h.useCommand.sent := by
    funext key
    simp only [ModifierSet.mem_iter, hf.pending_iff, hf.modifierScancode_eq, History.useCommand]
  rw [hsentEq] at hcounted
  refine ⟨hsettings.1.trans hf.prefs_eq, hsettings.2.1.trans hf.keyboard_eq,
    { hcounted with }, ?_, ?_⟩
  · intro key hkey
    simp only [History.useCommand] at hkey ⊢
    split at hkey
    · next hcond => exact hcond.1
    · exact hf.sent_mem key hkey
  · intro key
    obtain ⟨sc, hsc⟩ := key.exists_scancodeFor h.keyboard h.prefs.cmdAs
    simp only [Keyboard.flushCommand, Finset.notMem_empty, History.useCommand, false_iff]
    rintro ⟨hmem, hcmd, hnone⟩
    split at hnone
    · rw [hsc] at hnone
      cases hnone
    · next hcond => exact hcond ⟨hmem, hcmd, hnone⟩

end Follows

/-! ### Operations -/

/-- What holds between two calls. -/
structure Tracks (h : History) (kb : Keyboard) : Prop extends Follows h kb where
  mods_eq : kb.mods = h.mods
  mods_eq_empty : h.flags.NoClass → h.mods = ∅

namespace Tracks

variable {h : History} {kb : Keyboard} {p : Emitting}

theorem start (prefs : KeyboardPrefs) (keyboard : KeyboardType) :
    Tracks (History.start prefs keyboard) (new prefs keyboard) where
  prefs_eq := rfl
  keyboard_eq := rfl
  counted :=
    { keys_eq := fun code => by simp [new, History.start]
      keys_lt := fun code hcode => absurd rfl hcode
      sent_eq := rfl
      count_eq := fun sc => by simp [new, History.start] }
  sent_mem key hkey := absurd rfl hkey
  pending_iff key := by simp [new, History.start]
  mods_eq := rfl
  mods_eq_empty _ := rfl

theorem syncCaps (ht : Tracks h p.1) (flags : ModifierFlags) (force : Bool) :
    Tracks h (syncCaps flags force p).1 :=
  { ht with counted := { ht.counted with } }

theorem applyModifiers (ht : Tracks h p.1) (flags : ModifierFlags) (changed : Option UInt16) :
    Tracks (h.see flags changed) (applyModifiers flags changed p).1 where
  toFollows := ht.toFollows.applyModifiers ht.mods_eq flags changed
  mods_eq := congrArg (heldModifiers flags changed) ht.mods_eq
  mods_eq_empty hflags := heldModifiers_of_noClass hflags changed h.mods

theorem flushCommand (ht : Tracks h p.1) : Tracks h.useCommand (flushCommand p).1 where
  toFollows := ht.toFollows.flushCommand
  mods_eq := by
    have hsettings := settings_foldl_sendCommand p p.1.cmdPending.iter
    simp only [settings, Prod.mk.injEq] at hsettings
    exact hsettings.2.2.trans ht.mods_eq
  mods_eq_empty := ht.mods_eq_empty

theorem keyDownScancode (ht : Tracks h kb) (code : UInt16) (flags : ModifierFlags) :
    Tracks (h.keyDownScancode code flags) (kb.keyDownScancode code flags).1 := by
  have hmods := (syncCaps (p := (kb, [])) ht flags false).applyModifiers flags none
  unfold History.keyDownScancode Keyboard.keyDownScancode
  dsimp only
  generalize Keyboard.applyModifiers flags none (Keyboard.syncCaps flags false (kb, [])) = p
    at hmods ⊢
  generalize h.see flags none = g at hmods ⊢
  have hcontains : p.1.heldKeys.contains code = (g.keys code).isSome := by
    rw [ExtTreeMap.contains_eq_isSome_getElem?, hmods.counted.keys_eq]
  rw [hcontains, hmods.prefs_eq, hmods.keyboard_eq]
  by_cases hskip : isModifier code ∨ (g.keys code).isSome
  · rw [if_pos hskip, if_pos (by simpa using hskip)]
    exact hmods
  · rw [if_neg hskip, if_neg (by simpa using hskip)]
    cases hsc : scancodeFor code g.keyboard g.prefs.cmdAs with
    | none => exact hmods
    | some sc =>
      have hfree : g.useCommand.keys code = none := by
        simp only [not_or, Option.not_isSome_iff_eq_none] at hskip
        exact hskip.2
      have hlt : code < 128 := lt_of_scancodeFor (by rw [hsc]; exact Option.some_ne_none sc)
      have hflush := hmods.flushCommand
      simp only [press_fst]
      generalize Keyboard.flushCommand p = q at hflush ⊢
      exact { hflush with counted := hflush.counted.assign_key hfree hlt sc }

theorem keyUp (ht : Tracks h kb) (code : UInt16) :
    Tracks { h with keys := Function.update h.keys code none } (kb.keyUp code).1 := by
  unfold Keyboard.keyUp
  have hkeys := ht.counted.keys_eq code
  split
  · next hnone =>
    rw [hnone] at hkeys
    have hsame : Function.update h.keys code none = h.keys := by
      rw [hkeys, Function.update_eq_self]
    rw [hsame]
    exact ht
  · next sc hsc =>
    rw [hsc] at hkeys
    rw [release_fst]
    exact { ht with counted := ht.counted.unassign_key hkeys.symm }

theorem focusLost (ht : Tracks h kb) :
    Tracks { h with mods := ∅, sent := fun _ => none, keys := fun _ => none } kb.focusLost.1 where
  prefs_eq := ht.prefs_eq
  keyboard_eq := ht.keyboard_eq
  counted :=
    { keys_eq := fun code => by simp [Keyboard.focusLost]
      keys_lt := fun code hcode => absurd rfl hcode
      sent_eq := rfl
      count_eq := fun sc => by simp [Keyboard.focusLost] }
  sent_mem key hkey := absurd rfl hkey
  pending_iff key := by simp [Keyboard.focusLost]
  mods_eq := rfl
  mods_eq_empty _ := rfl

theorem ctrlAltDel (ht : Tracks h kb) : Tracks h kb.ctrlAltDel.1 := by
  have hfst : kb.ctrlAltDel.1 =
      { kb with
        pressed := ctrlAltDelSequence.reverse.foldl RefCount.release
          (ctrlAltDelSequence.foldl (RefCount.acquire 255) kb.pressed) } := by
    rw [Keyboard.ctrlAltDel, foldl_release_fst, foldl_press_fst]
  have hcount : ∀ sc, RefCount.count kb.ctrlAltDel.1.pressed sc = RefCount.count kb.pressed sc := by
    intro sc
    have hbelow : ∀ j, RefCount.count kb.pressed j + ctrlAltDelSequence.length ≤ 255 := by
      intro j
      have hlt := ht.counted.count_lt j
      have hlength : ctrlAltDelSequence.length = 3 := rfl
      omega
    rw [hfst, RefCount.count_foldl_release, RefCount.count_foldl_acquire hbelow,
      List.count_reverse, Nat.add_sub_cancel]
  have hcounted : Counted h.keys h.sent kb.ctrlAltDel.1 :=
    { keys_eq := by rw [hfst]; exact ht.counted.keys_eq
      keys_lt := ht.counted.keys_lt
      sent_eq := by rw [hfst]; exact ht.counted.sent_eq
      count_eq := fun sc => (hcount sc).trans (ht.counted.count_eq sc) }
  rw [hfst] at hcounted ⊢
  exact { ht with counted := hcounted }

theorem apply (ht : Tracks h kb) (op : Op) : Tracks (h.apply op) (kb.apply op).1 := by
  cases op with
  | setPrefs prefs => exact { ht with prefs_eq := rfl, counted := { ht.counted with } }
  | setKeyboardType keyboard =>
      exact { ht with keyboard_eq := rfl, counted := { ht.counted with } }
  | flagsChanged code flags =>
      exact (syncCaps (p := (kb, [])) ht flags _).applyModifiers flags (some code)
  | keyDown code flags isRepeat composing =>
      simp only [Keyboard.apply, Keyboard.keyDown, History.apply, ht.prefs_eq]
      cases routeKeyDown h.prefs code flags composing with
      | text => exact ht
      | scancode =>
          cases isRepeat with
          | true => exact ht
          | false => exact ht.keyDownScancode code flags
  | keyDownScancode code flags => exact ht.keyDownScancode code flags
  | keyUp code => exact ht.keyUp code
  | insertText text => exact ht
  | menuShortcutTaken => exact { ht with counted := { ht.counted with } }
  | preparePointerButton => exact flushCommand (p := (kb, [])) ht
  | focusLost => exact ht.focusLost
  | focusGained flags => exact (syncCaps (p := (kb, [])) ht flags true).applyModifiers flags none
  | ctrlAltDel => exact ht.ctrlAltDel

end Tracks

theorem tracks_session (prefs : KeyboardPrefs) (keyboard : KeyboardType) (ops : List Op) :
    Tracks (History.session prefs keyboard ops) (session prefs keyboard ops).1 :=
  Transition.run_refines (fun kb h => Tracks h kb) (fun _ _ op ht => ht.apply op)
    (Tracks.start prefs keyboard) ops

theorem Tracks.mem_remotePressed {h : History} {kb : Keyboard} (ht : Tracks h kb)
    (hpos : RefCount.Positive kb.pressed) (sc : Scancode) :
    sc ∈ kb.remotePressed ↔ h.KeyHolds sc ∨ h.ModifierHolds sc := by
  have hmem : sc ∈ kb.remotePressed ↔ 0 < RefCount.count kb.pressed sc := by
    rw [← RefCount.mem_keySet_iff_count hpos, RefCount.keySet, List.mem_toFinset, remotePressed]
  have hsent : h.ModifierHolds sc ↔ ∃ key, h.sent key = some sc := by
    constructor
    · rintro ⟨key, _, hkey⟩
      exact ⟨key, hkey⟩
    · rintro ⟨key, hkey⟩
      exact ⟨key, ht.sent_mem key (by rw [hkey]; exact Option.some_ne_none sc), hkey⟩
  rw [hmem, ht.counted.count_eq, Nat.add_pos_iff_pos_or_pos, RefCount.uses_pos_iff,
    RefCount.uses_pos_iff, hsent, History.KeyHolds]

/-- **Pressed is what is held.** After any calls on a fresh keyboard, the scancodes pressed on the
remote are those that a key still down, or a modifier still held according to the last flags, was
sent with. Once the last flags carry no modifier class and every key is up, nothing is pressed. -/
theorem mem_remotePressed_session (prefs : KeyboardPrefs) (keyboard : KeyboardType)
    (ops : List Op) :
    let pressed := (session prefs keyboard ops).1.remotePressed
    let h := History.session prefs keyboard ops
    (∀ sc, sc ∈ pressed ↔ h.KeyHolds sc ∨ h.ModifierHolds sc) ∧
      (h.flags.NoClass → (∀ code, h.keys code = none) → pressed = []) := by
  have ht := tracks_session prefs keyboard ops
  have hmem := ht.mem_remotePressed (positive_session prefs keyboard ops)
  refine ⟨hmem, fun hflags hkeys => List.eq_nil_iff_forall_not_mem.mpr fun sc hsc => ?_⟩
  rcases (hmem sc).mp hsc with ⟨code, hcode⟩ | ⟨key, hkey, _⟩
  · rw [hkeys code] at hcode
    cases hcode
  · rw [ht.mods_eq_empty hflags] at hkey
    exact Finset.notMem_empty key hkey

end Keyboard

end Drift.Input
