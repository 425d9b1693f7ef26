import Drift.Lib.Transition
import Mathlib.Data.Finset.Basic

/-!
# Balanced presses and releases

A receiver that tracks which keys are down accepts a press only of a key that is up and a release
only of a key that is down. `check` is that receiver as a checker of outputs, of which only some
are presses or releases (`edgeOf` says which), and `replay` runs it over a list.
-/

namespace Balance

variable {K ω : Type*} [DecidableEq K]

/-- One press (`down`) or release of a key. -/
structure Edge (K : Type*) where
  key : K
  down : Bool
  deriving DecidableEq

/-- The keys down after one edge, or `none` for an edge that does not alternate. -/
def edge (held : Finset K) (e : Edge K) : Option (Finset K) :=
  if e.down then
    if e.key ∈ held then none else some (insert e.key held)
  else
    if e.key ∈ held then some (held.erase e.key) else none

/-- The receiver on arbitrary outputs: those without an edge leave the keys as they are. -/
def check (edgeOf : ω → Option (Edge K)) (held : Finset K) (o : ω) : Option (Finset K) :=
  match edgeOf o with
  | none => some held
  | some e => edge held e

/-- The keys down after a list of outputs, or `none` when some edge did not alternate. -/
abbrev replay (edgeOf : ω → Option (Edge K)) : Finset K → List ω → Option (Finset K) :=
  Transition.judge (check edgeOf)

variable {edgeOf : ω → Option (Edge K)} {held : Finset K} {k : K} {o : ω}

theorem check_none (ho : edgeOf o = none) : check edgeOf held o = some held := by
  simp [check, ho]

theorem check_press (ho : edgeOf o = some ⟨k, true⟩) (hk : k ∉ held) :
    check edgeOf held o = some (insert k held) := by
  simp [check, ho, edge, hk]

theorem check_release (ho : edgeOf o = some ⟨k, false⟩) (hk : k ∈ held) :
    check edgeOf held o = some (held.erase k) := by
  simp [check, ho, edge, hk]

theorem replay_of_forall_none {os : List ω} (h : ∀ o ∈ os, edgeOf o = none) :
    replay edgeOf held os = some held :=
  Transition.judge_of_forall_eq fun o ho => check_none (h o ho)

/-- Releasing distinct keys that are down leaves the others down. -/
theorem replay_releases {up : K → ω} (hup : ∀ k, edgeOf (up k) = some ⟨k, false⟩) {ks : List K}
    (hnodup : ks.Nodup) (hheld : ∀ k ∈ ks, k ∈ held) :
    replay edgeOf held (ks.map up) = some (held \ ks.toFinset) := by
  induction ks generalizing held with
  | nil => simp
  | cons k ks ih =>
      obtain ⟨hk, hks⟩ := List.nodup_cons.mp hnodup
      have hrest : ∀ j ∈ ks, j ∈ held.erase k := by
        intro j hj
        have hne : j ≠ k := fun h => hk (h ▸ hj)
        exact Finset.mem_erase.mpr ⟨hne, hheld j (List.mem_cons_of_mem k hj)⟩
      rw [List.map_cons, replay, Transition.judge_cons,
        check_release (hup k) (hheld k List.mem_cons_self), Option.bind_some]
      refine (ih hks hrest).trans (congrArg some ?_)
      ext j
      simp only [Finset.mem_sdiff, Finset.mem_erase, List.mem_toFinset, List.mem_cons]
      tauto

/-- Pressing distinct keys that are up adds them to the keys down. -/
theorem replay_presses {down : K → ω} (hdown : ∀ k, edgeOf (down k) = some ⟨k, true⟩) {ks : List K}
    (hnodup : ks.Nodup) (hfree : ∀ k ∈ ks, k ∉ held) :
    replay edgeOf held (ks.map down) = some (held ∪ ks.toFinset) := by
  induction ks generalizing held with
  | nil => simp
  | cons k ks ih =>
      obtain ⟨hk, hks⟩ := List.nodup_cons.mp hnodup
      have hrest : ∀ j ∈ ks, j ∉ insert k held := by
        intro j hj hmem
        rcases Finset.mem_insert.mp hmem with rfl | hmem
        · exact hk hj
        · exact hfree j (List.mem_cons_of_mem k hj) hmem
      rw [List.map_cons, replay, Transition.judge_cons,
        check_press (hdown k) (hfree k List.mem_cons_self), Option.bind_some]
      refine (ih hks hrest).trans (congrArg some ?_)
      ext j
      simp only [Finset.mem_union, Finset.mem_insert, List.mem_toFinset, List.mem_cons]
      tauto

end Balance
