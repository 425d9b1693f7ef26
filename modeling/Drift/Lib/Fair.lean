import Drift.Lib.Transition

/-!
# Progress under fair schedules

A machine with a measure that no step raises, and an input that it needs in each state: fed with that
input it gets closer, and until it does, it goes on to need it. A schedule is fair by rounds: each round
holds everything that may be needed. Then every round brings the measure down, and enough rounds bring it
to zero.
-/

namespace Transition

variable {σ ι ω : Type*} {step : σ → ι → σ × List ω}

/-- What a machine needs to make progress. -/
structure Progress (step : σ → ι → σ × List ω) (Inv : σ → Prop) (measure : σ → Nat)
    (need : σ → ι) : Prop where
  kept : ∀ s i, Inv s → Inv (step s i).1
  le : ∀ s i, Inv s → measure (step s i).1 ≤ measure s
  stays : ∀ s i, Inv s → measure (step s i).1 = measure s → need (step s i).1 = need s
  lt : ∀ s, Inv s → measure s ≠ 0 → measure (step s (need s)).1 < measure s

namespace Progress

variable {Inv : σ → Prop} {measure : σ → Nat} {need : σ → ι}

theorem run_le (h : Progress step Inv measure need) {s : σ} (hs : Inv s) (is : List ι) :
    measure (run step s is).1 ≤ measure s := by
  induction is generalizing s with
  | nil => exact Nat.le_refl _
  | cons i is ih =>
      rw [run_cons]
      exact Nat.le_trans (ih (h.kept s i hs)) (h.le s i hs)

theorem run_lt (h : Progress step Inv measure need) {s : σ} (hs : Inv s) (hpos : measure s ≠ 0)
    {is : List ι} (hneed : need s ∈ is) : measure (run step s is).1 < measure s := by
  induction is generalizing s with
  | nil => cases hneed
  | cons i is ih =>
      have hkept := h.kept s i hs
      rw [run_cons]
      rcases Nat.lt_or_eq_of_le (h.le s i hs) with hlt | heq
      · exact Nat.lt_of_le_of_lt (h.run_le hkept is) hlt
      · -- Not yet: the input that is needed is not this one, and goes on to be needed.
        have hlater : need (step s i).1 ∈ is := by
          rw [h.stays s i hs heq]
          rcases List.mem_cons.mp hneed with hnow | hlater
          · rw [← hnow] at heq
            exact absurd heq (Nat.ne_of_lt (h.lt s hs hpos))
          · exact hlater
        have hrest := ih hkept (by rwa [heq]) hlater
        rwa [heq] at hrest

/-- **Progress rule.** As many rounds as the measure says bring the machine to its end. -/
theorem run_rounds (h : Progress step Inv measure need) {s : σ} (hs : Inv s)
    {rounds : List (List ι)} (hfair : ∀ is ∈ rounds, ∀ s, Inv s → need s ∈ is)
    (henough : measure s ≤ rounds.length) : measure (run step s rounds.flatten).1 = 0 := by
  induction rounds generalizing s with
  | nil => exact Nat.le_zero.mp henough
  | cons is rounds ih =>
      have hkept : Inv (run step s is).1 := run_invariant Inv h.kept hs is
      rw [List.flatten_cons, run_append]
      refine ih hkept (fun js hjs => hfair js (List.mem_cons_of_mem is hjs)) ?_
      by_cases hzero : measure s = 0
      · have hle := h.run_le hs is
        omega
      · have hlt := h.run_lt hs hzero (hfair is List.mem_cons_self s hs)
        rw [List.length_cons] at henough
        omega

end Progress

end Transition
