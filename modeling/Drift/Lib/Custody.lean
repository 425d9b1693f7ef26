import Mathlib.Data.List.Count
import Mathlib.Data.List.Nodup

/-!
# Custody

Tokens are held in places, which come in a list. A token that is counted once is held in one place, and
a change of a place changes the count by what that place held before and holds after.
-/

namespace Custody

variable {P T : Type*} {tokens : P → List T} {ps : List P} {p q : P} {i j : Nat}

/-- The tokens of all places. -/
def held (tokens : P → List T) (ps : List P) : List T := ps.flatMap tokens

theorem mem_held {x : T} : x ∈ held tokens ps ↔ ∃ p ∈ ps, x ∈ tokens p := List.mem_flatMap

variable [BEq T] (tokens)

@[simp]
theorem count_held_concat (ps : List P) (p : P) (x : T) :
    (held tokens (ps ++ [p])).count x = (held tokens ps).count x + (tokens p).count x := by
  simp [held]

theorem count_held_set (hp : ps[i]? = some p) (q : P) (x : T) :
    (held tokens (ps.set i q)).count x + (tokens p).count x =
      (held tokens ps).count x + (tokens q).count x := by
  induction ps generalizing i with
  | nil => simp at hp
  | cons r ps ih =>
      cases i with
      | zero =>
          obtain rfl : r = p := by simpa using hp
          simp only [List.set_cons_zero, held, List.flatMap_cons, List.count_append]
          omega
      | succ i =>
          have hrest := ih (i := i) (by simpa using hp)
          simp only [held] at hrest
          simp only [List.set_cons_succ, held, List.flatMap_cons, List.count_append]
          omega

theorem count_le_count_held (hp : ps[i]? = some p) (x : T) :
    (tokens p).count x ≤ (held tokens ps).count x := by
  have hsublist : (tokens p).Sublist (held tokens ps) := by
    rw [held, List.flatMap_def]
    exact List.sublist_flatten_of_mem (List.mem_map_of_mem (List.mem_of_getElem? hp))
  exact hsublist.count_le x

end Custody
