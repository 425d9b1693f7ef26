import Mathlib.Data.List.Basic

/-!
# How deep an item lies

A queue is taken from at the front and fed at the back. The depth of a kind of items is how many have to be
taken before none of the kind is left: each one that is taken lowers it by one, and what comes in behind
does not raise it, unless it is of the kind.
-/

namespace Queue

variable {α : Type*} {p : α → Bool} {x : α} {xs ys : List α}

/-- The length of the queue up to its last item of a kind, and zero if there is none. -/
def depth (p : α → Bool) : List α → Nat
  | [] => 0
  | x :: xs => if depth p xs ≠ 0 ∨ p x then depth p xs + 1 else 0

@[simp]
theorem depth_nil : depth p [] = 0 := rfl

theorem depth_eq_zero : depth p xs = 0 ↔ ∀ x ∈ xs, p x = false := by
  induction xs with
  | nil => simp
  | cons x xs ih =>
      rw [depth, List.forall_mem_cons, ← ih]
      split
      · next hsome => simp only [Nat.succ_ne_zero, false_iff]; grind
      · next hnone => simpa [and_comm] using hnone

theorem depth_le_length : depth p xs ≤ xs.length := by
  induction xs with
  | nil => exact Nat.le_refl _
  | cons x xs ih =>
      rw [depth, List.length_cons]
      split <;> omega

theorem depth_tail : depth p xs = depth p (x :: xs) - 1 := by
  rw [depth]
  split <;> omega

theorem depth_append (h : ∀ y ∈ ys, p y = false) : depth p (xs ++ ys) = depth p xs := by
  induction xs with
  | nil => exact depth_eq_zero.mpr h
  | cons x xs ih => simp only [List.cons_append, depth, ih]

theorem depth_eraseIdx_le (i : Nat) : depth p (xs.eraseIdx i) ≤ depth p xs := by
  induction xs generalizing i with
  | nil => simp
  | cons x xs ih =>
      cases i with
      | zero =>
          rw [List.eraseIdx_cons_zero, depth_tail (x := x)]
          exact Nat.sub_le _ _
      | succ i =>
          have hrest := ih i
          simp only [List.eraseIdx_cons_succ, depth]
          grind

end Queue
