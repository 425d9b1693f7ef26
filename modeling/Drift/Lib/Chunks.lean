import Mathlib.Data.List.Defs

/-!
# Chunks of a list

What `toChunks` cuts: the whole list, in chunks that are not empty and not longer than they may be.
-/

namespace Chunks

variable {α : Type}

theorem mem_push_chunks {n : Nat} {current : Array α} {chunks : Array (List α)} (hsome : 0 < current.size)
    (hcount : current.size ≤ n) (hchunks : ∀ chunk ∈ chunks.toList, chunk ≠ [] ∧ chunk.length ≤ n) :
    ∀ chunk ∈ (chunks.push current.toList).toList, chunk ≠ [] ∧ chunk.length ≤ n := by
  intro chunk hchunk
  rw [Array.toList_push] at hchunk
  obtain hbefore | hlast := List.mem_append.mp hchunk
  · exact hchunks chunk hbefore
  · rw [List.eq_of_mem_singleton hlast]
    exact ⟨List.ne_nil_of_length_pos hsome, hcount⟩

/-- The chunks that are cut, those in the accumulators included. -/
theorem toChunks_go_spec {n : Nat} (xs : List α) (current : Array α) (chunks : Array (List α))
    (hsome : 0 < current.size) (hcount : current.size ≤ n)
    (hchunks : ∀ chunk ∈ chunks.toList, chunk ≠ [] ∧ chunk.length ≤ n) :
    (List.toChunks.go n xs current chunks).flatten = chunks.toList.flatten ++ (current.toList ++ xs) ∧
      ∀ chunk ∈ List.toChunks.go n xs current chunks, chunk ≠ [] ∧ chunk.length ≤ n := by
  induction xs generalizing current chunks with
  | nil =>
      refine ⟨?_, mem_push_chunks hsome hcount hchunks⟩
      change (chunks.push current.toList).toList.flatten = _
      rw [Array.toList_push, List.flatten_concat, List.append_nil]
  | cons x xs ih =>
      unfold List.toChunks.go
      by_cases hfull : (current.size == n) = true
      · rw [if_pos hfull]
        obtain ⟨hall, hgood⟩ := ih ((Array.mkEmpty n).push x) (chunks.push current.toList) Nat.zero_lt_one
          (Nat.le_trans hsome hcount) (mem_push_chunks hsome hcount hchunks)
        refine ⟨hall.trans ?_, hgood⟩
        rw [Array.toList_push, List.flatten_concat, List.append_assoc]
        rfl
      · have hless : current.size + 1 ≤ n := Nat.lt_of_le_of_ne hcount (mt beq_iff_eq.mpr hfull)
        rw [if_neg hfull]
        obtain ⟨hall, hgood⟩ := ih (current.push x) chunks (by rw [Array.size_push]; omega)
          (by rwa [Array.size_push]) hchunks
        refine ⟨hall.trans ?_, hgood⟩
        rw [Array.toList_push, List.append_assoc]
        rfl

theorem toChunks_go_full {n : Nat} (xs : List α) (current : Array α) (chunks : Array (List α))
    (hchunks : ∀ chunk ∈ chunks.toList, chunk.length = n) :
    ∀ chunk ∈ (List.toChunks.go n xs current chunks).dropLast, chunk.length = n := by
  induction xs generalizing current chunks with
  | nil =>
      change ∀ chunk ∈ (chunks.push current.toList).toList.dropLast, chunk.length = n
      rwa [Array.toList_push, List.dropLast_concat]
  | cons x xs ih =>
      unfold List.toChunks.go
      by_cases hfull : (current.size == n) = true
      · rw [if_pos hfull]
        apply ih
        intro chunk hchunk
        rw [Array.toList_push] at hchunk
        obtain hbefore | hlast := List.mem_append.mp hchunk
        · exact hchunks chunk hbefore
        · rw [List.eq_of_mem_singleton hlast]
          exact beq_iff_eq.mp hfull
      · rw [if_neg hfull]
        exact ih _ _ hchunks

theorem toChunks_spec (n : Nat) (xs : List α) : (xs.toChunks (n + 1)).flatten = xs ∧
    ∀ chunk ∈ xs.toChunks (n + 1), chunk ≠ [] ∧ chunk.length ≤ n + 1 := by
  cases xs with
  | nil => exact ⟨rfl, fun _ h => absurd h List.not_mem_nil⟩
  | cons x xs =>
      exact toChunks_go_spec xs #[x] #[] Nat.zero_lt_one (Nat.le_add_left 1 n)
        fun _ h => absurd h List.not_mem_nil

/-- Only the last chunk may be short, and it ends the list. -/
theorem full_or_suffix {n : Nat} {xs chunk : List α} (h : chunk ∈ xs.toChunks (n + 1)) :
    chunk.length = n + 1 ∨ chunk <:+ xs := by
  have hfull : ∀ chunk ∈ (xs.toChunks (n + 1)).dropLast, chunk.length = n + 1 := by
    cases xs with
    | nil => exact fun _ h => absurd h List.not_mem_nil
    | cons x xs => exact toChunks_go_full xs #[x] #[] fun _ h => absurd h List.not_mem_nil
  have hsplit := List.dropLast_concat_getLast (List.ne_nil_of_mem h)
  rw [← hsplit] at h
  obtain hbefore | hlast := List.mem_append.mp h
  · exact .inl (hfull chunk hbefore)
  · right
    refine ⟨(xs.toChunks (n + 1)).dropLast.flatten, ?_⟩
    rw [List.eq_of_mem_singleton hlast, ← List.flatten_concat, hsplit]
    exact (toChunks_spec n xs).1

end Chunks
