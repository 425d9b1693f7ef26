import Mathlib.Data.Fintype.Card
import Std.Data.ExtTreeMap

/-!
# Saturating reference counts

`Counts K` keeps a positive count for each key in use and no entry for the others. `acquire` adds
one use, up to a bound the machine can count to, and `release` removes one, dropping the entry with
the last. As long as the counts stay below the bound they add up: `count_acquire` and
`count_release`.

The second part counts the uses from the side of the users: `uses f k` is the number of users that
`f` assigns the key `k`.
-/

namespace RefCount

open Std

variable {K : Type*} [Ord K] [TransOrd K] [LawfulEqOrd K] [DecidableEq K]

abbrev Counts (K : Type*) [Ord K] := ExtTreeMap K Nat

/-- The number of uses of a key. -/
def count (cs : Counts K) (k : K) : Nat := cs[k]?.getD 0

/-- One more use of a key, saturating at `limit`. -/
def acquire (limit : Nat) (cs : Counts K) (k : K) : Counts K :=
  cs.insert k (min (count cs k + 1) limit)

/-- One use less; the entry goes with the last use, and a key without an entry stays without. -/
def release (cs : Counts K) (k : K) : Counts K :=
  match cs[k]? with
  | none => cs
  | some n => if n - 1 = 0 then cs.erase k else cs.insert k (n - 1)

/-- Every entry counts at least one use. -/
def Positive (cs : Counts K) : Prop := ∀ (k : K) (n : Nat), cs[k]? = some n → 0 < n

/-- The keys in use. -/
def keySet (cs : Counts K) : Finset K := cs.keys.toFinset

section Counts

variable {cs : Counts K} {limit : Nat}

omit [LawfulEqOrd K] [DecidableEq K] in
@[simp]
theorem count_empty (k : K) : count (∅ : Counts K) k = 0 := by
  simp [count]

omit [LawfulEqOrd K] [DecidableEq K] in
theorem positive_empty : Positive (∅ : Counts K) := by
  intro k n h
  simp at h

theorem mem_keySet {k : K} : k ∈ keySet cs ↔ cs[k]?.isSome := by
  rw [keySet, List.mem_toFinset, ExtTreeMap.mem_keys, ExtTreeMap.mem_iff_isSome_getElem?]

@[simp]
theorem keySet_empty : keySet (∅ : Counts K) = ∅ := by
  ext k
  simp [mem_keySet]

omit [LawfulEqOrd K] [DecidableEq K] in
theorem count_of_getElem? {k : K} {n : Nat} (h : cs[k]? = some n) : count cs k = n := by
  rw [count, h, Option.getD_some]

theorem mem_keySet_iff_count (hpos : Positive cs) {k : K} : k ∈ keySet cs ↔ 0 < count cs k := by
  rw [mem_keySet]
  cases h : cs[k]? with
  | none => simp [count, h]
  | some n => simpa [count, h] using hpos k n h

theorem getElem?_acquire (k j : K) :
    (acquire limit cs k)[j]? = if k = j then some (min (count cs k + 1) limit) else cs[j]? := by
  rw [acquire, ExtTreeMap.getElem?_insert]
  simp only [LawfulEqCmp.compare_eq_iff_eq]

theorem positive_acquire (hlimit : 0 < limit) (hpos : Positive cs) (k : K) :
    Positive (acquire limit cs k) := by
  intro j n h
  rw [getElem?_acquire] at h
  split at h
  · simp only [Option.some.injEq] at h
    omega
  · exact hpos j n h

theorem keySet_acquire (k : K) : keySet (acquire limit cs k) = insert k (keySet cs) := by
  ext j
  rw [mem_keySet, getElem?_acquire, Finset.mem_insert, mem_keySet]
  by_cases h : k = j
  · simp [h]
  · simp [h, Ne.symm h]

theorem count_acquire {k : K} (hbelow : count cs k < limit) (j : K) :
    count (acquire limit cs k) j = count cs j + if k = j then 1 else 0 := by
  rw [count, getElem?_acquire]
  by_cases h : k = j
  · subst h
    simp only [if_true, Option.getD_some]
    omega
  · simp [h, count]

theorem getElem?_release (k j : K) :
    (release cs k)[j]? =
      if k = j then (if count cs k ≤ 1 then none else some (count cs k - 1)) else cs[j]? := by
  unfold release
  cases hk : cs[k]? with
  | none =>
      by_cases h : k = j
      · subst h
        simp [count, hk]
      · simp [h]
  | some n =>
      simp only [count, hk, Option.getD_some]
      by_cases hn : n - 1 = 0
      · have hle : n ≤ 1 := by omega
        rw [if_pos hn, ExtTreeMap.getElem?_erase, if_pos hle]
        simp only [LawfulEqCmp.compare_eq_iff_eq]
      · have hle : ¬ n ≤ 1 := by omega
        rw [if_neg hn, ExtTreeMap.getElem?_insert, if_neg hle]
        simp only [LawfulEqCmp.compare_eq_iff_eq]

theorem positive_release (hpos : Positive cs) (k : K) : Positive (release cs k) := by
  intro j n h
  rw [getElem?_release] at h
  split at h
  · split at h
    · cases h
    · simp only [Option.some.injEq] at h
      omega
  · exact hpos j n h

theorem count_release (k j : K) :
    count (release cs k) j = count cs j - if k = j then 1 else 0 := by
  rw [count, getElem?_release]
  by_cases h : k = j
  · subst h
    by_cases hle : count cs k ≤ 1
    · simp only [if_true, if_pos hle, Option.getD_none]
      omega
    · simp only [if_true, if_neg hle, Option.getD_some]
  · simp [h, count]

/-- Acquiring a list of keys one after another, with room for all of them. -/
theorem count_foldl_acquire {ks : List K} (hbelow : ∀ k, count cs k + ks.length ≤ limit) (j : K) :
    count (ks.foldl (acquire limit) cs) j = count cs j + ks.count j := by
  induction ks generalizing cs with
  | nil => simp
  | cons k ks ih =>
      have hk : count cs k < limit := by
        have := hbelow k
        simp only [List.length_cons] at this
        omega
      have hrest : ∀ i, count (acquire limit cs k) i + ks.length ≤ limit := by
        intro i
        have := hbelow i
        rw [count_acquire hk]
        simp only [List.length_cons] at this
        split <;> omega
      rw [List.foldl_cons, ih hrest, count_acquire hk, List.count_cons, Nat.add_assoc]
      simp only [beq_iff_eq, Nat.add_comm]

theorem count_foldl_release (ks : List K) (j : K) :
    count (ks.foldl release cs) j = count cs j - ks.count j := by
  induction ks generalizing cs with
  | nil => simp
  | cons k ks ih =>
      rw [List.foldl_cons, ih, count_release, List.count_cons, Nat.sub_sub, Nat.add_comm]
      simp only [beq_iff_eq]

theorem keySet_release (k : K) :
    keySet (release cs k) = if count cs k ≤ 1 then (keySet cs).erase k else keySet cs := by
  ext j
  rw [mem_keySet, getElem?_release]
  by_cases h : k = j
  · subst h
    by_cases hle : count cs k ≤ 1
    · simp [hle]
    · have hsome : cs[k]?.isSome := by
        cases hk : cs[k]? with
        | none => simp [count, hk] at hle
        | some n => rfl
      simp [hle, mem_keySet, hsome]
  · by_cases hle : count cs k ≤ 1
    · simp [h, hle, mem_keySet, Ne.symm h]
    · simp [h, hle, mem_keySet]

end Counts

/-! ### Uses by assignment -/

section Uses

variable {I V : Type*} [Fintype I] [DecidableEq I] [DecidableEq V]

/-- The number of users that an assignment gives the value `v`. -/
def uses (f : I → Option V) (v : V) : Nat :=
  (Finset.univ.filter fun i => f i = some v).card

omit [DecidableEq I] in
@[simp]
theorem uses_none (v : V) : uses (fun _ : I => none) v = 0 := by
  simp [uses]

omit [DecidableEq I] in
theorem uses_pos_iff {f : I → Option V} {v : V} : 0 < uses f v ↔ ∃ i, f i = some v := by
  rw [uses, Finset.card_pos]
  constructor
  · rintro ⟨i, hi⟩
    exact ⟨i, (Finset.mem_filter.mp hi).2⟩
  · rintro ⟨i, hi⟩
    exact ⟨i, Finset.mem_filter.mpr ⟨Finset.mem_univ i, hi⟩⟩

omit [DecidableEq I] in
/-- A bound on the users that are assigned anything bounds the uses of each value. -/
theorem uses_le_card {f : I → Option V} {s : Finset I} (hs : ∀ i, f i ≠ none → i ∈ s) (v : V) :
    uses f v ≤ s.card := by
  refine Finset.card_le_card fun i hi => hs i ?_
  rw [(Finset.mem_filter.mp hi).2]
  exact Option.some_ne_none v

theorem uses_assign {f : I → Option V} {i : I} (hfree : f i = none) (w v : V) :
    uses (Function.update f i (some w)) v = uses f v + if w = v then 1 else 0 := by
  unfold uses
  by_cases h : w = v
  · subst h
    have hnot : i ∉ Finset.univ.filter fun j => f j = some w := by simp [hfree]
    rw [if_pos rfl, ← Finset.card_insert_of_notMem hnot]
    congr 1
    ext j
    by_cases hj : j = i
    · subst hj
      simp
    · simp [hj]
  · rw [if_neg h, Nat.add_zero]
    congr 1
    ext j
    by_cases hj : j = i
    · subst hj
      simp [h, hfree]
    · simp [hj]

theorem uses_unassign {f : I → Option V} {i : I} {w : V} (hw : f i = some w) (v : V) :
    uses (Function.update f i none) v + (if w = v then 1 else 0) = uses f v := by
  have hfree : Function.update f i none i = none := Function.update_self i none f
  have hback : Function.update (Function.update f i none) i (some w) = f := by
    rw [Function.update_idem, ← hw, Function.update_eq_self]
  rw [← uses_assign hfree w v, hback]

end Uses

end RefCount
