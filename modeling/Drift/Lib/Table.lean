import Mathlib.Data.List.Basic
import Mathlib.Data.List.Nodup

/-!
# Tables

Rows in insertion order, found by a key that is part of the row.
-/

namespace Table

variable {R K : Type*} [DecidableEq K] (key : R → K)

def lookup (rows : List R) (k : K) : Option R := rows.find? fun r => key r = k

/-- Replaces the first row with the key of `row`, or adds it at the end. -/
def put (row : R) : List R → List R
  | [] => [row]
  | r :: rows => if key r = key row then row :: rows else r :: put row rows

/-- Removes the first row with a key. -/
def erase (rows : List R) (k : K) : List R := rows.eraseP fun r => key r = k

/-- The first key that an earlier row has too. -/
def repeated (seen : List K) : List R → Option K
  | [] => none
  | r :: rows => if key r ∈ seen then some (key r) else repeated (key r :: seen) rows

def Distinct (rows : List R) : Prop := (rows.map key).Nodup

variable {key}

theorem key_of_lookup {rows : List R} {k : K} {r : R} (h : lookup key rows k = some r) :
    key r = k := by
  simpa using List.find?_some h

theorem mem_of_lookup {rows : List R} {k : K} {r : R} (h : lookup key rows k = some r) : r ∈ rows :=
  List.mem_of_find?_eq_some h

theorem lookup_cons (r : R) (rows : List R) (k : K) :
    lookup key (r :: rows) k = if key r = k then some r else lookup key rows k := by
  by_cases h : key r = k <;> simp [lookup, h]

theorem lookup_eq_none {rows : List R} {k : K} : lookup key rows k = none ↔ k ∉ rows.map key := by
  simp [lookup]

theorem lookup_of_mem {rows : List R} (h : Distinct key rows) {r : R} (hr : r ∈ rows) :
    lookup key rows (key r) = some r := by
  induction rows with
  | nil => exact absurd hr List.not_mem_nil
  | cons a rows ih =>
      obtain ⟨ha, hrows⟩ := List.nodup_cons.mp h
      rw [lookup_cons]
      rcases List.mem_cons.mp hr with rfl | hmem
      · exact if_pos rfl
      · have hne : key a ≠ key r := fun heq => ha (heq ▸ List.mem_map_of_mem hmem)
        rw [if_neg hne]
        exact ih hrows hmem

theorem lookup_put (row : R) (rows : List R) (k : K) :
    lookup key (put key row rows) k = if key row = k then some row else lookup key rows k := by
  induction rows with
  | nil => rw [put, lookup_cons]
  | cons r rows ih =>
      unfold put
      by_cases hr : key r = key row
      · rw [if_pos hr, lookup_cons, lookup_cons, hr]
        by_cases hk : key row = k <;> simp [hk]
      · rw [if_neg hr, lookup_cons, lookup_cons, ih]
        by_cases hk : key row = k
        · subst hk
          simp [hr]
        · simp [hk]

theorem mem_put {row r : R} {rows : List R} (h : r ∈ put key row rows) : r = row ∨ r ∈ rows := by
  induction rows with
  | nil => exact .inl (List.mem_singleton.mp h)
  | cons a rows ih =>
      unfold put at h
      by_cases ha : key a = key row
      · rw [if_pos ha] at h
        exact (List.mem_cons.mp h).imp_right (List.mem_cons_of_mem a)
      · rw [if_neg ha] at h
        rcases List.mem_cons.mp h with rfl | hmem
        · exact .inr List.mem_cons_self
        · exact (ih hmem).imp_right (List.mem_cons_of_mem a)

theorem keys_put (row : R) (rows : List R) :
    (put key row rows).map key =
      if key row ∈ rows.map key then rows.map key else rows.map key ++ [key row] := by
  induction rows with
  | nil => rfl
  | cons r rows ih =>
      unfold put
      by_cases hr : key r = key row
      · simp [hr]
      · rw [if_neg hr, List.map_cons, ih, List.map_cons]
        have hmem : key row ∈ key r :: rows.map key ↔ key row ∈ rows.map key :=
          ⟨fun h => (List.mem_cons.mp h).resolve_left (Ne.symm hr), List.mem_cons_of_mem _⟩
        by_cases hrow : key row ∈ rows.map key
        · rw [if_pos hrow, if_pos (hmem.mpr hrow)]
        · rw [if_neg hrow, if_neg (mt hmem.mp hrow), List.cons_append]

theorem length_put_le (row : R) (rows : List R) : (put key row rows).length ≤ rows.length + 1 := by
  have hkeys : ((put key row rows).map key).length = _ := congrArg List.length (keys_put row rows)
  rw [List.length_map] at hkeys
  rw [hkeys]
  by_cases hrow : key row ∈ rows.map key
  · rw [if_pos hrow, List.length_map]
    omega
  · rw [if_neg hrow]
    apply Nat.le_of_eq
    rw [List.length_append, List.length_map, List.length_singleton]

theorem Distinct.put {rows : List R} (h : Distinct key rows) (row : R) :
    Distinct key (put key row rows) := by
  unfold Distinct
  rw [keys_put]
  by_cases hrow : key row ∈ rows.map key
  · rw [if_pos hrow]
    exact h
  · rw [if_neg hrow]
    refine List.Nodup.append h (List.nodup_singleton _) ?_
    exact List.disjoint_singleton.mpr hrow

theorem Distinct.erase {rows : List R} (h : Distinct key rows) (k : K) :
    Distinct key (erase key rows k) :=
  List.Nodup.sublist (List.Sublist.map key List.eraseP_sublist) h

theorem lookup_erase {rows : List R} (h : Distinct key rows) (k j : K) :
    lookup key (erase key rows k) j = if k = j then none else lookup key rows j := by
  induction rows with
  | nil => simp [lookup, erase]
  | cons r rows ih =>
      obtain ⟨hr, hrows⟩ := List.nodup_cons.mp h
      have hcons : erase key (r :: rows) k = if key r = k then rows else r :: erase key rows k := by
        by_cases hk : key r = k <;> simp [erase, hk]
      rw [hcons, lookup_cons]
      by_cases hk : key r = k
      · rw [if_pos hk, ← hk]
        by_cases hj : key r = j
        · rw [if_pos hj, ← hj]
          exact lookup_eq_none.mpr hr
        · rw [if_neg hj, if_neg hj]
      · rw [if_neg hk, lookup_cons, ih hrows]
        by_cases hj : key r = j
        · rw [if_pos hj, if_pos hj, if_neg fun hkj => hk (hj.trans hkj.symm)]
        · rw [if_neg hj, if_neg hj]

theorem ne_of_mem_erase {rows : List R} (h : Distinct key rows) {k : K} {r : R} (hr : r ∈ erase key rows k) :
    key r ≠ k := by
  intro hkey
  have hfound := lookup_of_mem (h.erase k) hr
  rw [lookup_erase h, if_pos hkey.symm] at hfound
  cases hfound

theorem put_put {row row' : R} (h : key row' = key row) (rows : List R) :
    put key row (put key row' rows) = put key row rows := by
  induction rows with
  | nil => simp [put, h]
  | cons r rows ih =>
      by_cases hr : key r = key row
      · simp [put, h, hr]
      · simp [put, h, hr, ih]

theorem erase_put (row : R) (rows : List R) :
    erase key (put key row rows) (key row) = erase key rows (key row) := by
  induction rows with
  | nil => simp [put, erase]
  | cons r rows ih =>
      by_cases hr : key r = key row
      · simp [put, erase, hr]
      · have hput : put key row (r :: rows) = r :: put key row rows := by simp [put, hr]
        rw [hput]
        unfold erase at ih ⊢
        rw [List.eraseP_cons_of_neg (by simpa using hr), List.eraseP_cons_of_neg (by simpa using hr), ih]

theorem repeated_eq_none {rows : List R} {seen : List K} :
    repeated key seen rows = none ↔ Distinct key rows ∧ ∀ r ∈ rows, key r ∉ seen := by
  induction rows generalizing seen with
  | nil => simp [repeated, Distinct]
  | cons r rows ih =>
      unfold repeated
      by_cases hr : key r ∈ seen
      · simp [hr]
      · rw [if_neg hr, ih]
        simp only [Distinct, List.map_cons, List.nodup_cons, List.mem_cons, forall_eq_or_imp, hr,
          not_false_eq_true, true_and, not_or, List.mem_map, not_exists, not_and]
        grind

end Table
