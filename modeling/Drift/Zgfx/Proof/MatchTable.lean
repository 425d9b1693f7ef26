import Drift.Zgfx.Proof.Compressor
import Mathlib.Data.List.Sort
import Mathlib.Data.List.Nodup

/-!
# The match table stays small

Thinning the table out leaves just the entries that were seen last, as many as it aims at, since no two
entries share a position. So the table is never longer than its cap and the two entries that span the last
append, however long the session is.
-/

namespace Drift.Zgfx

/-! ### Selection -/

/-- Of distinct numbers as many are at least the `k`-th smallest as there are from it on. -/
theorem countP_ge_mergeSort {values : List Nat} (hnodup : values.Nodup) {k : Nat} (hk : k < values.length) :
    values.countP ((values.mergeSort (· ≤ ·)).getD k 0 ≤ ·) = values.length - k := by
  have hperm : (values.mergeSort (· ≤ ·)).Perm values := List.mergeSort_perm values _
  have hsorted : (values.mergeSort (· ≤ ·)).Pairwise (· ≤ ·) := by
    have htrans : ∀ a b c : Nat, decide (a ≤ b) = true → decide (b ≤ c) = true → decide (a ≤ c) = true := by
      intro a b c hab hbc
      simp only [decide_eq_true_eq] at *
      omega
    have htotal : ∀ a b : Nat, (decide (a ≤ b) || decide (b ≤ a)) = true := by
      intro a b
      simp only [Bool.or_eq_true, decide_eq_true_eq]
      omega
    exact (List.pairwise_mergeSort htrans htotal values).imp fun h => by simpa using h
  have hdistinct := hperm.nodup_iff.mpr hnodup
  generalize values.mergeSort (· ≤ ·) = sorted at hperm hsorted hdistinct
  have hlength := hperm.length_eq
  have hlt : k < sorted.length := by omega
  rw [← hperm.countP_eq, List.getD_eq_getElem?_getD, List.getElem?_eq_getElem hlt, Option.getD_some]
  have hsplit : sorted.take k ++ sorted.drop k = sorted := List.take_append_drop k sorted
  have hstrict : sorted.Pairwise (· < ·) :=
    (hsorted.and hdistinct).imp fun h => Nat.lt_of_le_of_ne h.1 h.2
  have hbelow : (sorted.take k).countP (sorted[k] ≤ ·) = 0 := by
    rw [List.countP_eq_zero]
    intro a ha
    obtain ⟨i, hi, rfl⟩ := List.mem_iff_getElem.mp ha
    rw [List.length_take] at hi
    rw [List.getElem_take]
    have hless := List.pairwise_iff_getElem.mp hstrict i k (by omega) hlt (by omega)
    simpa using hless
  have habove : (sorted.drop k).countP (sorted[k] ≤ ·) = (sorted.drop k).length := by
    rw [List.countP_eq_length]
    intro a ha
    obtain ⟨i, hi, rfl⟩ := List.mem_iff_getElem.mp ha
    rw [List.length_drop] at hi
    rw [List.getElem_drop]
    by_cases hzero : i = 0
    · subst hzero
      simp
    · have hless := List.pairwise_iff_getElem.mp hstrict k (k + i) hlt (by omega) (by omega)
      simpa using hless.le
  calc sorted.countP (sorted[k] ≤ ·)
      = (sorted.take k ++ sorted.drop k).countP (sorted[k] ≤ ·) := by rw [hsplit]
    _ = 0 + (sorted.drop k).length := by rw [List.countP_append, hbelow, habove]
    _ = values.length - k := by rw [Nat.zero_add, List.length_drop, hlength]

/-! ### Entries -/

/-- One entry for three bytes, with some positions but not too many. -/
structure Tidy (table : List MatchEntry) : Prop where
  distinct : Table.Distinct MatchEntry.threeBytes table
  used : ∀ e ∈ table, e.positions ≠ []
  short : ∀ e ∈ table, e.positions.length ≤ maxPositionsPerPrefix

theorem tidy_nil : Tidy [] where
  distinct := List.nodup_nil
  used := fun _ h => absurd h List.not_mem_nil
  short := fun _ h => absurd h List.not_mem_nil

theorem Tidy.filter {table : List MatchEntry} (h : Tidy table) (p : MatchEntry → Bool) :
    Tidy (table.filter p) where
  distinct := h.distinct.sublist (List.filter_sublist.map _)
  used e he := h.used e (List.mem_of_mem_filter he)
  short e he := h.short e (List.mem_of_mem_filter he)

/-- Entries that lose positions, and go when they lose all. -/
theorem Tidy.retainUsed {table : List MatchEntry} (h : Tidy table) {f : MatchEntry → MatchEntry}
    (hbytes : ∀ e, (f e).threeBytes = e.threeBytes)
    (hless : ∀ e, (f e).positions.length ≤ e.positions.length) :
    Tidy (Compressor.retainUsed (table.map f)) where
  distinct := by
    have hkeys : (table.map f).map MatchEntry.threeBytes = table.map MatchEntry.threeBytes := by
      rw [List.map_map]
      exact List.map_congr_left fun e _ => hbytes e
    have hmap : Table.Distinct MatchEntry.threeBytes (table.map f) := by
      unfold Table.Distinct
      rw [hkeys]
      exact h.distinct
    exact hmap.sublist (List.filter_sublist.map _)
  used e he := by simpa using (List.mem_filter.mp he).2
  short e he := by
    obtain ⟨g, hg, rfl⟩ := List.mem_map.mp (List.mem_of_mem_filter he)
    exact Nat.le_trans (hless g) (h.short g hg)

theorem Tidy.update {table : List MatchEntry} (h : Tidy table) (threeBytes : Bytes)
    {f : List Nat → List Nat} (hused : ∀ positions, f positions ≠ [])
    (hshort : ∀ positions, positions.length ≤ maxPositionsPerPrefix →
      (f positions).length ≤ maxPositionsPerPrefix) :
    Tidy (updateEntry table threeBytes f) where
  distinct := h.distinct.put _
  used e he := by
    rcases Table.mem_put he with rfl | hmem
    · exact hused _
    · exact h.used e hmem
  short e he := by
    rcases Table.mem_put he with rfl | hmem
    · apply hshort
      cases hlookup : Table.lookup MatchEntry.threeBytes table threeBytes with
      | none => exact Nat.zero_le _
      | some entry => exact h.short entry (Table.mem_of_lookup hlookup)
    · exact h.short e hmem

theorem length_updateEntry_le (table : List MatchEntry) (threeBytes : Bytes) (f : List Nat → List Nat) :
    (updateEntry table threeBytes f).length ≤ table.length + 1 := Table.length_put_le _ _

namespace Compressor

theorem tidy_evict {c : Compressor} (h : Tidy c.matchTable) (overflow : Nat) :
    Tidy (c.evict overflow).matchTable := by
  apply h.retainUsed
  · exact fun e => rfl
  · intro e
    change ((e.positions.filter _).map _).length ≤ _
    rw [List.length_map]
    exact List.length_filter_le _ _

theorem tidy_halveEntries {table : List MatchEntry} (h : Tidy table) : Tidy (halveEntries table) := by
  apply h.retainUsed
  · intro e
    by_cases hmany : e.positions.length > maxPositionsPerPrefix / 2
    · rw [if_pos hmany]
    · rw [if_neg hmany]
  · intro e
    by_cases hmany : e.positions.length > maxPositionsPerPrefix / 2
    · rw [if_pos hmany]
      change (e.positions.drop _).length ≤ _
      rw [List.length_drop]
      exact Nat.sub_le _ _
    · rw [if_neg hmany]

theorem tidy_compactHashTable {table : List MatchEntry} (h : Tidy table) : Tidy (compactHashTable table) := by
  have hhalved := tidy_halveEntries h
  unfold compactHashTable
  simp only
  by_cases hfew : (halveEntries table).length ≤ compactTargetEntries
  · rwa [if_pos hfew]
  · rw [if_neg hfew]
    exact hhalved.filter _

theorem pushPosition_spec (pos : Nat) (positions : List Nat) :
    pushPosition pos positions ≠ [] ∧ (positions.length ≤ maxPositionsPerPrefix →
      (pushPosition pos positions).length ≤ maxPositionsPerPrefix) := by
  unfold pushPosition
  by_cases hroom : positions.length < maxPositionsPerPrefix
  · rw [if_pos hroom]
    refine ⟨List.concat_ne_nil _ _, fun _ => ?_⟩
    rw [List.length_append]
    exact hroom
  · rw [if_neg hroom]
    refine ⟨List.concat_ne_nil _ _, fun hle => ?_⟩
    unfold maxPositionsPerPrefix at *
    rw [List.length_append, List.length_drop, List.length_singleton]
    omega

theorem tidy_foldl_indexAt {table : List MatchEntry} (h : Tidy table) (history : Bytes) (basePos : Nat)
    (places : List Nat) :
    Tidy (places.foldl (fun table i => indexAt history table (basePos + i)) table) := by
  induction places generalizing table with
  | nil => exact h
  | cons i places ih =>
      apply ih
      exact h.update _ (fun positions => (pushPosition_spec _ positions).1) fun positions =>
        (pushPosition_spec _ positions).2

theorem tidy_indexBoundary {table : List MatchEntry} (h : Tidy table) (history : Bytes)
    (basePos length offset : Nat) :
    Tidy (indexBoundary history basePos length table offset) ∧
      (indexBoundary history basePos length table offset).length ≤ table.length + 1 := by
  unfold indexBoundary
  by_cases hspans : basePos ≥ offset ∧ length + offset > 2
  · rw [if_pos hspans]
    simp only
    by_cases hroom : basePos - offset + minMatchLength ≤ history.length
    · rw [if_pos hroom]
      refine ⟨h.update _ (fun positions => ?_) (fun positions hle => ?_), length_updateEntry_le _ _ _⟩
      · by_cases hlast : positions.getLast? ≠ some (basePos - offset)
        · rw [if_pos hlast]
          exact List.concat_ne_nil _ _
        · rw [if_neg hlast]
          intro hnil
          rw [hnil] at hlast
          exact hlast (by simp)
      · by_cases hlast : positions.getLast? ≠ some (basePos - offset)
        · rw [if_pos hlast, List.length_append, List.length_singleton]
          unfold maxPositionsPerPrefix at *
          by_cases hfull : positions.length ≥ 32
          · rw [if_pos hfull, List.length_drop]
            omega
          · rw [if_neg hfull]
            omega
        · rwa [if_neg hlast]
    · rw [if_neg hroom]
      exact ⟨h, Nat.le_succ _⟩
  · rw [if_neg hspans]
    exact ⟨h, Nat.le_succ _⟩

/-! ### Thinning out -/

/-- Two entries never share their newest position. -/
theorem nodup_newest {history : Bytes} {table : List MatchEntry} (h : Indexes history table)
    (htidy : Tidy table) : (table.map newestOf).Nodup := by
  refine (List.nodup_map_iff_inj_on htidy.distinct.of_map).mpr fun e he f hf heq => ?_
  have hnewest : ∀ e ∈ table, newestOf e ∈ e.positions := by
    intro e he
    unfold newestOf
    rw [List.getLast?_eq_some_getLast (htidy.used e he), Option.getD_some]
    exact List.getLast_mem _
  have hbytes : e.threeBytes = f.threeBytes := by
    rw [← (h e he _ (hnewest e he)).2, ← (h f hf _ (hnewest f hf)).2, heq]
  have hlookup := Table.lookup_of_mem htidy.distinct he
  rw [hbytes, Table.lookup_of_mem htidy.distinct hf] at hlookup
  exact (Option.some.inj hlookup).symm

theorem length_halveEntries {table : List MatchEntry} (htidy : Tidy table) :
    (halveEntries table).length = table.length := by
  unfold halveEntries retainUsed
  rw [List.filter_eq_self.mpr, List.length_map]
  intro e he
  obtain ⟨f, hf, rfl⟩ := List.mem_map.mp he
  have hpos := List.length_pos_iff.mpr (htidy.used f hf)
  by_cases hmany : f.positions.length > maxPositionsPerPrefix / 2
  · rw [if_pos hmany]
    have hhalf : 0 < maxPositionsPerPrefix / 2 := by decide
    simp only [Bool.not_eq_true', List.isEmpty_eq_false_iff]
    rw [← List.length_pos_iff, List.length_drop]
    omega
  · rw [if_neg hmany]
    simpa using htidy.used f hf

/-- The entries of a long table that are kept are those that were seen last, as many as are aimed at. -/
theorem compactHashTable_spec {history : Bytes} {table : List MatchEntry} (h : Indexes history table)
    (htidy : Tidy table) (hmany : table.length > compactTargetEntries) :
    ∃ cutoff, compactHashTable table = (halveEntries table).filter (cutoff ≤ newestOf ·) ∧
      (compactHashTable table).length = compactTargetEntries := by
  have htidied := tidy_halveEntries htidy
  have hlength := length_halveEntries htidy
  have hcount := countP_ge_mergeSort (nodup_newest (indexes_halveEntries h) htidied)
    (k := ((halveEntries table).map newestOf).length - compactTargetEntries) (by
      rw [List.length_map, hlength]
      have hpos : 0 < compactTargetEntries := by decide
      omega)
  generalize hcutoff : (((halveEntries table).map newestOf).mergeSort (· ≤ ·)).getD
    (((halveEntries table).map newestOf).length - compactTargetEntries) 0 = cutoff at hcount
  have hfilter : compactHashTable table = (halveEntries table).filter (cutoff ≤ newestOf ·) := by
    unfold compactHashTable
    simp only
    rw [if_neg (by omega), hcutoff]
    apply List.filter_congr
    intro e he
    unfold newestOf
    rw [List.getLast?_eq_some_getLast (htidied.used e he), Option.any_some, Option.getD_some]
  refine ⟨cutoff, hfilter, ?_⟩
  rw [hfilter, ← List.countP_eq_length_filter]
  rw [List.countP_map, List.length_map] at hcount
  exact hcount.trans (by omega)

/-- Entries are only thinned out down to the target. -/
theorem length_compactHashTable {history : Bytes} {table : List MatchEntry} (h : Indexes history table)
    (htidy : Tidy table) : (compactHashTable table).length = min table.length compactTargetEntries := by
  by_cases hmany : table.length > compactTargetEntries
  · obtain ⟨_, _, hlength⟩ := compactHashTable_spec h htidy hmany
    rw [hlength, Nat.min_eq_right (Nat.le_of_lt hmany)]
  · have hlength := length_halveEntries htidy
    unfold compactHashTable
    simp only
    rw [if_pos (by omega), hlength, Nat.min_eq_left (Nat.le_of_not_lt hmany)]

/-! ### Runs -/

/-- What holds of the compressor after everything that it has compressed. -/
structure Bounded (c : Compressor) (sent : Bytes) : Prop where
  inStep : InStep c sent
  tidy : Tidy c.matchTable
  few : c.matchTable.length ≤ maxHashTableEntries + 2

theorem bounded_new : Bounded new [] where
  inStep := inStep_new
  tidy := tidy_nil
  few := Nat.zero_le _

theorem tidy_makeRoom {c : Compressor} (h : Tidy c.matchTable) (length : Nat) :
    Tidy (c.makeRoom length).matchTable := by
  unfold makeRoom
  by_cases hfull : c.history.length + length > historySize
  · rw [if_pos hfull]
    exact tidy_evict h _
  · rwa [if_neg hfull]

theorem tidy_indexNew {c : Compressor} (h : Tidy c.matchTable) (bytes : Bytes) : Tidy (c.indexNew bytes) :=
  tidy_foldl_indexAt h _ _ _

theorem tidy_thinOut {history : Bytes} {table : List MatchEntry} (h : Indexes history table)
    (htidy : Tidy table) : Tidy (thinOut table) ∧ (thinOut table).length ≤ maxHashTableEntries := by
  unfold thinOut
  by_cases hlarge : table.length > maxHashTableEntries
  · rw [if_pos hlarge]
    refine ⟨tidy_compactHashTable htidy, ?_⟩
    rw [length_compactHashTable h htidy]
    exact Nat.le_trans (Nat.min_le_right _ _) (by decide)
  · rw [if_neg hlarge]
    exact ⟨htidy, Nat.le_of_not_lt hlarge⟩

theorem Bounded.addToHistory {c : Compressor} {sent : Bytes} (h : Bounded c sent) {bytes : Bytes}
    (hbytes : bytes.length ≤ historySize) : Bounded (c.addToHistory bytes) (sent ++ bytes) := by
  have hindexes := indexes_indexNew (indexes_makeRoom h.inStep.indexes bytes.length) bytes
  obtain ⟨htidy, hfew⟩ :=
    tidy_thinOut hindexes (tidy_indexNew (tidy_makeRoom h.tidy bytes.length) bytes)
  obtain ⟨htidy₁, hlength₁⟩ := tidy_indexBoundary htidy ((c.makeRoom bytes.length).history ++ bytes)
    (c.makeRoom bytes.length).history.length bytes.length 2
  obtain ⟨htidy₂, hlength₂⟩ := tidy_indexBoundary htidy₁ ((c.makeRoom bytes.length).history ++ bytes)
    (c.makeRoom bytes.length).history.length bytes.length 1
  exact ⟨h.inStep.addToHistory hbytes, htidy₂, Nat.le_trans hlength₂ (by omega)⟩

theorem kept_bounded : Kept Bounded where
  inStep h := h.inStep
  add h hbytes := h.addToHistory hbytes

theorem bounded_foldl {c : Compressor} {sent : Bytes} (h : Bounded c sent) (inputs : List Bytes) :
    Bounded (inputs.foldl (fun c input => (c.compress input).1) c) (sent ++ inputs.flatten) := by
  induction inputs generalizing c sent with
  | nil =>
      rw [List.flatten_nil, List.append_nil]
      exact h
  | cons input inputs ih =>
      obtain ⟨_, _, _, _, _, hafter⟩ := compress_spec kept_bounded h input
      rw [List.flatten_cons, ← List.append_assoc]
      exact ih hafter

/-- Whatever a compressor was given, its history is the last of it, its table has few entries with few
positions each, and at each position stand the three bytes of its entry. -/
theorem match_table_bounded (inputs : List Bytes) :
    (inputs.foldl (fun c input => (c.compress input).1) new).history =
        Lz77.window historySize inputs.flatten ∧
      (inputs.foldl (fun c input => (c.compress input).1) new).matchTable.length ≤ maxHashTableEntries + 2 ∧
      ∀ e ∈ (inputs.foldl (fun c input => (c.compress input).1) new).matchTable,
        e.positions.length ≤ maxPositionsPerPrefix ∧
          ∀ pos ∈ e.positions,
            threeBytesAt (inputs.foldl (fun c input => (c.compress input).1) new).history pos =
              e.threeBytes := by
  have hbounded := bounded_foldl bounded_new inputs
  exact ⟨hbounded.inStep.history, hbounded.few, fun e he =>
    ⟨hbounded.tidy.short e he, fun pos hpos => (hbounded.inStep.indexes e he pos hpos).2⟩⟩

/-- Halving keeps the newest position of an entry. -/
theorem exists_halved {table : List MatchEntry} (htidy : Tidy table) {e : MatchEntry} (he : e ∈ table) :
    ∃ f ∈ halveEntries table, f.threeBytes = e.threeBytes ∧ newestOf f = newestOf e := by
  have hpos := List.length_pos_iff.mpr (htidy.used e he)
  have hhalf : 0 < maxPositionsPerPrefix / 2 := by decide
  unfold halveEntries retainUsed
  by_cases hmany : e.positions.length > maxPositionsPerPrefix / 2
  · have hdrop : e.positions.length - maxPositionsPerPrefix / 2 < e.positions.length := by omega
    refine ⟨{ e with positions := e.positions.drop (e.positions.length - maxPositionsPerPrefix / 2) },
      List.mem_filter.mpr ⟨List.mem_map.mpr ⟨e, he, if_pos hmany⟩, ?_⟩, rfl, ?_⟩
    · simp only [Bool.not_eq_true', List.isEmpty_eq_false_iff]
      rw [← List.length_pos_iff, List.length_drop]
      omega
    · unfold newestOf
      simp only
      rw [List.getLast?_drop, if_neg (by omega)]
  · exact ⟨e, List.mem_filter.mpr ⟨List.mem_map.mpr ⟨e, he, if_neg hmany⟩, by simpa using htidy.used e he⟩,
      rfl, rfl⟩

/-- Whatever a compressor was given, and whatever is added to it next that fits the history: a table that has
grown too long keeps just as many entries as are aimed at, and each of them was seen after each that goes. -/
theorem thinned_to_newest (inputs : List Bytes) {bytes : Bytes} (hfits : bytes.length ≤ historySize) :
    let c := inputs.foldl (fun c input => (c.compress input).1) new
    let table := (c.makeRoom bytes.length).indexNew bytes
    (c.addToHistory bytes).history = Lz77.window historySize (inputs.flatten ++ bytes) ∧
      (thinOut table).length =
        (if table.length > maxHashTableEntries then compactTargetEntries else table.length) ∧
      ∀ kept ∈ thinOut table, ∀ e ∈ table, (∀ f ∈ thinOut table, f.threeBytes ≠ e.threeBytes) →
        newestOf e < newestOf kept := by
  have hbounded := bounded_foldl bounded_new inputs
  have hindexes := indexes_indexNew (indexes_makeRoom hbounded.inStep.indexes bytes.length) bytes
  have htidy := tidy_indexNew (tidy_makeRoom hbounded.tidy bytes.length) bytes
  have htarget : compactTargetEntries ≤ maxHashTableEntries := by decide
  intro c table
  refine ⟨(hbounded.inStep.addToHistory hfits).history, ?_⟩
  by_cases hlong : table.length > maxHashTableEntries
  · have hthin : thinOut table = compactHashTable table := if_pos hlong
    obtain ⟨cutoff, hfilter, hlength⟩ :=
      compactHashTable_spec hindexes htidy (Nat.lt_of_le_of_lt htarget hlong)
    rw [hthin, if_pos hlong]
    refine ⟨hlength, fun kept hkept e he hgone => ?_⟩
    obtain ⟨f, hf, hbytes, hnewest⟩ := exists_halved htidy he
    rw [hfilter] at hkept hgone
    have hnew : cutoff ≤ newestOf kept := by simpa using (List.mem_filter.mp hkept).2
    have hold : ¬ cutoff ≤ newestOf f := fun hle =>
      hgone f (List.mem_filter.mpr ⟨hf, by simpa using hle⟩) hbytes
    omega
  · have hthin : thinOut table = table := if_neg hlong
    rw [hthin, if_neg hlong]
    exact ⟨rfl, fun _ _ e he hgone => absurd rfl (hgone e he)⟩

theorem thinned_to_newest_four :
    let c := [[1, 2, 3], [4, 5]].foldl (fun c input => (c.compress input).1) new
    let table := (c.makeRoom 4).indexNew [6, 7, 8, 9]
    (c.addToHistory [6, 7, 8, 9]).history = [1, 2, 3, 4, 5, 6, 7, 8, 9] ∧
      (thinOut table).length =
        (if table.length > maxHashTableEntries then compactTargetEntries else table.length) ∧
      ∀ kept ∈ thinOut table, ∀ e ∈ table, (∀ f ∈ thinOut table, f.threeBytes ≠ e.threeBytes) →
        newestOf e < newestOf kept :=
  thinned_to_newest [[1, 2, 3], [4, 5]] (by decide)

end Compressor

end Drift.Zgfx
