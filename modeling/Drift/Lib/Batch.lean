import Drift.Lib.Keyed

/-!
# Batches over a keyed store

A `Store` reads and writes the part of a state under a key. A block of work reads its part, is
prepared there, and unless it turns out to have nothing to do leaves a job that is finished later and
whose result is written back. Preparing a batch of blocks with distinct keys, finishing their jobs
and writing all results back is the same as doing one block after another (`batch_eq_foldlM`), and
doing blocks one after another is independent of the order of different keys
(`independent_step`).
-/

namespace Keyed

/-- Reads and writes of the parts of a state, lawful at the valid keys. -/
structure Store (S K V : Type*) where
  get : S → K → V
  set : S → K → V → S
  Valid : S → K → Prop
  valid_set : ∀ s k v j, Valid (set s k v) j ↔ Valid s j
  get_set_of_ne : ∀ s k v j, Valid s k → Valid s j → j ≠ k → get (set s k v) j = get s j
  set_set : ∀ s k v w, set (set s k v) k w = set s k w
  set_comm : ∀ s j k v w, Valid s j → Valid s k → j ≠ k →
    set (set s j v) k w = set (set s k w) j v

/-- Work on the part of a state: preparing leaves a job or nothing, finishing a job gives the new
part and an output. Both may fail. -/
structure Work (B V J P : Type*) where
  prepare : B → V → Option (V × Option J)
  finish : J → Option (V × P)

/-- An accumulator of outputs under keys, for which different keys do not interfere. -/
structure Output (D K P : Type*) where
  emit : D → K → P → D
  emit_comm : ∀ d j k p q, j ≠ k → emit (emit d j p) k q = emit (emit d k q) j p

variable {S K V B J P D : Type*} (T : Store S K V) [∀ s k, Decidable (T.Valid s k)]
  (W : Work B V J P) (O : Output D K P) (key : B → K)

/-- Preparing a block and finishing its job at once. -/
def Work.act (b : B) (v : V) : Option (V × Option P) :=
  (W.prepare b v).bind fun r =>
    match r.2 with
    | none => some (r.1, none)
    | some j => (W.finish j).map fun q => (q.1, some q.2)

/-- One block, from reading its part to writing it back. -/
def step (sd : S × D) (b : B) : Option (S × D) :=
  if T.Valid sd.1 (key b) then
    (W.act b (T.get sd.1 (key b))).map fun r =>
      (T.set sd.1 (key b) r.1,
        match r.2 with
        | none => sd.2
        | some p => O.emit sd.2 (key b) p)
  else none

/-- Prepares blocks one after another and collects their jobs. -/
def prepareAll (s : S) : List B → Option (S × List (K × J))
  | [] => some (s, [])
  | b :: bs =>
    if T.Valid s (key b) then
      (W.prepare b (T.get s (key b))).bind fun r =>
        (prepareAll (T.set s (key b) r.1) bs).map fun q =>
          (q.1, (r.2.toList.map fun j => (key b, j)) ++ q.2)
    else none

/-- Finishes jobs one after another. -/
def finishAll (js : List (K × J)) : Option (List (K × V × P)) :=
  js.mapM fun j => (W.finish j.2).map fun r => (j.1, r.1, r.2)

def putBack (s : S) (rs : List (K × V × P)) : S :=
  rs.foldl (fun s r => T.set s r.1 r.2.1) s

def emitAll (d : D) (rs : List (K × V × P)) : D :=
  rs.foldl (fun d r => O.emit d r.1 r.2.2) d

/-- A whole batch: prepared, finished, written back. -/
def batch (sd : S × D) (bs : List B) : Option (S × D) :=
  (prepareAll T W key sd.1 bs).bind fun q =>
    (finishAll W q.2).map fun rs => (putBack T q.1 rs, emitAll O sd.2 rs)

variable {T W O key}

/-- Preparing blocks does not see what is written under another key. -/
theorem prepareAll_set {s : S} {k : K} (v : V) {bs : List B} (hk : T.Valid s k)
    (hbs : ∀ b ∈ bs, key b ≠ k) :
    prepareAll T W key (T.set s k v) bs =
      (prepareAll T W key s bs).map fun q => (T.set q.1 k v, q.2) := by
  induction bs generalizing s with
  | nil => rfl
  | cons b bs ih =>
      have hne : key b ≠ k := hbs b List.mem_cons_self
      have hrest : ∀ c ∈ bs, key c ≠ k := fun c hc => hbs c (List.mem_cons_of_mem b hc)
      simp only [prepareAll, T.valid_set]
      by_cases hb : T.Valid s (key b)
      · rw [if_pos hb, if_pos hb, T.get_set_of_ne s k v (key b) hk hb hne, Option.map_bind]
        congr 1
        funext r
        have hvalid : T.Valid (T.set s (key b) r.1) k := (T.valid_set s (key b) r.1 k).mpr hk
        rw [T.set_comm s k (key b) v r.1 hk hb (Ne.symm hne), ih hvalid hrest, Option.map_map,
          Function.comp_apply, Option.map_map]
        rfl
      · rw [if_neg hb, if_neg hb, Option.map_none]

/-- **Batches.** A batch of blocks with distinct keys is the blocks one after another. -/
theorem batch_eq_foldlM {sd : S × D} {bs : List B} (hnodup : (bs.map key).Nodup) :
    batch T W O key sd bs = bs.foldlM (step T W O key) sd := by
  induction bs generalizing sd with
  | nil => rfl
  | cons b bs ih =>
      obtain ⟨hb, hbs⟩ := List.nodup_cons.mp hnodup
      have hne : ∀ c ∈ bs, key c ≠ key b := fun c hc h =>
        hb (h ▸ List.mem_map_of_mem hc)
      obtain ⟨s, d⟩ := sd
      rw [List.foldlM_cons]
      by_cases hvalid : T.Valid s (key b)
      · cases hprep : W.prepare b (T.get s (key b)) with
        | none => simp [batch, prepareAll, step, Work.act, hvalid, hprep]
        | some r =>
            obtain ⟨v, oj⟩ := r
            cases oj with
            | none =>
                have hstep : step T W O key (s, d) b = some (T.set s (key b) v, d) := by
                  simp [step, Work.act, hvalid, hprep]
                rw [hstep, Option.bind_eq_bind, Option.bind_some, ← ih hbs]
                simp [batch, prepareAll, hvalid, hprep]
            | some j =>
                have hstep : step T W O key (s, d) b = (W.finish j).map fun q =>
                    (T.set s (key b) q.1, O.emit d (key b) q.2) := by
                  simp [step, Work.act, hvalid, hprep, Function.comp_def]
                rw [hstep]
                cases hfinish : W.finish j with
                | none =>
                    simp only [batch, prepareAll, if_pos hvalid, hprep, Option.bind_some,
                      Option.map_none]
                    cases prepareAll T W key (T.set s (key b) v) bs with
                    | none => rfl
                    | some q => simp [finishAll, hfinish]
                | some q =>
                    rw [Option.map_some, Option.bind_eq_bind, Option.bind_some, ← ih hbs]
                    -- The hole the preparation left is filled before the others are prepared.
                    have hfill : T.set s (key b) q.1 = T.set (T.set s (key b) v) (key b) q.1 :=
                      (T.set_set s (key b) v q.1).symm
                    have hset : prepareAll T W key (T.set (T.set s (key b) v) (key b) q.1) bs = _ :=
                      prepareAll_set q.1 ((T.valid_set s (key b) v (key b)).mpr hvalid) hne
                    simp only [batch, prepareAll, if_pos hvalid, hprep, Option.bind_some]
                    rw [hfill, hset]
                    cases prepareAll T W key (T.set s (key b) v) bs with
                    | none => rfl
                    | some t =>
                        simp only [Option.map_some, Option.bind_some, Option.toList_some,
                          List.map_cons, List.map_nil, List.singleton_append, finishAll,
                          List.mapM_cons, hfinish]
                        cases List.mapM (fun j => Option.map (fun r => (j.1, r.1, r.2))
                          (W.finish j.2)) t.2 with
                        | none => rfl
                        | some rs => rfl
      · simp [batch, prepareAll, step, hvalid]

/-- **Independence.** Blocks under different keys can be done in either order. -/
theorem independent_step [DecidableEq K] : Independent key (step T W O key) := by
  intro a b hne sd
  obtain ⟨s, d⟩ := sd
  by_cases ha : T.Valid s (key a) <;> by_cases hb : T.Valid s (key b)
  · simp only [step, if_pos ha, if_pos hb]
    cases hact : W.act a (T.get s (key a)) with
    | none =>
        cases hact' : W.act b (T.get s (key b)) with
        | none => rfl
        | some r' =>
            simp only [Option.map_none, Option.bind_none, Option.map_some, Option.bind_some,
              if_pos ((T.valid_set s (key b) r'.1 (key a)).mpr ha),
              T.get_set_of_ne s (key b) r'.1 (key a) hb ha hne, hact]
    | some r =>
        simp only [Option.map_some, Option.bind_some,
          if_pos ((T.valid_set s (key a) r.1 (key b)).mpr hb),
          T.get_set_of_ne s (key a) r.1 (key b) ha hb (Ne.symm hne)]
        cases hact' : W.act b (T.get s (key b)) with
        | none => rfl
        | some r' =>
            simp only [Option.map_some, Option.bind_some,
              if_pos ((T.valid_set s (key b) r'.1 (key a)).mpr ha),
              T.get_set_of_ne s (key b) r'.1 (key a) hb ha hne, hact,
              T.set_comm s (key a) (key b) r.1 r'.1 ha hb hne]
            cases r.2 with
            | none => rfl
            | some p =>
                cases r'.2 with
                | none => rfl
                | some p' => simp only [O.emit_comm d (key a) (key b) p p' hne]
  · simp only [step, if_pos ha, if_neg hb, Option.bind_none]
    cases W.act a (T.get s (key a)) with
    | none => rfl
    | some r =>
        simp only [Option.map_some, Option.bind_some,
          if_neg (mt (T.valid_set s (key a) r.1 (key b)).mp hb)]
  · simp only [step, if_neg ha, if_pos hb, Option.bind_none]
    cases W.act b (T.get s (key b)) with
    | none => rfl
    | some r =>
        simp only [Option.map_some, Option.bind_some,
          if_neg (mt (T.valid_set s (key b) r.1 (key a)).mp ha)]
  · simp only [step, if_neg ha, if_neg hb, Option.bind_none]

/-- **Rounds of batches.** Dealing blocks into rounds and doing each round as a batch is the blocks
one after another. -/
theorem foldlM_batch_rounds [DecidableEq K] (sd : S × D) (bs : List B) :
    (rounds key bs).foldlM (batch T W O key) sd = bs.foldlM (step T W O key) sd := by
  have hflatten : ∀ (rs : List (List B)) (sd : S × D), (∀ r ∈ rs, (r.map key).Nodup) →
      rs.foldlM (batch T W O key) sd = rs.flatten.foldlM (step T W O key) sd := by
    intro rs
    induction rs with
    | nil => exact fun _ _ => rfl
    | cons r rs ih =>
        intro sd hnodup
        rw [List.foldlM_cons, List.flatten_cons, List.foldlM_append,
          batch_eq_foldlM (hnodup r List.mem_cons_self)]
        congr 1
        funext t
        exact ih t fun q hq => hnodup q (List.mem_cons_of_mem r hq)
  rw [hflatten _ sd fun r hr => nodup_of_mem_rounds hr]
  exact foldlM_eq_of_filter_eq independent_step (fun k => filter_flatten_rounds bs k) sd

end Keyed
