import Mathlib.Data.List.Basic

/-!
# Readers of a prefix

A reader takes symbols from the front of a source. It is *local* if its result only depends on the symbols
that it takes, wherever in a source they stand: `Local` is closed under sequencing, so that a grammar is
local when its terminals are. What a local reader once took, it takes again from any source that starts
with it.
-/

namespace Prefix

/-- A source of symbols: those that lie ahead, and the source after some of them. -/
structure Source (C S : Type*) where
  ahead : C → List S
  skip : C → Nat → C
  skip_zero : ∀ c, skip c 0 = c
  skip_skip : ∀ c m n, skip (skip c m) n = skip c (m + n)
  ahead_skip : ∀ c n, ahead (skip c n) = (ahead c).drop n

variable {C S ε α β : Type}

theorem Source.ahead_skip_append (src : Source C S) {c : C} {used rest : List S}
    (h : src.ahead c = used ++ rest) : src.ahead (src.skip c used.length) = rest := by
  rw [src.ahead_skip, h, List.drop_left]

/-- From every source that starts with `used` the reader takes just that, and returns `a`. -/
def Reads (src : Source C S) (p : StateT C (Except ε) α) (used : List S) (a : α) : Prop :=
  ∀ c rest, src.ahead c = used ++ rest → p c = .ok (a, src.skip c used.length)

/-- What the reader takes determines what it returns. -/
def Local (src : Source C S) (p : StateT C (Except ε) α) : Prop :=
  ∀ c a c', p c = .ok (a, c') →
    ∃ used rest, src.ahead c = used ++ rest ∧ c' = src.skip c used.length ∧ Reads src p used a

variable {src : Source C S}

theorem bind_eq_ok {p : StateT C (Except ε) α} {f : α → StateT C (Except ε) β} {c c' : C} {b : β}
    (h : (p >>= f) c = .ok (b, c')) : ∃ a d, p c = .ok (a, d) ∧ f a d = .ok (b, c') := by
  change (p c >>= fun x => f x.1 x.2) = .ok (b, c') at h
  cases hp : p c with
  | error e =>
      rw [hp] at h
      cases h
  | ok x =>
      rw [hp] at h
      exact ⟨x.1, x.2, rfl, h⟩

theorem Reads.pure (a : α) : Reads src (pure a : StateT C (Except ε) α) [] a := by
  intro c rest _
  rw [List.length_nil, src.skip_zero]
  rfl

theorem Reads.bind {p : StateT C (Except ε) α} {f : α → StateT C (Except ε) β} {u v : List S} {a : α}
    {b : β} (hp : Reads src p u a) (hf : Reads src (f a) v b) : Reads src (p >>= f) (u ++ v) b := by
  intro c rest h
  rw [List.append_assoc] at h
  have hfirst := hp c _ h
  have hsecond := hf _ rest (src.ahead_skip_append h)
  rw [src.skip_skip, ← List.length_append] at hsecond
  change (p c >>= fun x => f x.1 x.2) = _
  rw [hfirst]
  exact hsecond

theorem Reads.bind_nil {p : StateT C (Except ε) α} {f : α → StateT C (Except ε) β} {u : List S} {a : α}
    {b : β} (hp : Reads src p u a) (hf : Reads src (f a) [] b) : Reads src (p >>= f) u b := by
  have hboth := hp.bind hf
  rwa [List.append_nil] at hboth

theorem Local.pure (a : α) : Local src (pure a : StateT C (Except ε) α) := by
  intro c b c' h
  cases h
  exact ⟨[], src.ahead c, rfl, (src.skip_zero c).symm, Reads.pure a⟩

theorem Local.error (e : ε) : Local src (fun _ => .error e : StateT C (Except ε) α) := by
  intro c a c' h
  cases h

theorem Local.bind {p : StateT C (Except ε) α} {f : α → StateT C (Except ε) β} (hp : Local src p)
    (hf : ∀ a, Local src (f a)) : Local src (p >>= f) := by
  intro c b c'' h
  obtain ⟨a, c', hfirst, hsecond⟩ := bind_eq_ok h
  obtain ⟨u, rest, hu, rfl, hreads⟩ := hp c a c' hfirst
  obtain ⟨v, rest', hv, rfl, hreads'⟩ := hf a _ b c'' hsecond
  rw [src.ahead_skip_append hu] at hv
  refine ⟨u ++ v, rest', ?_, ?_, hreads.bind hreads'⟩
  · rw [hu, hv, List.append_assoc]
  · rw [src.skip_skip, List.length_append]

theorem Local.lift (x : Except ε α) : Local src (StateT.lift x) := by
  cases x with
  | error e => exact Local.error e
  | ok a => exact Local.pure a

theorem Local.ite {P : Prop} [Decidable P] {p q : StateT C (Except ε) α} (hp : Local src p)
    (hq : Local src q) : Local src (if P then p else q) := by
  by_cases h : P
  · rwa [if_pos h]
  · rwa [if_neg h]

/-! ### Readers of a fixed length -/

/-- The reader takes `n` symbols and returns what `f` makes of them, and fails if fewer lie ahead. -/
structure Fixed (src : Source C S) (p : StateT C (Except ε) α) (n : Nat) (f : List S → α) : Prop where
  ok : ∀ c, n ≤ (src.ahead c).length → p c = .ok (f ((src.ahead c).take n), src.skip c n)
  error : ∀ c, (src.ahead c).length < n → ∃ e, p c = .error e

theorem bind_of_ok {p : StateT C (Except ε) α} {f : α → StateT C (Except ε) β} {c d : C} {a : α}
    (h : p c = .ok (a, d)) : (p >>= f) c = f a d := by
  change (p c >>= fun x => f x.1 x.2) = _
  rw [h]
  rfl

theorem bind_of_error {p : StateT C (Except ε) α} {f : α → StateT C (Except ε) β} {c : C} {e : ε}
    (h : p c = .error e) : (p >>= f) c = .error e := by
  change (p c >>= fun x => f x.1 x.2) = _
  rw [h]
  rfl

theorem Fixed.pure (a : α) : Fixed src (pure a : StateT C (Except ε) α) 0 fun _ => a where
  ok c _ := by
    rw [src.skip_zero]
    rfl
  error c h := absurd h (Nat.not_lt_zero _)

/-- Two readers in a row. -/
theorem Fixed.both {γ : Type} {p : StateT C (Except ε) α} {q : StateT C (Except ε) β} {n m : Nat}
    {f : List S → α} {g : List S → β} (hp : Fixed src p n f) (hq : Fixed src q m g) (k : α → β → γ) :
    Fixed src (p >>= fun a => q >>= fun b => Pure.pure (k a b)) (n + m)
      fun s => k (f (s.take n)) (g (s.drop n)) where
  ok c h := by
    have hrest : m ≤ (src.ahead (src.skip c n)).length := by
      rw [src.ahead_skip, List.length_drop]
      omega
    rw [bind_of_ok (hp.ok c (by omega)), bind_of_ok (hq.ok _ hrest), src.ahead_skip, src.skip_skip,
      List.take_take, Nat.min_eq_left (Nat.le_add_right n m), List.drop_take, Nat.add_sub_cancel_left]
    rfl
  error c h := by
    by_cases hfirst : n ≤ (src.ahead c).length
    · have hrest : (src.ahead (src.skip c n)).length < m := by
        rw [src.ahead_skip, List.length_drop]
        omega
      obtain ⟨e, he⟩ := hq.error _ hrest
      refine ⟨e, ?_⟩
      rw [bind_of_ok (hp.ok c hfirst), bind_of_error he]
    · obtain ⟨e, he⟩ := hp.error c (by omega)
      exact ⟨e, bind_of_error he⟩

/-- The same reader `count` times. -/
def times (p : StateT C (Except ε) α) : Nat → StateT C (Except ε) (List α)
  | 0 => Pure.pure []
  | count + 1 => do
    let a ← p
    let as ← times p count
    Pure.pure (a :: as)

/-- A record for each stretch of `n` symbols. -/
theorem Fixed.times {p : StateT C (Except ε) α} {n : Nat} {f : List S → α} (h : Fixed src p n f)
    (count : Nat) :
    Fixed src (times p count) (count * n) fun s =>
      (List.range count).map fun i => f ((s.drop (i * n)).take n) := by
  induction count with
  | zero =>
      rw [Nat.zero_mul]
      exact Fixed.pure []
  | succ count ih =>
      have hvalue : (fun s : List S => (List.range (count + 1)).map fun i =>
            f ((s.drop (i * n)).take n)) =
          fun s => f (s.take n) ::
            (List.range count).map fun i => f (((s.drop n).drop (i * n)).take n) := by
        funext s
        rw [List.range_succ_eq_map, List.map_cons, List.map_map, Nat.zero_mul, List.drop_zero]
        congr 1
        refine List.map_congr_left fun i _ => ?_
        rw [List.drop_drop, Function.comp_apply, Nat.succ_mul, Nat.add_comm n]
      rw [Nat.succ_mul, Nat.add_comm (count * n), hvalue]
      exact h.both ih List.cons

/-- A stretch that lies in the first `m` symbols. -/
theorem take_drop_take (s : List S) {skipped n m : Nat} (h : skipped + n ≤ m) :
    ((s.take m).drop skipped).take n = (s.drop skipped).take n := by
  rw [List.drop_take, List.take_take, Nat.min_eq_left (by omega)]

end Prefix
