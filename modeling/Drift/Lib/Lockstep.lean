import Mathlib.Data.List.Basic
import Mathlib.Tactic.TypeStar

/-!
# Fallible computations in lockstep

Two programs that may fail agree when both fail or both succeed with related results (`Option.Rel`).
Agreement goes through sequencing (`rel_bind`) and through loops over one list (`rel_foldlM`). A
program is brought to this form by forgetting its error (`Except.toOption`) and, where it changes a
state in place and so keeps one on failure, that state as well (`committed`).
-/

namespace Lockstep

universe u

variable {α β σ τ : Type u} {ε B : Type*}

/-- What a computation on a state leaves when it succeeds. -/
def committed : σ × Except ε α → Option (σ × α)
  | (s, .ok a) => some (s, a)
  | (_, .error _) => none

@[simp]
theorem committed_ok (s : σ) (a : α) : committed (s, (.ok a : Except ε α)) = some (s, a) := rfl

@[simp]
theorem committed_error (s : σ) (e : ε) : committed (s, (.error e : Except ε α)) = none := rfl

@[simp]
theorem toOption_ok (a : α) : (Except.ok a : Except ε α).toOption = some a := rfl

@[simp]
theorem toOption_error (e : ε) : (Except.error e : Except ε α).toOption = none := rfl

@[simp]
theorem toOption_pure (a : α) : (pure a : Except ε α).toOption = some a := rfl

@[simp]
theorem toOption_bind (x : Except ε α) (f : α → Except ε β) :
    (x >>= f).toOption = x.toOption.bind fun a => (f a).toOption := by
  cases x with
  | error e => rfl
  | ok a => rfl

@[simp]
theorem toOption_map (x : Except ε α) (f : α → β) : (x.map f).toOption = x.toOption.map f := by
  cases x with
  | error e => rfl
  | ok a => rfl

@[simp]
theorem toOption_mapError {ε' : Type*} (x : Except ε α) (f : ε → ε') :
    (x.mapError f).toOption = x.toOption := by
  cases x with
  | error e => rfl
  | ok a => rfl

theorem toOption_foldlM (f : σ → B → Except ε σ) (s : σ) (bs : List B) :
    (bs.foldlM f s).toOption = bs.foldlM (fun s b => (f s b).toOption) s := by
  induction bs generalizing s with
  | nil => rfl
  | cons b bs ih =>
      rw [List.foldlM_cons, List.foldlM_cons, toOption_bind]
      congr 1
      funext t
      exact ih t

variable {α' β' : Type u} {R : α → β → Prop} {Q : α' → β' → Prop}

theorem rel_bind {x : Option α} {y : Option β} {f : α → Option α'} {g : β → Option β'}
    (h : Option.Rel R x y) (hfg : ∀ a b, R a b → Option.Rel Q (f a) (g b)) :
    Option.Rel Q (x.bind f) (y.bind g) := by
  cases h with
  | none => exact .none
  | some hab => exact hfg _ _ hab

/-- **Loops.** Two loops over one list agree when their bodies do. -/
theorem rel_foldlM {R : σ → τ → Prop} {f : σ → B → Option σ} {g : τ → B → Option τ}
    (hbody : ∀ s t b, R s t → Option.Rel R (f s b) (g t b)) {s : σ} {t : τ} (hst : R s t)
    (bs : List B) : Option.Rel R (bs.foldlM f s) (bs.foldlM g t) := by
  induction bs generalizing s t with
  | nil => exact .some hst
  | cons b bs ih =>
      rw [List.foldlM_cons, List.foldlM_cons]
      exact rel_bind (hbody s t b hst) fun s' t' hst' => ih hst'

/-! ### A computation for each element -/

section ForEach

variable {A : Type*} {ε ε' : Type u}

theorem mapM_cons_eq_ok {f : A → Except ε β} {a : A} {as : List A} {bs : List β} :
    (a :: as).mapM f = .ok bs ↔ ∃ b rest, f a = .ok b ∧ as.mapM f = .ok rest ∧ bs = b :: rest := by
  rw [List.mapM_cons]
  cases f a with
  | error e => simp [bind, Except.bind]
  | ok b =>
      cases as.mapM f with
      | error e => simp [bind, Except.bind]
      | ok rest => simp [bind, Except.bind, pure, Except.pure, eq_comm]

/-- Computations that succeed together, with the same results, do so over a list. -/
theorem mapM_eq_ok_congr {f : A → Except ε β} {g : A → Except ε' β} {as : List A}
    (h : ∀ a ∈ as, ∀ b, f a = .ok b ↔ g a = .ok b) (bs : List β) :
    as.mapM f = .ok bs ↔ as.mapM g = .ok bs := by
  induction as generalizing bs with
  | nil => simp [pure, Except.pure]
  | cons a as ih =>
      have hrest := ih fun b hb => h b (List.mem_cons_of_mem a hb)
      simp only [mapM_cons_eq_ok, h a List.mem_cons_self, hrest]

end ForEach

end Lockstep
