import Mathlib.Data.List.Basic

/-!
# Machines with outputs

A machine is a total step function from a state and an input to the next state and the outputs of
that step. A *checker* is a partial step function on outputs: it follows a sequence of outputs with
a state of its own and gives up at the first output it does not accept. The two rules of this file
reduce a statement about every run of a machine to a statement about one step: `run_invariant` for
properties of the state, and `run_judged` for properties of the outputs, where the state of the
checker is tied to the state of the machine by a relation.
-/

namespace Transition

variable {σ ι ω μ : Type*}

/-- The final state and all outputs, in order, of a machine fed with a list of inputs. -/
def run (step : σ → ι → σ × List ω) : σ → List ι → σ × List ω
  | s, [] => (s, [])
  | s, i :: is =>
    let next := step s i
    let rest := run step next.1 is
    (rest.1, next.2 ++ rest.2)

/-- Follows a list of outputs with a checker, from one of its states. -/
def judge (check : μ → ω → Option μ) : μ → List ω → Option μ
  | m, [] => some m
  | m, o :: os => (check m o).bind (judge check · os)

section Run

variable (step : σ → ι → σ × List ω)

@[simp]
theorem run_nil (s : σ) : run step s [] = (s, []) := rfl

theorem run_cons (s : σ) (i : ι) (is : List ι) :
    run step s (i :: is) =
      ((run step (step s i).1 is).1, (step s i).2 ++ (run step (step s i).1 is).2) := rfl

theorem run_append (s : σ) (is js : List ι) :
    run step s (is ++ js) =
      ((run step (run step s is).1 js).1,
        (run step s is).2 ++ (run step (run step s is).1 js).2) := by
  induction is generalizing s with
  | nil => simp
  | cons i is ih => simp only [List.cons_append, run_cons, ih, List.append_assoc]

theorem run_concat (s : σ) (is : List ι) (i : ι) :
    run step s (is ++ [i]) =
      ((step (run step s is).1 i).1, (run step s is).2 ++ (step (run step s is).1 i).2) := by
  simp [run_append, run_cons]

variable {step}

/-- **Invariant rule.** What every step keeps holds after every run. -/
theorem run_invariant (Inv : σ → Prop) (hstep : ∀ s i, Inv s → Inv (step s i).1) {s : σ}
    (hs : Inv s) (is : List ι) : Inv (run step s is).1 := by
  induction is generalizing s with
  | nil => exact hs
  | cons i is ih =>
      rw [run_cons]
      exact ih (hstep s i hs)

/-- **Refinement rule.** A machine whose steps follow an abstract transition function follows it
over whole runs. -/
theorem run_refines {τ : Type*} {next : τ → ι → τ} (R : σ → τ → Prop)
    (hstep : ∀ s t i, R s t → R (step s i).1 (next t i)) {s : σ} {t : τ} (hst : R s t)
    (is : List ι) : R (run step s is).1 (is.foldl next t) := by
  induction is generalizing s t with
  | nil => exact hst
  | cons i is ih =>
      rw [run_cons, List.foldl_cons]
      exact ih (hstep s t i hst)

end Run

section Judge

variable (check : μ → ω → Option μ)

@[simp]
theorem judge_nil (m : μ) : judge check m [] = some m := rfl

theorem judge_cons (m : μ) (o : ω) (os : List ω) :
    judge check m (o :: os) = (check m o).bind (judge check · os) := rfl

@[simp]
theorem judge_singleton (m : μ) (o : ω) : judge check m [o] = check m o := by
  simp [judge_cons]

theorem judge_append (m : μ) (os ps : List ω) :
    judge check m (os ++ ps) = (judge check m os).bind (judge check · ps) := by
  induction os generalizing m with
  | nil => simp
  | cons o os ih =>
      rw [List.cons_append, judge_cons, judge_cons, Option.bind_assoc]
      simp only [ih]

variable {check}

/-- Two accepted stretches of outputs, one after the other, are accepted. -/
theorem judge_append_of_eq {m m' m'' : μ} {os ps : List ω} (hos : judge check m os = some m')
    (hps : judge check m' ps = some m'') : judge check m (os ++ ps) = some m'' := by
  rw [judge_append, hos, Option.bind_some, hps]

/-- The state of a checker in the middle of accepted outputs. -/
theorem judge_append_eq_some {m m'' : μ} {os ps : List ω}
    (h : judge check m (os ++ ps) = some m'') :
    ∃ m', judge check m os = some m' ∧ judge check m' ps = some m'' := by
  rw [judge_append] at h
  exact Option.bind_eq_some_iff.mp h

/-- Outputs that leave every checker state alone are accepted together. -/
theorem judge_of_forall_eq {m : μ} {os : List ω} (h : ∀ o ∈ os, check m o = some m) :
    judge check m os = some m := by
  induction os with
  | nil => rfl
  | cons o os ih =>
      rw [judge_cons, h o List.mem_cons_self, Option.bind_some]
      exact ih fun p hp => h p (List.mem_cons_of_mem o hp)

end Judge

/-- **Simulation rule.** If every step into a state with `P` takes related states to related
states with outputs that the checker accepts, then so does every run through such states. -/
theorem run_judged_while {step : σ → ι → σ × List ω} {check : μ → ω → Option μ} {P : σ → Prop}
    (R : σ → μ → Prop)
    (hstep : ∀ s m i, R s m → P (step s i).1 →
      ∃ m', judge check m (step s i).2 = some m' ∧ R (step s i).1 m')
    {s : σ} {m : μ} (hs : R s m) {is : List ι} (hok : ∀ js, js <+: is → P (run step s js).1) :
    ∃ m', judge check m (run step s is).2 = some m' ∧ R (run step s is).1 m' := by
  induction is generalizing s m with
  | nil => exact ⟨m, rfl, hs⟩
  | cons i is ih =>
      have hfirst : P (step s i).1 := hok [i] (List.prefix_append [i] is)
      obtain ⟨m₁, hjudge, hrel⟩ := hstep s m i hs hfirst
      obtain ⟨m₂, hrest, hrel'⟩ := ih hrel fun js hjs => hok (i :: js) (List.cons_prefix_cons.mpr
        ⟨rfl, hjs⟩)
      refine ⟨m₂, ?_, hrel'⟩
      rw [run_cons]
      exact judge_append_of_eq hjudge hrest

/-- The simulation rule without a condition on the states of the run. -/
theorem run_judged {step : σ → ι → σ × List ω} {check : μ → ω → Option μ} (R : σ → μ → Prop)
    (hstep : ∀ s m i, R s m → ∃ m', judge check m (step s i).2 = some m' ∧ R (step s i).1 m')
    {s : σ} {m : μ} (hs : R s m) (is : List ι) :
    ∃ m', judge check m (run step s is).2 = some m' ∧ R (run step s is).1 m' := by
  exact run_judged_while (P := fun _ => True) R (fun s m i h _ => hstep s m i h) hs
    fun _ _ => trivial

/-! ### Observers

An *observer* folds a record of outputs into a summary. `Holds` says that a property of the summary so
far and the next output holds all along the record. -/

section Observe

variable {observe : μ → ω → μ} {accepts : μ → ω → Prop}

def Holds (observe : μ → ω → μ) (accepts : μ → ω → Prop) : μ → List ω → Prop
  | _, [] => True
  | m, o :: os => accepts m o ∧ Holds observe accepts (observe m o) os

instance (observe : μ → ω → μ) (accepts : μ → ω → Prop) [∀ m o, Decidable (accepts m o)] :
    ∀ m os, Decidable (Holds observe accepts m os)
  | _, [] => isTrue trivial
  | m, o :: os =>
    have := instDecidableHolds observe accepts (observe m o) os
    inferInstanceAs (Decidable (_ ∧ _))

@[simp]
theorem holds_nil (m : μ) : Holds observe accepts m [] := trivial

@[simp]
theorem holds_cons (m : μ) (o : ω) (os : List ω) :
    Holds observe accepts m (o :: os) ↔ accepts m o ∧ Holds observe accepts (observe m o) os :=
  Iff.rfl

theorem holds_append (m : μ) (os ps : List ω) :
    Holds observe accepts m (os ++ ps) ↔
      Holds observe accepts m os ∧ Holds observe accepts (os.foldl observe m) ps := by
  induction os generalizing m with
  | nil => simp
  | cons o os ih => simp [ih, and_assoc]

theorem Holds.mono {accepts' : μ → ω → Prop} (h : ∀ m o, accepts m o → accepts' m o) {m : μ}
    {os : List ω} (hos : Holds observe accepts m os) : Holds observe accepts' m os := by
  induction os generalizing m with
  | nil => trivial
  | cons o os ih => exact ⟨h m o hos.1, ih hos.2⟩

theorem holds_map {ν : Type*} {f : ν → ω} (m : μ) (os : List ν) :
    Holds observe accepts m (os.map f) ↔
      Holds (fun m o => observe m (f o)) (fun m o => accepts m (f o)) m os := by
  induction os generalizing m with
  | nil => exact Iff.rfl
  | cons o os ih => rw [List.map_cons, holds_cons, holds_cons, ih]

theorem holds_true (m : μ) (os : List ω) : Holds observe (fun _ _ => True) m os := by
  induction os generalizing m with
  | nil => trivial
  | cons o os ih => exact ⟨trivial, ih _⟩

/-- A property of single outputs needs no summary. -/
theorem holds_iff_forall {p : ω → Prop} (m : μ) (os : List ω) :
    Holds (fun m _ => m) (fun _ o => p o) m os ↔ ∀ o ∈ os, p o := by
  induction os with
  | nil => simp
  | cons o os ih => rw [holds_cons, ih, List.forall_mem_cons]

theorem foldl_eq_self {m : μ} {os : List ω} (h : ∀ o ∈ os, observe m o = m) :
    os.foldl observe m = m := by
  induction os with
  | nil => rfl
  | cons o os ih =>
      rw [List.foldl_cons, h o List.mem_cons_self]
      exact ih fun p hp => h p (List.mem_cons_of_mem o hp)

/-- Outputs that are accepted and leave the summary alone. -/
theorem holds_of_forall {m : μ} {os : List ω} (h : ∀ o ∈ os, accepts m o ∧ observe m o = m) :
    Holds observe accepts m os ∧ os.foldl observe m = m := by
  induction os with
  | nil => exact ⟨trivial, rfl⟩
  | cons o os ih =>
      obtain ⟨haccepts, hsame⟩ := h o List.mem_cons_self
      have hrest := ih fun p hp => h p (List.mem_cons_of_mem o hp)
      simpa [haccepts, hsame] using hrest

/-- A condition on the state, the summary and the input holds at every step of a run. -/
def Along (step : σ → ι → σ × List ω) (observe : μ → ω → μ) (P : σ → μ → ι → Prop) :
    σ → μ → List ι → Prop
  | _, _, [] => True
  | s, m, i :: is =>
    P s m i ∧ Along step observe P (step s i).1 ((step s i).2.foldl observe m) is

instance (step : σ → ι → σ × List ω) (observe : μ → ω → μ) (P : σ → μ → ι → Prop)
    [∀ s m i, Decidable (P s m i)] : ∀ s m is, Decidable (Along step observe P s m is)
  | _, _, [] => isTrue trivial
  | s, m, i :: is =>
    have := instDecidableAlong step observe P (step s i).1 ((step s i).2.foldl observe m) is
    inferInstanceAs (Decidable (_ ∧ _))

theorem along_of_forall {step : σ → ι → σ × List ω} {P : σ → μ → ι → Prop}
    (h : ∀ s m i, P s m i) (s : σ) (m : μ) (is : List ι) : Along step observe P s m is := by
  induction is generalizing s m with
  | nil => trivial
  | cons i is ih => exact ⟨h s m i, ih _ _⟩

theorem along_append {step : σ → ι → σ × List ω} {P : σ → μ → ι → Prop} (s : σ) (m : μ)
    (is js : List ι) :
    Along step observe P s m (is ++ js) ↔ Along step observe P s m is ∧
      Along step observe P (run step s is).1 ((run step s is).2.foldl observe m) js := by
  induction is generalizing s m with
  | nil => simp [Along]
  | cons i is ih => simp only [List.cons_append, Along, ih, run_cons, List.foldl_append, and_assoc]

theorem Along.mono {step : σ → ι → σ × List ω} {P Q : σ → μ → ι → Prop}
    (hPQ : ∀ s m i, P s m i → Q s m i) {s : σ} {m : μ} {is : List ι}
    (h : Along step observe P s m is) : Along step observe Q s m is := by
  induction is generalizing s m with
  | nil => trivial
  | cons i is ih => exact ⟨hPQ s m i h.1, ih h.2⟩

/-- Two conditions that agree on the inputs of a run, at the states that the first one leads to. -/
theorem along_congr {step : σ → ι → σ × List ω} {P Q : σ → μ → ι → Prop} (R : σ → μ → Prop)
    {is : List ι}
    (h : ∀ s m, ∀ i ∈ is, R s m →
      (P s m i ↔ Q s m i) ∧ (P s m i → R (step s i).1 ((step s i).2.foldl observe m)))
    {s : σ} {m : μ} (hs : R s m) : Along step observe P s m is ↔ Along step observe Q s m is := by
  induction is generalizing s m with
  | nil => exact Iff.rfl
  | cons i is ih =>
      obtain ⟨hiff, hkeeps⟩ := h s m i List.mem_cons_self hs
      have hrest := fun hP => ih (fun s m j hj => h s m j (List.mem_cons_of_mem i hj)) (hkeeps hP)
      calc P s m i ∧ Along step observe P (step s i).1 ((step s i).2.foldl observe m) is
          ↔ P s m i ∧ Along step observe Q (step s i).1 ((step s i).2.foldl observe m) is :=
            and_congr_right hrest
        _ ↔ Q s m i ∧ Along step observe Q (step s i).1 ((step s i).2.foldl observe m) is :=
            and_congr_left' hiff

/-- **Observation rule.** If every step that meets a condition keeps a relation between the state
and the summary of the record, with outputs for which the property holds, then so does every run
whose steps meet the condition. -/
theorem run_holds {step : σ → ι → σ × List ω} {P : σ → μ → ι → Prop} (R : σ → μ → Prop)
    (hstep : ∀ s m i, R s m → P s m i →
      Holds observe accepts m (step s i).2 ∧ R (step s i).1 ((step s i).2.foldl observe m))
    {s : σ} {m : μ} (hs : R s m) {is : List ι} (hP : Along step observe P s m is) :
    Holds observe accepts m (run step s is).2 ∧
      R (run step s is).1 ((run step s is).2.foldl observe m) := by
  induction is generalizing s m with
  | nil => exact ⟨trivial, hs⟩
  | cons i is ih =>
      obtain ⟨hfirst, hrest⟩ := hP
      obtain ⟨hholds, hrel⟩ := hstep s m i hs hfirst
      have hend := ih hrel hrest
      rw [run_cons, holds_append, List.foldl_append]
      exact ⟨⟨hholds, hend.1⟩, hend.2⟩

/-- Only the relation, which every step keeps that meets the condition. -/
theorem run_related {step : σ → ι → σ × List ω} {P : σ → μ → ι → Prop} (R : σ → μ → Prop)
    (hstep : ∀ s m i, R s m → P s m i → R (step s i).1 ((step s i).2.foldl observe m))
    {s : σ} {m : μ} (hs : R s m) {is : List ι} (hP : Along step observe P s m is) :
    R (run step s is).1 ((run step s is).2.foldl observe m) := by
  refine (run_holds R (fun s m i h hi => ⟨holds_true m (step s i).2, ?_⟩) hs hP).2
  exact hstep s m i h hi

/-- A relation that is kept by the steps that meet a condition, and another one that the first step
that does not meet it leads to for good. -/
theorem run_along_or {step : σ → ι → σ × List ω} {P : σ → μ → ι → Prop} (R B : σ → μ → Prop)
    (hkeeps : ∀ s m i, R s m → P s m i → R (step s i).1 ((step s i).2.foldl observe m))
    (hbreaks : ∀ s m i, R s m → ¬ P s m i → B (step s i).1 ((step s i).2.foldl observe m))
    (hstays : ∀ s m i, B s m → B (step s i).1 ((step s i).2.foldl observe m)) {s : σ} {m : μ}
    (hs : R s m) (is : List ι) :
    Along step observe P s m is ∧ R (run step s is).1 ((run step s is).2.foldl observe m) ∨
      ¬ Along step observe P s m is ∧ B (run step s is).1 ((run step s is).2.foldl observe m) := by
  induction is generalizing s m with
  | nil => exact .inl ⟨trivial, hs⟩
  | cons i is ih =>
      rw [run_cons, List.foldl_append]
      by_cases hP : P s m i
      · rcases ih (hkeeps s m i hs hP) with ⟨halong, hend⟩ | ⟨hnot, hend⟩
        · exact .inl ⟨⟨hP, halong⟩, hend⟩
        · exact .inr ⟨fun halong => hnot halong.2, hend⟩
      · have hend := run_related (P := fun _ _ _ => True) B (fun s m i h _ => hstays s m i h)
          (hbreaks s m i hs hP) (along_of_forall (fun _ _ _ => trivial) _ _ is)
        exact .inr ⟨fun halong => hP halong.1, hend⟩

/-- The observation rule in both directions: when the relation is kept by the steps that meet the
condition, the property holds along the record exactly when every step meets the condition that makes
it hold there. -/
theorem run_holds_iff {step : σ → ι → σ × List ω} {P : σ → μ → ι → Prop} (R : σ → μ → Prop)
    (hstep : ∀ s m i, R s m →
      (Holds observe accepts m (step s i).2 ↔ P s m i) ∧
        (P s m i → R (step s i).1 ((step s i).2.foldl observe m)))
    {s : σ} {m : μ} (hs : R s m) (is : List ι) :
    Holds observe accepts m (run step s is).2 ↔ Along step observe P s m is := by
  induction is generalizing s m with
  | nil => exact Iff.rfl
  | cons i is ih =>
      obtain ⟨hholds, hrel⟩ := hstep s m i hs
      rw [run_cons, holds_append, hholds]
      exact and_congr_right fun hP => ih (hrel hP)

/-- The observation rule in both directions, for a violation that shows later: a step that does not meet
the condition leads to a state that the record cannot leave well, and no run ends in one. -/
theorem run_holds_iff_of_doomed {step : σ → ι → σ × List ω} {P : σ → μ → ι → Prop}
    (R B : σ → μ → Prop)
    (hkeeps : ∀ s m i, R s m → P s m i →
      Holds observe accepts m (step s i).2 ∧ R (step s i).1 ((step s i).2.foldl observe m))
    (hbreaks : ∀ s m i, R s m → ¬ P s m i → Holds observe accepts m (step s i).2 →
      B (step s i).1 ((step s i).2.foldl observe m))
    (hstays : ∀ s m i, B s m → Holds observe accepts m (step s i).2 →
      B (step s i).1 ((step s i).2.foldl observe m))
    {s : σ} {m : μ} (hs : R s m) {is : List ι} (hend : ∀ m, ¬ B (run step s is).1 m) :
    Holds observe accepts m (run step s is).2 ↔ Along step observe P s m is := by
  have hdoomed : ∀ (is : List ι) (s : σ) (m : μ), B s m → (∀ m, ¬ B (run step s is).1 m) →
      ¬ Holds observe accepts m (run step s is).2 := by
    intro is
    induction is with
    | nil => exact fun s m hB hend _ => hend m hB
    | cons i is ih =>
        intro s m hB hend hholds
        rw [run_cons, holds_append] at hholds
        exact ih _ _ (hstays s m i hB hholds.1) hend hholds.2
  induction is generalizing s m with
  | nil => exact Iff.rfl
  | cons i is ih =>
      rw [run_cons, holds_append]
      by_cases hP : P s m i
      · obtain ⟨hfirst, hrel⟩ := hkeeps s m i hs hP
        exact and_congr (iff_of_true hfirst hP) (ih hrel hend)
      · refine iff_of_false (fun hholds => ?_) fun halong => hP halong.1
        exact hdoomed is _ _ (hbreaks s m i hs hP hholds.1) hend hholds.2

/-! ### Selected outputs -/

/-- The observer that keeps the outputs of a kind. -/
def collect (kind : ω → Bool) (kept : List ω) (o : ω) : List ω :=
  if kind o then kept ++ [o] else kept

theorem foldl_collect (kind : ω → Bool) (kept os : List ω) :
    os.foldl (collect kind) kept = kept ++ os.filter kind := by
  induction os generalizing kept with
  | nil => simp
  | cons o os ih =>
      rw [List.foldl_cons, ih, List.filter_cons, collect]
      split <;> simp

/-- Outputs of other kinds may be left out when they are accepted and leave the summary alone. -/
theorem holds_filter {kind : ω → Bool}
    (h : ∀ m o, kind o = false → accepts m o ∧ observe m o = m) (m : μ) (os : List ω) :
    (Holds observe accepts m (os.filter kind) ↔ Holds observe accepts m os) ∧
      (os.filter kind).foldl observe m = os.foldl observe m := by
  induction os generalizing m with
  | nil => exact ⟨Iff.rfl, rfl⟩
  | cons o os ih =>
      cases hkind : kind o with
      | true =>
          obtain ⟨hholds, hsame⟩ := ih (observe m o)
          simp [hkind, hholds, hsame]
      | false =>
          obtain ⟨haccepts, hsame⟩ := h m o hkind
          obtain ⟨hholds, hfold⟩ := ih m
          simp [hkind, haccepts, hsame, hholds, hfold]

end Observe

/-! ### Recorded steps -/

/-- What a step did, with the states around it. -/
structure Step (σ ι ω : Type*) where
  before : σ
  input : ι
  outs : List ω
  after : σ

/-- The machine whose output is the record of its steps. -/
def recorded (step : σ → ι → σ × List ω) (s : σ) (i : ι) : σ × List (Step σ ι ω) :=
  ((step s i).1, [⟨s, i, (step s i).2, (step s i).1⟩])

theorem step_of_mem_recorded {step : σ → ι → σ × List ω} {s : σ} {is : List ι} {st : Step σ ι ω}
    (h : st ∈ (run (recorded step) s is).2) : step st.before st.input = (st.after, st.outs) := by
  induction is generalizing s with
  | nil => cases h
  | cons i is ih =>
      rcases List.mem_append.mp h with hfirst | hrest
      · rw [List.mem_singleton.mp hfirst]
      · exact ih hrest

end Transition
