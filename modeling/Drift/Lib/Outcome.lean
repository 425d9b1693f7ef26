import Drift.Lib.Transition

/-!
# Programs with outputs and an early exit

An outcome is what a sequential program leaves behind: a state, the outputs in order, and an exit if
the program stopped early. Outcomes are chained with `andThen`, which skips what follows an exit.
`Sat` is the judgement of a program against an observer of its outputs, with a postcondition on the
exit, the state and the summary; `Within` is the frame judgement: how far the state may move and
what kind of outputs there may be; `Emits` and `Exits` are about the outputs and the exit alone.
-/

structure Outcome (σ ω ε : Type*) where
  state : σ
  outs : List ω
  exit : Option ε

namespace Outcome

variable {σ ω ε μ α : Type*}

/-- The program that does nothing. -/
def done (s : σ) : Outcome σ ω ε := ⟨s, [], none⟩

/-- The program that makes one output. -/
def output (s : σ) (o : ω) : Outcome σ ω ε := ⟨s, [o], none⟩

/-- The program that stops at once. -/
def stop (s : σ) (e : ε) : Outcome σ ω ε := ⟨s, [], some e⟩

def andThen (r : Outcome σ ω ε) (f : σ → Outcome σ ω ε) : Outcome σ ω ε :=
  match r.exit with
  | some _ => r
  | none => ⟨(f r.state).state, r.outs ++ (f r.state).outs, (f r.state).exit⟩

/-- The program run for each element of a list. -/
def forEach (f : σ → α → Outcome σ ω ε) : σ → List α → Outcome σ ω ε
  | s, [] => done s
  | s, a :: as => (f s a).andThen (forEach f · as)

@[simp]
theorem andThen_none (s : σ) (os : List ω) (f : σ → Outcome σ ω ε) :
    andThen ⟨s, os, none⟩ f = ⟨(f s).state, os ++ (f s).outs, (f s).exit⟩ := rfl

/-! ### Frames -/

section Frame

variable {F : σ → σ → Prop} {P : ω → Prop}

/-- The program moves the state by `F` only and makes outputs of `P` only. -/
def Within (F : σ → σ → Prop) (P : ω → Prop) (s : σ) (r : Outcome σ ω ε) : Prop :=
  F s r.state ∧ ∀ o ∈ r.outs, P o

theorem Within.andThen (htrans : ∀ a b c, F a b → F b c → F a c) {s : σ} {r : Outcome σ ω ε}
    {f : σ → Outcome σ ω ε} (hr : Within F P s r) (hf : ∀ s, Within F P s (f s)) :
    Within F P s (r.andThen f) := by
  obtain ⟨hmove, houts⟩ := hr
  unfold Outcome.andThen
  split
  · exact ⟨hmove, houts⟩
  · obtain ⟨hmove', houts'⟩ := hf r.state
    refine ⟨htrans _ _ _ hmove hmove', ?_⟩
    intro o ho
    rcases List.mem_append.mp ho with ho | ho
    · exact houts o ho
    · exact houts' o ho

theorem within_done {s s' : σ} (h : F s s') : Within F P s (done s' : Outcome σ ω ε) :=
  ⟨h, by simp [done]⟩

theorem within_stop {s s' : σ} {e : ε} (h : F s s') : Within F P s (stop s' e : Outcome σ ω ε) :=
  ⟨h, by simp [stop]⟩

theorem within_output {s s' : σ} {o : ω} (h : F s s') (ho : P o) :
    Within F P s (output s' o : Outcome σ ω ε) :=
  ⟨h, by simpa [output] using ho⟩

/-- A program that starts with some outputs and goes on from another state. -/
theorem within_prefixed {G : σ → σ → Prop} {s s' : σ} {os : List ω} {f : σ → Outcome σ ω ε}
    (hos : ∀ o ∈ os, P o) (hf : Within G P s' (f s')) (hmove : ∀ c, G s' c → F s c) :
    Within F P s (andThen ⟨s', os, none⟩ f) := by
  refine ⟨hmove _ hf.1, ?_⟩
  intro o ho
  rcases List.mem_append.mp ho with ho | ho
  · exact hos o ho
  · exact hf.2 o ho

theorem within_forEach (hrefl : ∀ a, F a a) (htrans : ∀ a b c, F a b → F b c → F a c)
    {f : σ → α → Outcome σ ω ε} (s : σ) (as : List α)
    (hf : ∀ s, ∀ a ∈ as, Within F P s (f s a)) : Within F P s (forEach f s as) := by
  induction as generalizing s with
  | nil => exact ⟨hrefl s, by simp [forEach, done]⟩
  | cons a as ih =>
      exact (hf s a List.mem_cons_self).andThen htrans fun s =>
        ih s fun s b hb => hf s b (List.mem_cons_of_mem a hb)

end Frame

/-! ### Outputs -/

section Emits

variable {P : ω → Prop}

/-- The program makes outputs of one kind only. -/
def Emits (P : ω → Prop) (r : Outcome σ ω ε) : Prop := ∀ o ∈ r.outs, P o

theorem Within.emits {F : σ → σ → Prop} {s : σ} {r : Outcome σ ω ε} (h : Within F P s r) : Emits P r := h.2

theorem emits_of_nil {r : Outcome σ ω ε} (h : r.outs = []) : Emits P r := by
  intro o ho
  rw [h] at ho
  cases ho

theorem emits_output {s : σ} {o : ω} (ho : P o) : Emits P (output s o : Outcome σ ω ε) := by
  rintro o' ho'
  rw [List.mem_singleton.mp ho']
  exact ho

theorem Emits.andThen {r : Outcome σ ω ε} {f : σ → Outcome σ ω ε} (hr : Emits P r)
    (hf : ∀ s, Emits P (f s)) : Emits P (r.andThen f) := by
  unfold Outcome.andThen
  split
  · exact hr
  · intro o ho
    rcases List.mem_append.mp ho with ho | ho
    · exact hr o ho
    · exact hf r.state o ho

theorem emits_forEach {f : σ → α → Outcome σ ω ε} (s : σ) (as : List α)
    (hf : ∀ s a, Emits P (f s a)) : Emits P (forEach f s as) := by
  induction as generalizing s with
  | nil => exact emits_of_nil rfl
  | cons a as ih => exact (hf s a).andThen ih

end Emits

/-! ### Exits -/

section Exits

variable {E : ε → Prop}

/-- The program exits in one way only, if it does. -/
def Exits (E : ε → Prop) (r : Outcome σ ω ε) : Prop := ∀ e, r.exit = some e → E e

theorem exits_of_none {r : Outcome σ ω ε} (h : r.exit = none) : Exits E r := by
  intro e he
  rw [h] at he
  exact nomatch he

theorem exits_done (s : σ) : Exits E (done s : Outcome σ ω ε) := exits_of_none rfl

theorem exits_output (s : σ) (o : ω) : Exits E (output s o : Outcome σ ω ε) := exits_of_none rfl

theorem exits_stop {s : σ} {e : ε} (he : E e) : Exits E (stop s e : Outcome σ ω ε) := by
  rintro _ ⟨⟩
  exact he

theorem Exits.andThen {r : Outcome σ ω ε} {f : σ → Outcome σ ω ε} (hr : Exits E r)
    (hf : ∀ s, Exits E (f s)) : Exits E (r.andThen f) := by
  unfold Outcome.andThen
  split
  · exact hr
  · exact hf r.state

theorem exits_forEach {f : σ → α → Outcome σ ω ε} (s : σ) (as : List α)
    (hf : ∀ s a, Exits E (f s a)) : Exits E (forEach f s as) := by
  induction as generalizing s with
  | nil => exact exits_done s
  | cons a as ih => exact (hf s a).andThen ih

end Exits

/-! ### Judgements -/

section Sat

variable {observe : μ → ω → μ} {accepts : μ → ω → Prop}

/-- The property holds all along the outputs of the program, and the postcondition of the exit, the
state and the summary holds at its end. -/
structure Sat (observe : μ → ω → μ) (accepts : μ → ω → Prop) (m : μ) (r : Outcome σ ω ε)
    (Q : Option ε → σ → μ → Prop) : Prop where
  holds : Transition.Holds observe accepts m r.outs
  post : Q r.exit r.state (r.outs.foldl observe m)

theorem sat_done {m : μ} {s : σ} {Q : Option ε → σ → μ → Prop} (h : Q none s m) :
    Sat observe accepts m (done s) Q :=
  ⟨trivial, h⟩

theorem sat_stop {m : μ} {s : σ} {e : ε} {Q : Option ε → σ → μ → Prop} (h : Q (some e) s m) :
    Sat observe accepts m (stop s e) Q :=
  ⟨trivial, h⟩

theorem sat_output {m : μ} {s : σ} {o : ω} {Q : Option ε → σ → μ → Prop} (ho : accepts m o)
    (h : Q none s (observe m o)) : Sat observe accepts m (output s o) Q :=
  ⟨⟨ho, trivial⟩, h⟩

theorem Sat.mono {m : μ} {r : Outcome σ ω ε} {Q Q' : Option ε → σ → μ → Prop}
    (h : Sat observe accepts m r Q) (hQ : ∀ e s m, Q e s m → Q' e s m) :
    Sat observe accepts m r Q' :=
  ⟨h.holds, hQ _ _ _ h.post⟩

/-- **Sequence rule.** -/
theorem Sat.andThen {m : μ} {r : Outcome σ ω ε} {f : σ → Outcome σ ω ε}
    {Q Q' : Option ε → σ → μ → Prop} (h : Sat observe accepts m r Q)
    (hexit : ∀ e s m, Q (some e) s m → Q' (some e) s m)
    (hnext : ∀ s m, Q none s m → Sat observe accepts m (f s) Q') :
    Sat observe accepts m (r.andThen f) Q' := by
  obtain ⟨hholds, hpost⟩ := h
  unfold Outcome.andThen
  split
  · next e heq =>
      rw [heq] at hpost
      exact ⟨hholds, by rw [heq]; exact hexit e _ _ hpost⟩
  · next heq =>
      rw [heq] at hpost
      obtain ⟨hrest, hend⟩ := hnext _ _ hpost
      refine ⟨(Transition.holds_append ..).mpr ⟨hholds, hrest⟩, ?_⟩
      rw [List.foldl_append]
      exact hend

theorem sat_prefix {m : μ} {s : σ} {os : List ω} {f : σ → Outcome σ ω ε}
    {Q : Option ε → σ → μ → Prop} (hos : Transition.Holds observe accepts m os)
    (hf : Sat observe accepts (os.foldl observe m) (f s) Q) :
    Sat observe accepts m (Outcome.andThen ⟨s, os, none⟩ f) Q := by
  refine ⟨(Transition.holds_append ..).mpr ⟨hos, hf.holds⟩, ?_⟩
  rw [andThen_none, List.foldl_append]
  exact hf.post

/-- **Frame rule.** Outputs that are accepted and leave the summary alone leave only the movement
of the state to consider. -/
theorem Within.sat {F : σ → σ → Prop} {P : ω → Prop} {s : σ} {r : Outcome σ ω ε}
    (h : Within F P s r) {m : μ} (hP : ∀ o, P o → accepts m o ∧ observe m o = m)
    {Q : Option ε → σ → μ → Prop} (hQ : ∀ e s', F s s' → Q e s' m) :
    Sat observe accepts m r Q := by
  obtain ⟨hholds, hsame⟩ := Transition.holds_of_forall fun o ho => hP o (h.2 o ho)
  exact ⟨hholds, by rw [hsame]; exact hQ _ _ h.1⟩

end Sat

end Outcome
