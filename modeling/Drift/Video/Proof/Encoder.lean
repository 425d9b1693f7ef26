import Drift.Lib.Lockstep
import Drift.Video.Encoder

/-!
# The frames of an encoder

What an encoder accepts is held back by its session, and comes out in order.
-/

namespace Drift.Video

/-! ### Outputs -/

section Outputs

variable {ε α : Type}

theorem mapM_id_map_ok (as : List α) : (as.map (Except.ok : α → Except ε α)).mapM id = .ok as := by
  induction as with
  | nil => rfl
  | cons a as ih =>
      rw [List.map_cons]
      exact Lockstep.mapM_cons_eq_ok.mpr ⟨a, as, rfl, ih, rfl⟩

theorem eq_map_ok {xs : List (Except ε α)} {as : List α} (h : xs.mapM id = .ok as) :
    xs = as.map .ok := by
  induction xs generalizing as with
  | nil =>
      obtain rfl : [] = as := by simpa [pure, Except.pure] using h
      rfl
  | cons x xs ih =>
      obtain ⟨a, rest, hx, hrest, rfl⟩ := Lockstep.mapM_cons_eq_ok.mp h
      rw [ih hrest, List.map_cons]
      exact congrArg (· :: _) hx

end Outputs

theorem flatMap_callback {frames : List Encoded} (h : ∀ f ∈ frames, f.picture.fate = .encoded) :
    frames.flatMap callback = frames.map .ok := by
  induction frames with
  | nil => rfl
  | cons f frames ih =>
      rw [List.flatMap_cons, List.map_cons, callback, h f List.mem_cons_self,
        ih fun g hg => h g (List.mem_cons_of_mem f hg)]
      rfl

theorem fate_of_mem {l : List Encoded} {f : Encoded}
    (h : .ok f ∈ l.flatMap callback) : f.picture.fate = .encoded := by
  obtain ⟨g, -, hf⟩ := List.mem_flatMap.mp h
  unfold callback at hf
  cases hfate : g.picture.fate with
  | encoded =>
      rw [hfate] at hf
      obtain rfl : f = g := by simpa [Fate.output] using hf
      exact hfate
  | dropped => rw [hfate] at hf; cases hf
  | failed e => rw [hfate] at hf; simp [Fate.output] at hf

theorem fate_of_mapM {frames encoded : List Encoded}
    (h : (frames.flatMap callback).mapM id = .ok encoded) {f : Encoded} (hf : f ∈ encoded) :
    f.picture.fate = .encoded := by
  apply fate_of_mem (l := frames)
  rw [eq_map_ok h]
  exact List.mem_map_of_mem hf

theorem Timeline.last_pts (t : Timeline) (time : Nat) :
    ∀ pts, (t.pts time).2 = .ok pts → (t.pts time).1.last = some pts := by
  intro pts
  unfold Timeline.pts
  cases t.last with
  | none => rintro ⟨⟩; rfl
  | some previous =>
      simp only
      split
      · rintro ⟨⟩
      · rintro ⟨⟩; rfl

/-! ### The encoder -/

namespace VtEncoder

/-- An encoder between two calls: a session of its size that holds frames back, and no outputs. -/
structure Holding (e : VtEncoder) (pending : List Encoded) : Prop where
  session : e.session = some ⟨e.size, pending⟩
  outputs : e.outputs = []

theorem new_eq (shot : Shot) :
    shot.fitsSession = true ∧
        new shot.size shot.created = .ok ⟨shot.size, .new, some ⟨shot.size, []⟩, []⟩ ∨
      shot.fitsSession = false ∧ ∃ e, new shot.size shot.created = .error e := by
  unfold Shot.fitsSession new createSession
  by_cases hwidth : 2 ^ 31 ≤ shot.size.width
  · rw [if_pos hwidth, decide_eq_false (Nat.not_lt.mpr hwidth), Bool.false_and, Bool.false_and]
    exact .inr ⟨rfl, _, rfl⟩
  by_cases hheight : 2 ^ 31 ≤ shot.size.height
  · rw [if_neg hwidth, if_pos hheight, decide_eq_false (Nat.not_lt.mpr hheight), Bool.and_false,
      Bool.false_and]
    exact .inr ⟨rfl, _, rfl⟩
  · rw [if_neg hwidth, if_neg hheight, decide_eq_true (Nat.lt_of_not_le hwidth),
      decide_eq_true (Nat.lt_of_not_le hheight)]
    cases shot.created with
    | error e => exact .inr ⟨rfl, e, rfl⟩
    | ok u => exact .inl ⟨rfl, rfl⟩

variable {e : VtEncoder} {pending : List Encoded}

theorem Holding.eq (h : e.Holding pending) :
    ∃ size timeline, e = ⟨size, timeline, some ⟨size, pending⟩, []⟩ := by
  obtain ⟨size, timeline, session, outputs⟩ := e
  obtain ⟨hsession, houtputs⟩ := h
  exact ⟨size, timeline, by rw [VtEncoder.mk.injEq]; exact ⟨rfl, rfl, hsession, houtputs⟩⟩

theorem flush_eq (h : e.Holding pending) (status : Int) :
    (e.flush status).2 =
      if status = 0 then (pending.flatMap callback).mapM id
      else .error (.os "VTCompressionSessionCompleteFrames" status) := by
  unfold flush finish
  rw [h.session]
  by_cases hstatus : status = 0
  · simp [hstatus, os, drain, complete, h.session, h.outputs]
  · simp [hstatus, os]

theorem encode_eq (h : e.Holding pending) {shot : Shot} (hsize : e.size = shot.size) :
    match shot.accepted? e.timeline with
    | none => ∃ t error, e.encode shot = ({ e with timeline := t }, [], .error error)
    | some micros =>
      let held : List Encoded := pending ++ [⟨micros, shot⟩]
      ∃ e' last,
        e.encode shot = (e', [.accepted ⟨micros, shot⟩],
          ((held.take shot.completed).flatMap callback).mapM id) ∧
        e'.size = e.size ∧ e'.Holding (held.drop shot.completed) ∧
        e'.timeline.last = some last ∧ last / 1000 = micros := by
  unfold Shot.accepted? encode
  by_cases hempty : shot.size.width = 0 ∨ shot.size.height = 0
  · simp only [hempty, if_true]
    exact ⟨e.timeline, _, rfl⟩
  simp only [hempty, if_false]
  obtain ⟨size, timeline, rfl⟩ := h.eq
  have hpts := timeline.last_pts shot.time
  generalize timeline.pts shot.time = result at hpts ⊢
  obtain ⟨t, error | pts⟩ := result
  · exact ⟨t, error, rfl⟩
  have hresize : (⟨size, t, some ⟨size, pending⟩, []⟩ : VtEncoder).resize shot =
      (⟨size, t, some ⟨size, pending⟩, []⟩, .ok ()) := by
    rw [resize, if_neg (by simpa using hsize)]
  simp only [hresize, submit]
  by_cases hoverflow : 2 ^ 63 ≤ pts / 1000
  · rw [if_pos hoverflow, if_neg (by omega)]
    exact ⟨t, _, rfl⟩
  rw [if_neg hoverflow]
  by_cases hstatus : shot.status = 0
  · rw [if_pos ⟨Nat.lt_of_not_le hoverflow, hstatus⟩, os, if_pos hstatus]
    exact ⟨_, pts, rfl, rfl, ⟨rfl, rfl⟩, hpts pts rfl, rfl⟩
  · rw [if_neg fun h => hstatus h.2, os, if_neg hstatus]
    exact ⟨t, _, rfl⟩

end VtEncoder

end Drift.Video
