import Drift.App.Recording
import Drift.Video.Proof.Encoder
import Drift.Video.Proof.Recorder

/-!
# The frames of a recording

The thread of a recording keeps the frames of its encoders exactly as long as nothing is lost or out of
order at one of its steps. A frame that is lost is missing when the recording stops; a frame that is out of
order is either missing or appended too late.
-/

namespace Drift.App

open Transition Drift.Video

/-! ### Frames in order -/

/-- Frames that are kept, with times that increase. -/
inductive Good : List Encoded → Prop where
  | nil : Good []
  | concat {frames : List Encoded} {frame : Encoded} (h : Good frames)
      (hkept : frame.picture.Kept frames.isEmpty)
      (hlater : ∀ earlier ∈ frames, earlier.pts < frame.pts) : Good (frames ++ [frame])

theorem good_concat_iff {frames : List Encoded} {frame : Encoded} :
    Good (frames ++ [frame]) ↔ Good frames ∧ frame.picture.Kept frames.isEmpty ∧
      ∀ earlier ∈ frames, earlier.pts < frame.pts := by
  constructor
  · intro h
    generalize hall : frames ++ [frame] = all at h
    cases h with
    | nil => simp at hall
    | concat h hkept hlater =>
        obtain ⟨rfl, hlast⟩ := List.append_inj' hall rfl
        cases hlast
        exact ⟨h, hkept, hlater⟩
  · rintro ⟨h, hkept, hlater⟩
    exact .concat h hkept hlater

theorem Good.of_append {frames r : List Encoded} (h : Good (frames ++ r)) : Good frames := by
  induction r using List.reverseRecOn with
  | nil => simpa using h
  | append_singleton rest frame ih =>
      rw [← List.append_assoc, good_concat_iff] at h
      exact ih h.1

theorem Good.fate {frames : List Encoded} (h : Good frames) :
    ∀ frame ∈ frames, frame.picture.fate = .encoded := by
  induction h with
  | nil => simp
  | concat h hkept hlater ih =>
      intro frame hframe
      rcases List.mem_append.mp hframe with hframe | hframe
      · exact ih frame hframe
      · obtain rfl := List.mem_singleton.mp hframe
        exact hkept.1

/-! ### Appending -/

/-- The recorder writes a file, and the session of the file has begun with the first frame. -/
def Writing (r : Recorder) (appended : List Encoded) : Prop :=
  ∃ w : Mp4Writer, r = ⟨.recording, defaultMinFreeBytes, some w⟩ ∧ w.input = !appended.isEmpty

variable {r : Recorder} {m : Tally} {frames : List Encoded}

theorem writing_concat {w : Mp4Writer} (hinput : w.input = true) (frames : List Encoded)
    (frame : Encoded) :
    Writing ⟨.recording, defaultMinFreeBytes, some w⟩ (frames ++ [frame]) :=
  ⟨w, rfl, by rw [hinput]; simp⟩

theorem append_kept (h : Writing r m.appended) (hgood : Good (m.appended ++ frames)) :
    ∃ r', append r frames = (r', frames.map .appended, false) ∧
      Writing r' (m.appended ++ frames) ∧
      Holds Tally.note Tally.Accepts m (frames.map .appended) ∧
      (frames.map .appended).foldl Tally.note m = ⟨m.accepted, m.appended ++ frames⟩ := by
  induction frames generalizing r m with
  | nil =>
      rw [List.append_nil]
      exact ⟨r, rfl, h, trivial, rfl⟩
  | cons frame frames ih =>
      obtain ⟨w, rfl, hinput⟩ := h
      rw [List.append_cons] at hgood ⊢
      obtain ⟨-, hkept, hlater⟩ := good_concat_iff.mp hgood.of_append
      rcases Recorder.append_cases frame.picture.writer defaultMinFreeBytes w frame with
        ⟨-, w', hinput', happend⟩ | ⟨htakes, -⟩
      · obtain ⟨r', hrest, hwriting, hholds, hfold⟩ := ih
          (m := ⟨m.accepted, m.appended ++ [frame]⟩) (writing_concat hinput' m.appended frame) hgood
        refine ⟨r', ?_, hwriting, ⟨hlater, hholds⟩, hfold⟩
        rw [append, happend]
        simp only [hrest]
        rfl
      · rw [hinput, Bool.not_not, hkept.2] at htakes
        cases htakes

/-- If appending frames goes well, the recorder goes on with the frames in order, or it stopped when
nothing was left. -/
theorem append_holds (h : Writing r m.appended) (hgood : Good m.appended)
    (hfates : ∀ frame ∈ frames, frame.picture.fate = .encoded)
    (hholds : Holds Tally.note Tally.Accepts m (append r frames).2.1) :
    let m' := (append r frames).2.1.foldl Tally.note m
    m'.accepted = m.accepted ∧
      ((append r frames).2.2 = false ∧ Writing (append r frames).1 m'.appended ∧
          Good m'.appended ∨
        (append r frames).2.2 = true ∧ Good m.accepted) := by
  induction frames generalizing r m with
  | nil => exact ⟨rfl, .inl ⟨rfl, h, hgood⟩⟩
  | cons frame frames ih =>
      obtain ⟨w, rfl, hinput⟩ := h
      rw [append] at hholds ⊢
      rcases Recorder.append_cases frame.picture.writer defaultMinFreeBytes w frame with
        ⟨htakes, w', hinput', happend⟩ | ⟨-, reason, happend⟩
      · rw [happend] at hholds ⊢
        simp only [List.map_nil, List.nil_append, holds_cons, List.foldl_cons] at hholds ⊢
        rw [hinput, Bool.not_not] at htakes
        have hfate := hfates frame List.mem_cons_self
        exact ih (m := ⟨m.accepted, m.appended ++ [frame]⟩)
          (writing_concat hinput' m.appended frame) (hgood.concat ⟨hfate, htakes⟩ hholds.1)
          (fun f hf => hfates f (List.mem_cons_of_mem frame hf)) hholds.2
      · rw [happend] at hholds ⊢
        have hnothing : m.appended = m.accepted := hholds.1
        exact ⟨rfl, .inr ⟨rfl, hnothing ▸ hgood⟩⟩

namespace RecordingThread

variable {t : RecordingThread} {c : StreamEnd}

/-! ### The end of the thread -/

/-- A thread between two frames. -/
structure Ready (t : RecordingThread) (m : Tally) : Prop where
  running : t.ended = false
  writing : Writing t.recorder m.appended
  holding : ∀ e, t.encoder = some e → ∃ pending, e.Holding pending
  good : Good m.appended

theorem stop_eq (c : StreamEnd) (h : Writing t.recorder m.appended) :
    (t.stop c).1.ended = true ∧
      ∃ path reason n, (t.stop c).2 = [.event (.stopped path reason n)] := by
  obtain ⟨w, hrecorder, -⟩ := h
  refine ⟨rfl, ?_⟩
  simp only [stop, hrecorder, Recorder.stop, RecorderState.stop]
  cases w.finish c.writer with
  | ok u => exact ⟨_, _, _, rfl⟩
  | error e => exact ⟨_, _, _, rfl⟩

theorem stop_holds_iff (c : StreamEnd) (h : Writing t.recorder m.appended) :
    Holds Tally.note Tally.Accepts m (t.stop c).2 ↔ m.appended = m.accepted := by
  obtain ⟨-, path, reason, n, hstop⟩ := stop_eq c h
  rw [hstop, holds_cons]
  exact and_iff_left trivial

theorem pending_eq {e : VtEncoder} {pending : List Encoded} (hencoder : t.encoder = some e)
    (h : e.Holding pending) : t.pending = pending := by
  rw [RecordingThread.pending, hencoder, Option.bind_some, h.session]
  rfl

theorem close_ended (c : StreamEnd) (t : RecordingThread) : (t.close c).1.ended = true := by
  unfold close
  cases t.encoder with
  | none => rfl
  | some e =>
      simp only
      cases (e.flush c.completed).2 with
      | error error => rfl
      | ok tail =>
          simp only
          split <;> rfl

/-- A thread that has lost nothing, and is about to end, ends well when its encoder can be flushed. -/
theorem close_holds_iff (h : t.Ready m) (hall : m.accepted = m.appended ++ t.pending)
    (hgood : Good m.accepted) :
    Holds Tally.note Tally.Accepts m (t.close c).2 ↔ t.Clears c := by
  have hleft : m.appended = m.accepted ↔ t.pending = [] := by
    rw [hall]
    exact List.self_eq_append_right
  unfold close
  cases hencoder : t.encoder with
  | none =>
      have hpending : t.pending = [] := by rw [pending, hencoder]; rfl
      exact iff_of_true ((stop_holds_iff c h.writing).mpr (hleft.mpr hpending)) (.inr hpending)
  | some e =>
      obtain ⟨pending, hholding⟩ := h.holding e hencoder
      have hpending := pending_eq hencoder hholding
      simp only [VtEncoder.flush_eq hholding]
      by_cases hstatus : c.completed = 0
      · have hfates : ∀ f ∈ pending, f.picture.fate = .encoded := fun f hf =>
          hgood.fate f (by rw [hall, hpending]; exact List.mem_append_right _ hf)
        rw [hall, hpending] at hgood
        obtain ⟨r', happend, hwriting, hholds, hfold⟩ := append_kept h.writing hgood
        rw [if_pos hstatus, flatMap_callback hfates, mapM_id_map_ok]
        simp only [happend, Bool.false_eq_true, if_false]
        refine iff_of_true ?_ (.inl hstatus)
        rw [holds_append, hfold]
        refine ⟨hholds, (stop_holds_iff (t := ⟨r', none, t.ended⟩) c hwriting).mpr ?_⟩
        rw [hall, hpending]
      · rw [if_neg hstatus]
        exact ((stop_holds_iff c h.writing).trans hleft).trans (or_iff_right hstatus).symm

theorem close_holds (h : t.Ready m) (hholds : Holds Tally.note Tally.Accepts m (t.close c).2) :
    Good m.accepted := by
  have hstops : ∀ {t : RecordingThread} {m : Tally}, Writing t.recorder m.appended →
      Good m.appended → Holds Tally.note Tally.Accepts m (t.stop c).2 → Good m.accepted :=
    fun hwriting hgood hholds => (stop_holds_iff c hwriting).mp hholds ▸ hgood
  unfold close at hholds
  cases hencoder : t.encoder with
  | none =>
      rw [hencoder] at hholds
      exact hstops h.writing h.good hholds
  | some e =>
      obtain ⟨pending, hholding⟩ := h.holding e hencoder
      simp only [hencoder, VtEncoder.flush_eq hholding] at hholds
      by_cases hstatus : c.completed = 0
      · rw [if_pos hstatus] at hholds
        cases hout : (pending.flatMap callback).mapM id with
        | error error =>
            rw [hout] at hholds
            exact hstops h.writing h.good hholds
        | ok tail =>
            simp only [hout] at hholds
            have hfates : ∀ f ∈ tail, f.picture.fate = .encoded := fun f hf => fate_of_mapM hout hf
            have happend := append_holds (r := t.recorder) (m := m) h.writing h.good hfates
            generalize append t.recorder tail = result at happend hholds
            obtain ⟨r', happened, stopped⟩ := result
            cases stopped with
            | true =>
                obtain ⟨-, ⟨hfalse, -⟩ | ⟨-, hgood⟩⟩ := happend hholds
                · cases hfalse
                · exact hgood
            | false =>
                simp only [Bool.false_eq_true, if_false, holds_append] at hholds
                obtain ⟨hsame, ⟨-, hwriting, hgood⟩ | ⟨htrue, -⟩⟩ := happend hholds.1
                · have hend := hstops (t := ⟨r', none, t.ended⟩) hwriting hgood hholds.2
                  rwa [hsame] at hend
                · cases htrue
      · rw [if_neg hstatus] at hholds
        exact hstops h.writing h.good hholds

end RecordingThread

namespace RecordingThread

variable {t : RecordingThread} {c : StreamEnd} {shot : Shot} {e : VtEncoder}

/-! ### One frame -/

/-- A thread that has lost nothing: what its encoder accepted is appended or held back, in order, and the
time of the last frame is the one on the timeline. -/
structure InStep (t : RecordingThread) (m : Tally) : Prop extends t.Ready m where
  all : m.accepted = m.appended ++ t.pending
  inOrder : Good m.accepted
  last : ∀ e, t.encoder = some e → ∃ frame last, frame ∈ m.accepted ∧
    e.timeline.last = some last ∧ frame.pts = last / 1000 ∧ ∀ g ∈ m.accepted, g.pts ≤ last / 1000
  first : t.encoder = none → m.accepted = []

theorem encoderFor_cases (t : RecordingThread) (shot : Shot) :
    (∃ e, t.encoder = some e ∧ e.size = shot.size ∧
        t.encoder.filter (·.size = shot.size) = some e ∧ t.encoderFor shot = ([], .ok e)) ∨
      t.encoder.filter (·.size = shot.size) = none ∧
        (shot.fitsSession = true ∧
            t.encoderFor shot =
              (if t.encoder.isSome then [.replaced] else [],
                .ok ⟨shot.size, .new, some ⟨shot.size, []⟩, []⟩) ∨
          shot.fitsSession = false ∧ ∃ error, t.encoderFor shot = ([], .error error)) := by
  unfold encoderFor
  cases t.encoder with
  | none =>
      refine .inr ⟨rfl, ?_⟩
      rcases VtEncoder.new_eq shot with ⟨hfits, hnew⟩ | ⟨hfits, error, hnew⟩
      · exact .inl ⟨hfits, by rw [hnew]; rfl⟩
      · exact .inr ⟨hfits, error, by rw [hnew]⟩
  | some e =>
      by_cases hsize : e.size = shot.size
      · exact .inl ⟨e, rfl, hsize, by simp [hsize], if_pos hsize⟩
      · refine .inr ⟨by simp [hsize], ?_⟩
        simp only [hsize, if_false]
        rcases VtEncoder.new_eq shot with ⟨hfits, hnew⟩ | ⟨hfits, error, hnew⟩
        · exact .inl ⟨hfits, by rw [hnew]; rfl⟩
        · exact .inr ⟨hfits, error, by rw [hnew]⟩

theorem frame_refused {pending : List Encoded} {replaced : List Happening} (c : StreamEnd)
    (hfor : t.encoderFor shot = (replaced, .ok e)) (hholding : e.Holding pending)
    (hsize : e.size = shot.size) (hrefused : shot.accepted? e.timeline = none) :
    ∃ e' : VtEncoder, e'.Holding pending ∧
      t.frame c shot =
        (({ t with encoder := some e' }.close c).1,
          replaced ++ ({ t with encoder := some e' }.close c).2) := by
  have hencode := VtEncoder.encode_eq hholding hsize
  rw [hrefused] at hencode
  obtain ⟨timeline, error, hencode⟩ := hencode
  refine ⟨{ e with timeline := timeline }, ⟨hholding.session, hholding.outputs⟩, ?_⟩
  simp only [frame, hfor, hencode, List.append_nil]

section Accepted

variable {pending : List Encoded} {replaced : List Happening} {micros : Nat}

theorem frame_kept (c : StreamEnd) (h : t.Ready m) (hfor : t.encoderFor shot = (replaced, .ok e))
    (hholding : e.Holding pending) (hsize : e.size = shot.size)
    (haccepted : shot.accepted? e.timeline = some micros)
    (hall : m.accepted = m.appended ++ pending) (hgood : Good (m.accepted ++ [⟨micros, shot⟩]))
    (hreplaced : Holds Tally.note Tally.Accepts m replaced ∧ replaced.foldl Tally.note m = m) :
    Holds Tally.note Tally.Accepts m (t.frame c shot).2 ∧
      (t.frame c shot).1.InStep ((t.frame c shot).2.foldl Tally.note m) := by
  have hencode := VtEncoder.encode_eq hholding hsize
  rw [haccepted] at hencode
  obtain ⟨e', last, hencode, -, hholding', hlast, hmicros⟩ := hencode
  set held : List Encoded := pending ++ [⟨micros, shot⟩] with hheld
  set m' : Tally := ⟨m.accepted ++ [⟨micros, shot⟩], m.appended⟩ with hm'
  have hall' : m'.accepted = (m'.appended ++ held.take shot.completed) ++
      held.drop shot.completed := by
    rw [List.append_assoc, List.take_append_drop, hheld, ← List.append_assoc, ← hall]
  have hgood' : Good (m'.appended ++ held.take shot.completed) := by
    apply Good.of_append (r := held.drop shot.completed)
    rw [← hall']
    exact hgood
  have hfates : ∀ f ∈ held.take shot.completed, f.picture.fate = .encoded := fun f hf =>
    hgood'.fate f (List.mem_append_right _ hf)
  rw [flatMap_callback hfates, mapM_id_map_ok] at hencode
  obtain ⟨r', happend, hwriting, hholds, hfold⟩ := append_kept (m := m') h.writing hgood'
  have hframe : t.frame c shot = (⟨r', some e', false⟩,
      replaced ++ [.accepted ⟨micros, shot⟩] ++ (held.take shot.completed).map .appended) := by
    simp only [frame, hfor, hencode, happend]
  rw [hframe]
  simp only [holds_append, List.foldl_append, hreplaced.2]
  refine ⟨⟨⟨hreplaced.1, trivial, trivial⟩, hholds⟩, ?_⟩
  rw [show [Happening.accepted ⟨micros, shot⟩].foldl Tally.note m = m' from rfl, hfold]
  obtain ⟨-, -, hlater⟩ := good_concat_iff.mp hgood
  refine ⟨⟨rfl, hwriting, ?_, hgood'⟩, ?_, hgood, ?_, ?_⟩
  · rintro _ ⟨⟩
    exact ⟨_, hholding'⟩
  · rw [hall', pending_eq rfl hholding']
  · rintro _ ⟨⟩
    refine ⟨⟨micros, shot⟩, last, List.mem_append_right _ List.mem_cons_self, hlast, hmicros.symm, ?_⟩
    intro g hg
    rw [hmicros]
    rcases List.mem_append.mp hg with hg | hg
    · exact Nat.le_of_lt (hlater g hg)
    · rw [List.mem_singleton.mp hg]
  · rintro ⟨⟩

/-- A frame that is not kept or comes too early makes it impossible to end well. -/
theorem frame_doomed (c : StreamEnd) (h : t.Ready m)
    (hfor : t.encoderFor shot = (replaced, .ok e)) (hholding : e.Holding pending)
    (hsize : e.size = shot.size) (haccepted : shot.accepted? e.timeline = some micros)
    (hbad : ¬ Good (m.accepted ++ [⟨micros, shot⟩])) (hsame : replaced.foldl Tally.note m = m)
    (hholds : Holds Tally.note Tally.Accepts m (t.frame c shot).2) :
    (t.frame c shot).1.Ready ((t.frame c shot).2.foldl Tally.note m) ∧
      ¬ Good ((t.frame c shot).2.foldl Tally.note m).accepted := by
  have hencode := VtEncoder.encode_eq hholding hsize
  rw [haccepted] at hencode
  obtain ⟨e', last, hencode, -, hholding', -⟩ := hencode
  set held : List Encoded := pending ++ [⟨micros, shot⟩]
  set m' : Tally := ⟨m.accepted ++ [⟨micros, shot⟩], m.appended⟩
  have hnote : (replaced ++ [Happening.accepted ⟨micros, shot⟩]).foldl Tally.note m = m' := by
    rw [List.foldl_append, hsame]
    rfl
  have hready : Ready ⟨t.recorder, some e', t.ended⟩ m' := by
    refine ⟨h.running, h.writing, ?_, h.good⟩
    rintro _ ⟨⟩
    exact ⟨_, hholding'⟩
  cases hout : ((held.take shot.completed).flatMap callback).mapM id with
  | error error =>
      have hframe : (t.frame c shot).2 = replaced ++ [.accepted ⟨micros, shot⟩] ++
          (close c ⟨t.recorder, some e', t.ended⟩).2 := by
        simp only [frame, hfor, hencode, hout]
      rw [hframe, holds_append, hnote] at hholds
      exact absurd (close_holds hready hholds.2) hbad
  | ok encoded =>
      have hfates : ∀ f ∈ encoded, f.picture.fate = .encoded := fun f hf => fate_of_mapM hout hf
      have happend := append_holds (r := t.recorder) (m := m') h.writing h.good hfates
      have hframe : t.frame c shot =
          (⟨(append t.recorder encoded).1, some e', (append t.recorder encoded).2.2⟩,
            replaced ++ [.accepted ⟨micros, shot⟩] ++ (append t.recorder encoded).2.1) := by
        simp only [frame, hfor, hencode, hout]
      rw [hframe, holds_append, hnote] at hholds
      obtain ⟨hsame', ⟨hgoes, hwriting, hgood⟩ | ⟨-, hgood⟩⟩ := happend hholds.2
      · rw [hframe, List.foldl_append, hnote]
        refine ⟨⟨hgoes, hwriting, ?_, hgood⟩, by rwa [hsame']⟩
        rintro _ ⟨⟩
        exact ⟨_, hholding'⟩
      · exact absurd hgood hbad

end Accepted

end RecordingThread

namespace RecordingThread

variable {t : RecordingThread} {c : StreamEnd} {shot : Shot} {e : VtEncoder} {micros : Nat}

theorem accepted?_new (h : shot.accepted? .new = some micros) : micros = 0 := by
  unfold Shot.accepted? at h
  split at h
  · cases h
  · have hpts : (Timeline.new.pts shot.time).2 = .ok 0 := by simp [Timeline.pts, Timeline.new]
    rw [hpts] at h
    simp only [Nat.zero_div, Option.ite_none_right_eq_some] at h
    exact (Option.some.inj h.2).symm

theorem InStep.good_next_iff (h : t.InStep m) (hencoder : t.encoder = some e) :
    Good (m.accepted ++ [⟨micros, shot⟩]) ↔
      (∀ last ∈ e.timeline.last, last / 1000 < micros) ∧ shot.Kept false := by
  obtain ⟨frame, last, hframe, hlast, hpts, hle⟩ := h.last e hencoder
  have hnonempty : m.accepted.isEmpty = false := by
    rw [List.isEmpty_eq_false_iff]
    exact List.ne_nil_of_mem hframe
  have hlater : (∀ g ∈ m.accepted, g.pts < micros) ↔ last / 1000 < micros :=
    ⟨fun hall => hpts ▸ hall frame hframe, fun hlt g hg => Nat.lt_of_le_of_lt (hle g hg) hlt⟩
  rw [good_concat_iff, hnonempty, hlast]
  simp only [h.inOrder, true_and, hlater, Option.mem_def, Option.some.injEq, forall_eq']
  exact and_comm

theorem close_iff {pending : List Encoded} {e' : VtEncoder} (h : t.InStep m)
    (hholding : e'.Holding pending) (hpending : t.pending = pending) :
    Holds Tally.note Tally.Accepts m ({ t with encoder := some e' }.close c).2 ↔ t.Clears c := by
  have hsame : ({ t with encoder := some e' } : RecordingThread).pending = t.pending := by
    rw [hpending, pending_eq rfl hholding]
  have hready : ({ t with encoder := some e' } : RecordingThread).Ready m := by
    refine ⟨h.running, h.writing, ?_, h.good⟩
    rintro _ ⟨⟩
    exact ⟨pending, hholding⟩
  rw [close_holds_iff hready (by rw [hsame]; exact h.all) h.inOrder, Clears, Clears, hsame]

theorem holds_replaced (h : t.InStep m) :
    let replaced : List Happening := if t.encoder.isSome then [.replaced] else []
    (Holds Tally.note Tally.Accepts m replaced ↔ t.pending = []) ∧
      replaced.foldl Tally.note m = m := by
  cases hencoder : t.encoder with
  | none => exact ⟨iff_of_true trivial (by rw [pending, hencoder]; rfl), rfl⟩
  | some e =>
      refine ⟨(and_iff_left trivial).trans ?_, rfl⟩
      rw [Tally.Accepts, h.all]
      exact List.self_eq_append_right

theorem frame_new (h : t.InStep m)
    (hfor : t.encoderFor shot = (if t.encoder.isSome then [.replaced] else [],
      .ok ⟨shot.size, .new, some ⟨shot.size, []⟩, []⟩)) :
    (t.pending = [] ∧ (shot.accepted? .new = none ∨ t.encoder = none ∧ shot.Kept true) →
      Holds Tally.note Tally.Accepts m (t.frame c shot).2 ∧
        ((t.frame c shot).1.ended = true ∨
          (t.frame c shot).1.InStep ((t.frame c shot).2.foldl Tally.note m))) ∧
    (¬ (t.pending = [] ∧ (shot.accepted? .new = none ∨ t.encoder = none ∧ shot.Kept true)) →
      Holds Tally.note Tally.Accepts m (t.frame c shot).2 →
      (t.frame c shot).1.Ready ((t.frame c shot).2.foldl Tally.note m) ∧
        ¬ Good ((t.frame c shot).2.foldl Tally.note m).accepted) := by
  obtain ⟨hreplaced, hsame⟩ := holds_replaced h
  have hholding : VtEncoder.Holding ⟨shot.size, .new, some ⟨shot.size, []⟩, []⟩ [] := ⟨rfl, rfl⟩
  cases haccepted : shot.accepted? .new with
  | none =>
      obtain ⟨e', hholding', hframe⟩ := frame_refused c hfor hholding rfl haccepted
      rw [hframe]
      simp only [holds_append, hsame, hreplaced]
      refine ⟨fun hclear => ⟨⟨hclear.1, ?_⟩, .inl (close_ended c _)⟩, fun hstuck hholds => ?_⟩
      · exact (close_iff h hholding' hclear.1).mpr (.inr hclear.1)
      · exact absurd ⟨hholds.1, .inl trivial⟩ hstuck
  | some micros =>
      obtain rfl := accepted?_new haccepted
      cases hencoder : t.encoder with
      | none =>
          have hempty := h.first hencoder
          have hpending : t.pending = [] := by rw [pending, hencoder]; rfl
          have hgood : Good (m.accepted ++ [⟨0, shot⟩]) ↔ shot.Kept true := by
            rw [hempty, good_concat_iff]
            exact ⟨fun hgood => hgood.2.1, fun hkept => ⟨.nil, hkept, by simp⟩⟩
          refine ⟨fun hkept => ?_, fun hlost hholds => ?_⟩
          · have hkept : shot.Kept true := (hkept.2.resolve_left (Option.some_ne_none 0)).2
            have hall : m.accepted = m.appended ++ [] := hpending ▸ h.all
            have hframe := frame_kept c h.toReady hfor hholding rfl haccepted hall
              (hgood.mpr hkept) ⟨hreplaced.mpr hpending, hsame⟩
            exact ⟨hframe.1, .inr hframe.2⟩
          · refine frame_doomed c h.toReady hfor hholding rfl haccepted (fun hg => ?_) hsame hholds
            exact hlost ⟨hpending, .inr ⟨rfl, hgood.mp hg⟩⟩
      | some e =>
          -- The timeline starts again, and an earlier frame is not earlier than zero.
          refine ⟨fun hclear => ?_, fun _ hholds => ?_⟩
          · cases (hclear.2.resolve_left (Option.some_ne_none 0)).1
          · refine frame_doomed c h.toReady hfor hholding rfl haccepted (fun hg => ?_) hsame hholds
            obtain ⟨frame, -, hframe, -⟩ := h.last e hencoder
            exact absurd ((good_concat_iff.mp hg).2.2 frame hframe) (Nat.not_lt_zero _)

theorem frame_inStep (h : t.InStep m) :
    (t.Smooth c (.frame shot) → Holds Tally.note Tally.Accepts m (t.frame c shot).2 ∧
      ((t.frame c shot).1.ended = true ∨
        (t.frame c shot).1.InStep ((t.frame c shot).2.foldl Tally.note m))) ∧
    (¬ t.Smooth c (.frame shot) → Holds Tally.note Tally.Accepts m (t.frame c shot).2 →
      (t.frame c shot).1.Ready ((t.frame c shot).2.foldl Tally.note m) ∧
        ¬ Good ((t.frame c shot).2.foldl Tally.note m).accepted) := by
  rcases encoderFor_cases t shot with
    ⟨e, hencoder, hsize, hfilter, hfor⟩ | ⟨hfilter, ⟨hfits, hfor⟩ | ⟨hfits, error, hfor⟩⟩
  · -- The encoder has the size of the frame.
    obtain ⟨pending, hholding⟩ := h.holding e hencoder
    have hpending := pending_eq hencoder hholding
    have hall := h.all
    rw [hpending] at hall
    simp only [Smooth, hfilter]
    cases haccepted : shot.accepted? e.timeline with
    | some micros =>
        simp only [← h.good_next_iff hencoder]
        refine ⟨fun hgood => ?_, fun hbad hholds => ?_⟩
        · have hkept := frame_kept c h.toReady hfor hholding hsize haccepted hall hgood
            ⟨trivial, rfl⟩
          exact ⟨hkept.1, .inr hkept.2⟩
        · exact frame_doomed c h.toReady hfor hholding hsize haccepted hbad rfl hholds
    | none =>
        obtain ⟨e', hholding', hframe⟩ := frame_refused c hfor hholding hsize haccepted
        have hiff := close_iff (c := c) h hholding' hpending
        rw [hframe]
        exact ⟨fun hclears => ⟨hiff.mpr hclears, .inl (close_ended c _)⟩,
          fun hstuck hholds => absurd (hiff.mp hholds) hstuck⟩
  · -- There is a new encoder.
    simp only [Smooth, hfilter, hfits, if_true]
    exact frame_new h hfor
  · -- There is none.
    have hframe : t.frame c shot = t.close c := by simp only [frame, hfor]
    have hiff := close_holds_iff (c := c) h.toReady h.all h.inOrder
    simp only [Smooth, hfilter, hfits, Bool.false_eq_true, if_false, hframe]
    exact ⟨fun hclears => ⟨hiff.mpr hclears, .inl (close_ended c t)⟩,
      fun hstuck hholds => absurd (hiff.mp hholds) hstuck⟩

end RecordingThread

/-! ### Runs -/

namespace RecordingThread

theorem step_inStep (c : StreamEnd) (t : RecordingThread) (m : Tally) (i : Input)
    (h : t.ended = true ∨ t.InStep m) :
    ((t.ended = false → t.Smooth c i) → Holds Tally.note Tally.Accepts m (t.step c i).2 ∧
      ((t.step c i).1.ended = true ∨
        (t.step c i).1.InStep ((t.step c i).2.foldl Tally.note m))) ∧
    (¬ (t.ended = false → t.Smooth c i) → Holds Tally.note Tally.Accepts m (t.step c i).2 →
      (t.step c i).1.Ready ((t.step c i).2.foldl Tally.note m) ∧
        ¬ Good ((t.step c i).2.foldl Tally.note m).accepted) := by
  unfold step
  rcases h with hended | h
  · rw [if_pos hended, hended]
    exact ⟨fun _ => ⟨trivial, .inl rfl⟩, fun hnot => absurd (fun hfalse => nomatch hfalse) hnot⟩
  · rw [h.running, if_neg Bool.false_ne_true]
    simp only [true_implies]
    cases i with
    | frame shot => exact frame_inStep h
    | ended =>
        have hiff := close_holds_iff (c := c) h.toReady h.all h.inOrder
        exact ⟨fun hclears => ⟨hiff.mpr hclears, .inl (close_ended c t)⟩,
          fun hstuck hholds => absurd (hiff.mp hholds) hstuck⟩

theorem step_doomed (c : StreamEnd) (t : RecordingThread) (m : Tally) (i : Input)
    (h : t.Ready m ∧ ¬ Good m.accepted)
    (hholds : Holds Tally.note Tally.Accepts m (t.step c i).2) :
    (t.step c i).1.Ready ((t.step c i).2.foldl Tally.note m) ∧
      ¬ Good ((t.step c i).2.foldl Tally.note m).accepted := by
  obtain ⟨hready, hbad⟩ := h
  unfold step at hholds ⊢
  rw [hready.running, if_neg Bool.false_ne_true] at hholds ⊢
  cases i with
  | ended => exact absurd (close_holds hready hholds) hbad
  | frame shot =>
      have hwith : ∀ {e pending replaced}, t.encoderFor shot = (replaced, .ok e) →
          e.Holding pending → e.size = shot.size → replaced.foldl Tally.note m = m →
          (t.frame c shot).1.Ready ((t.frame c shot).2.foldl Tally.note m) ∧
            ¬ Good ((t.frame c shot).2.foldl Tally.note m).accepted := by
        intro e pending replaced hfor hholding hsize hsame
        cases haccepted : shot.accepted? e.timeline with
        | some micros =>
            exact frame_doomed c hready hfor hholding hsize haccepted
              (fun hgood => hbad hgood.of_append) hsame hholds
        | none =>
            obtain ⟨e', hholding', hframe⟩ := frame_refused c hfor hholding hsize haccepted
            simp only [hframe, holds_append, hsame] at hholds
            refine absurd (close_holds (t := { t with encoder := some e' }) ⟨hready.running,
              hready.writing, ?_, hready.good⟩ hholds.2) hbad
            rintro _ ⟨⟩
            exact ⟨pending, hholding'⟩
      rcases encoderFor_cases t shot with
        ⟨e, hencoder, hsize, -, hfor⟩ | ⟨-, ⟨-, hfor⟩ | ⟨-, error, hfor⟩⟩
      · obtain ⟨pending, hholding⟩ := hready.holding e hencoder
        exact hwith hfor hholding hsize rfl
      · exact @hwith _ [] _ hfor ⟨rfl, rfl⟩ rfl (by split <;> rfl)
      · simp only [frame, hfor] at hholds
        exact absurd (close_holds hready hholds) hbad

theorem run_ended (c : StreamEnd) (t : RecordingThread) (is : List Input) :
    (run (step c) t (is ++ [.ended])).1.ended = true := by
  rw [run_concat]
  simp only [step]
  split
  · assumption
  · exact close_ended c _

theorem start_cases (p : Platform) (path : Path) :
    ((start p path).1.ended = true ∧ (start p path).2 = []) ∨
      (start p path).1.InStep .new ∧ (start p path).2 = [.event (.started path)] := by
  rcases Recorder.start_eq (r := Recorder.new) (by simp [Recorder.InStep, Recorder.new]) p path with
    ⟨-, hstart⟩ | ⟨e, hstart, -⟩
  · refine .inr ⟨?_, by rw [start, hstart]; rfl⟩
    rw [start, hstart]
    refine ⟨⟨rfl, ⟨_, rfl, rfl⟩, ?_, .nil⟩, rfl, .nil, ?_, fun _ => rfl⟩
    · rintro _ ⟨⟩
    · rintro _ ⟨⟩
  · exact .inl ⟨by rw [start, hstart]; rfl, by rw [start, hstart]; rfl⟩

end RecordingThread

/-- **When a recording keeps its frames.** The frames that are appended have times that increase, and no
accepted frame is left behind by an encoder or by the recording, exactly when each step of the thread is a
smooth one. -/
theorem recording_keeps_frames_iff (p : Platform) (path : Path) (c : StreamEnd) (shots : List Shot) :
    KeepsFrames (RecordingThread.record p path c shots) ↔
      Along (RecordingThread.step c) Tally.note
        (fun t _ i => t.ended = false → t.Smooth c i) (RecordingThread.start p path).1 .new
        (shots.map .frame ++ [.ended]) := by
  have hstart := RecordingThread.start_cases p path
  have hrun : Holds Tally.note Tally.Accepts .new
      (run (RecordingThread.step c) (RecordingThread.start p path).1
        (shots.map .frame ++ [.ended])).2 ↔
      Along (RecordingThread.step c) Tally.note
        (fun t _ i => t.ended = false → t.Smooth c i) (RecordingThread.start p path).1 .new
        (shots.map .frame ++ [.ended]) := run_holds_iff_of_doomed
    (fun t m => t.ended = true ∨ t.InStep m) (fun t m => t.Ready m ∧ ¬ Good m.accepted)
    (fun t m i h => (RecordingThread.step_inStep c t m i h).1)
    (fun t m i h => (RecordingThread.step_inStep c t m i h).2)
    (RecordingThread.step_doomed c) (hstart.imp And.left And.left)
    (fun m hdoomed => absurd hdoomed.1.running (by rw [RecordingThread.run_ended]; decide))
  rw [KeepsFrames, RecordingThread.record, holds_append, ← hrun]
  rcases hstart with ⟨-, hevents⟩ | ⟨-, hevents⟩
  · rw [hevents]
    exact and_iff_right trivial
  · rw [hevents]
    exact and_iff_right ⟨trivial, trivial⟩

/-! ### A window that is resized while it is recorded -/

def workingPlatform : Platform where
  availableBytes := .ok (2 ^ 30)
  removeFile := .ok ()
  utf8Path := true
  fileType := true
  assetWriter := .ok ()
  mediaType := true
  canAddInput := true
  startWriting := true
  readyAt _ := true
  appendSampleBuffer := true
  writing := true
  finishWriting _ := true
  completed := true
  error := none

def promptShot (size : Size) (time : Nat) : Shot :=
  ⟨size, time, .ok (), 0, 0, 1, .encoded, workingPlatform⟩

/-- The frame after the resize, 16 ms later, is appended with the time of the first one. -/
theorem not_recording_keeps_frames :
    ¬ KeepsFrames (RecordingThread.record workingPlatform "/tmp/session.mp4" ⟨0, workingPlatform⟩
      [promptShot ⟨640, 400⟩ 0, promptShot ⟨800, 600⟩ 16000000]) := by
  intro h
  have hlater : ∀ earlier ∈ [(⟨0, promptShot ⟨640, 400⟩ 0⟩ : Encoded)], earlier.pts < 0 :=
    h.2.2.2.2.2.1
  exact Nat.not_lt_zero _ (hlater _ List.mem_cons_self)

end Drift.App
