import Drift.Video.Recorder

/-!
# The recorder in step with its writer

The state, the writer and the events of the recorder change together, whichever call ends a recording and
for whichever reason.
-/

namespace Drift.Video

open Transition

variable {Picture : Type}

/-! ### The writer -/

namespace Mp4Writer

theorem create_eq (p : Platform) (path : Path) :
    (∃ message, create p path = .error (.writer message)) ∨
      create p path = .ok ⟨path, false, 0, none, none, none⟩ := by
  unfold create
  cases p.removeFile with
  | error e => exact .inl ⟨_, rfl⟩
  | ok u =>
      cases p.utf8Path with
      | false => exact .inl ⟨_, rfl⟩
      | true =>
          cases p.fileType with
          | false => exact .inl ⟨_, rfl⟩
          | true =>
              cases p.assetWriter with
              | error e => exact .inl ⟨e, rfl⟩
              | ok u => exact .inr rfl

theorem begin_eq (p : Platform) (w : Mp4Writer) (frame : EncodedFrame Picture) :
    (w.begin p frame).1.path = w.path ∧ (w.begin p frame).1.frames = w.frames ∧
      ((∃ message, (w.begin p frame).2 = .error (.writer message)) ∨
        (w.begin p frame).2 = .ok ()) := by
  unfold begin
  split
  · exact ⟨rfl, rfl, .inl ⟨_, rfl⟩⟩
  split
  · exact ⟨rfl, rfl, .inl ⟨_, rfl⟩⟩
  split
  · exact ⟨rfl, rfl, .inl ⟨_, rfl⟩⟩
  · exact ⟨rfl, rfl, .inr rfl⟩

/-- Only a frame that was appended is counted, and every error is one of the writer. -/
theorem append_eq (p : Platform) (w : Mp4Writer) (frame : EncodedFrame Picture) :
    (w.append p frame).1.path = w.path ∧
      ((∃ message, (w.append p frame).2 = .error (.writer message)) ∧
          (w.append p frame).1.frames = w.frames ∨
        (w.append p frame).2 = .ok () ∧ (w.append p frame).1.frames = w.frames + 1) := by
  have hbegun : ∃ w' result, (if w.input then (w, .ok ()) else w.begin p frame) = (w', result) ∧
      w'.path = w.path ∧ w'.frames = w.frames ∧
      ((∃ message, result = .error (.writer message)) ∨ result = .ok ()) := by
    split
    · exact ⟨w, .ok (), rfl, rfl, rfl, .inr rfl⟩
    · exact ⟨_, _, rfl, w.begin_eq p frame⟩
  obtain ⟨w', result, hbegin, hpath, hframes, ⟨message, rfl⟩ | rfl⟩ := hbegun
  · simp only [append, hbegin]
    exact ⟨hpath, .inl ⟨⟨message, rfl⟩, hframes⟩⟩
  · simp only [append, hbegin]
    split
    · exact ⟨hpath, .inl ⟨⟨_, rfl⟩, hframes⟩⟩
    split
    · exact ⟨hpath, .inl ⟨⟨_, rfl⟩, hframes⟩⟩
    · exact ⟨hpath, .inr ⟨rfl, congrArg (· + 1) hframes⟩⟩

end Mp4Writer

/-! ### The recorder -/

namespace Recorder

/-- The file that is being written, and the frames it was given. -/
def ongoing (r : Recorder) : Option (Path × Nat) := r.writer.map fun w => (w.path, w.frames)

/-- The recorder is recording exactly when it owns a writer. -/
def InStep (r : Recorder) : Prop := r.state = .recording ↔ r.writer.isSome

variable {r : Recorder}

theorem InStep.idle (h : r.InStep) (hwriter : r.writer = none) : r.state = .idle := by
  cases hstate : r.state with
  | idle => rfl
  | recording =>
      have howns := h.mp hstate
      rw [hwriter] at howns
      cases howns

theorem InStep.recording (h : r.InStep) {w : Mp4Writer} (hwriter : r.writer = some w) :
    r.state = .recording := h.mpr (by rw [hwriter]; rfl)

/-- What a call leaves, and what it sends and returns. -/
structure Keeps (r : Recorder) (next : Recorder) (t : Returned) : Prop where
  inStep : next.InStep
  fits : t.Fits r.ongoing
  follow : t.follow r.ongoing = next.ongoing

theorem start_eq (h : r.InStep) (p : Platform) (path : Path) :
    (r.writer = none ∧
        r.start p path =
          (⟨.recording, r.minFreeBytes, some ⟨path, false, 0, none, none, none⟩⟩,
            [.started path], .ok ())) ∨
      ∃ e, r.start p path = (r, [], .error e) ∧ (e = .alreadyStarted ↔ r.writer.isSome) := by
  cases hwriter : r.writer with
  | some w =>
      refine .inr ⟨.alreadyStarted, ?_, by simp⟩
      simp only [start, h.recording hwriter, RecorderState.start]
  | none =>
      simp only [start, h.idle hwriter, RecorderState.start]
      rcases Mp4Writer.create_eq p path with ⟨message, hcreate⟩ | hcreate
      · exact .inr ⟨.writer message, by rw [hcreate], by simp⟩
      · exact .inl ⟨trivial, by rw [hcreate]⟩

theorem keeps_start (h : r.InStep) (p : Platform) (path : Path) :
    Keeps r (r.start p path).1 ⟨(r.start p path).2.1, .start (r.start p path).2.2⟩ := by
  rcases start_eq h p path with ⟨hwriter, heq⟩ | ⟨e, heq, he⟩
  · rw [heq]
    exact ⟨by simp [InStep], ⟨by simp [ongoing, hwriter], path, rfl⟩, rfl⟩
  · rw [heq]
    exact ⟨h, ⟨rfl, by simpa [ongoing] using he⟩, rfl⟩

theorem keeps_append (h : r.InStep) (p : Platform) (frame : EncodedFrame Picture) :
    Keeps r (r.append p frame).1 ⟨(r.append p frame).2.1, .append (r.append p frame).2.2⟩ := by
  unfold append
  cases hwriter : r.writer with
  | none => exact ⟨h, ⟨by simp [ongoing, hwriter], rfl, rfl⟩, rfl⟩
  | some w =>
      have hongoing : r.ongoing = some (w.path, w.frames) := by rw [ongoing, hwriter]; rfl
      cases hlow : r.lowSpace p with
      | true =>
          simp only [finish, hwriter, if_true]
          exact ⟨by simp [InStep], ⟨w.path, w.frames, hongoing, rfl⟩, rfl⟩
      | false =>
          have happend := w.append_eq p frame
          simp only [Bool.false_eq_true, if_false]
          generalize w.append p frame = next at happend ⊢
          obtain ⟨w', result⟩ := next
          obtain ⟨hpath, ⟨⟨message, herror⟩, hframes⟩ | ⟨hok, hframes⟩⟩ := happend
          · obtain rfl : result = .error (.writer message) := herror
            have hevent : ongoing r = some (w'.path, w'.frames) := by rw [hongoing, hpath, hframes]
            exact ⟨by simp [InStep, finish], ⟨_, _, hevent, rfl⟩, rfl⟩
          · obtain rfl : result = .ok () := hok
            refine ⟨by simp [InStep, h.recording hwriter], ⟨by rw [hongoing]; rfl, rfl⟩, ?_⟩
            show r.ongoing.map (fun ongoing => (ongoing.1, ongoing.2 + 1)) = some (w'.path, w'.frames)
            rw [hongoing, hpath, hframes]
            rfl

theorem keeps_stop (h : r.InStep) (p : Platform) :
    Keeps r (r.stop p).1 ⟨(r.stop p).2.1, .stop (r.stop p).2.2⟩ := by
  unfold stop
  cases hwriter : r.writer with
  | none =>
      have hongoing : r.ongoing = none := by rw [ongoing, hwriter]; rfl
      simp only [h.idle hwriter, RecorderState.stop]
      exact ⟨h, by rw [hongoing]; exact ⟨rfl, rfl⟩, hongoing.symm⟩
  | some w =>
      have hongoing : r.ongoing = some (w.path, w.frames) := by rw [ongoing, hwriter]; rfl
      simp only [h.recording hwriter, RecorderState.stop]
      cases w.finish p with
      | ok u => exact ⟨by simp [InStep], ⟨hongoing, rfl⟩, rfl⟩
      | error e => exact ⟨by simp [InStep], by rw [hongoing]; rfl, rfl⟩

theorem keeps_call (h : r.InStep) (c : Platform × RecorderCall Picture) :
    ∃ t, (r.call c).2 = [t] ∧ Keeps r (r.call c).1 t := by
  obtain ⟨p, path | frame | _⟩ := c
  · exact ⟨_, rfl, keeps_start h p path⟩
  · exact ⟨_, rfl, keeps_append h p frame⟩
  · exact ⟨_, rfl, keeps_stop h p⟩

/-! ### Runs -/

/-- The calls of a run, each with the recording that is running when it is made. -/
theorem run_call (minFreeBytes : Nat) (calls : List (Platform × RecorderCall Picture)) :
    let ran := run call (new.withFreeSpace minFreeBytes) calls
    ran.1.InStep ∧ Holds Returned.follow Returned.Fits none ran.2 ∧
      ran.2.foldl Returned.follow none = ran.1.ongoing := by
  let R : Recorder → Option (Path × Nat) → Prop := fun r m => r.InStep ∧ m = r.ongoing
  have hstart : R (new.withFreeSpace minFreeBytes) none :=
    ⟨by simp [InStep, new, withFreeSpace], rfl⟩
  have hrun : Holds Returned.follow Returned.Fits none
        (run call (new.withFreeSpace minFreeBytes) calls).2 ∧
      R (run call (new.withFreeSpace minFreeBytes) calls).1
        ((run call (new.withFreeSpace minFreeBytes) calls).2.foldl Returned.follow none) :=
    run_holds (P := fun _ _ _ => True) R ?_ hstart (along_of_forall (fun _ _ _ => trivial) _ _ calls)
  · exact ⟨hrun.2.1, hrun.1, hrun.2.2⟩
  · rintro r _ c ⟨h, rfl⟩ -
    obtain ⟨t, ht, hkeeps⟩ := keeps_call h c
    rw [ht]
    exact ⟨⟨hkeeps.fits, trivial⟩, hkeeps.inStep, hkeeps.follow⟩

end Recorder

namespace Returned

theorem Fits.takesTurn {m : Option (Path × Nat)} {t : Returned} (h : t.Fits m) :
    Holds RecordingEvent.opened RecordingEvent.TakesTurn (m.map Prod.fst) t.events ∧
      t.events.foldl RecordingEvent.opened (m.map Prod.fst) = (t.follow m).map Prod.fst := by
  obtain ⟨events, result | result | result⟩ := t
  · cases result with
    | ok u =>
        obtain ⟨rfl, path, rfl⟩ := h
        exact ⟨⟨trivial, trivial⟩, rfl⟩
    | error e =>
        obtain ⟨rfl, -⟩ := h
        exact ⟨trivial, rfl⟩
  · match result, h with
    | .ok .recording, h =>
        obtain ⟨hsome, rfl⟩ := h
        cases m with
        | none => cases hsome
        | some ongoing => exact ⟨trivial, rfl⟩
    | .ok (.stopped reason), h =>
        obtain ⟨path, frames, rfl, rfl⟩ := h
        exact ⟨⟨rfl, trivial⟩, rfl⟩
    | .error e, h =>
        obtain ⟨rfl, rfl, -⟩ := h
        exact ⟨trivial, rfl⟩
  · cases result with
    | ok summary =>
        obtain ⟨rfl, rfl⟩ := h
        exact ⟨⟨rfl, trivial⟩, rfl⟩
    | error e =>
        cases m with
        | none =>
            obtain ⟨rfl, -⟩ := h
            exact ⟨trivial, rfl⟩
        | some ongoing =>
            obtain rfl := h
            exact ⟨⟨rfl, trivial⟩, rfl⟩

theorem takesTurn {m : Option (Path × Nat)} {ts : List Returned} (h : Holds follow Fits m ts) :
    Holds RecordingEvent.opened RecordingEvent.TakesTurn (m.map Prod.fst)
        (ts.flatMap (·.events)) ∧
      (ts.flatMap (·.events)).foldl RecordingEvent.opened (m.map Prod.fst) =
        (ts.foldl follow m).map Prod.fst := by
  induction ts generalizing m with
  | nil => exact ⟨trivial, rfl⟩
  | cons t ts ih =>
      obtain ⟨hholds, hfold⟩ := h.1.takesTurn
      obtain ⟨hrest, hend⟩ := ih h.2
      rw [List.flatMap_cons, holds_append, List.foldl_append, hfold]
      exact ⟨⟨hholds, hrest⟩, hend⟩

end Returned

/-- **The recorder is in step with its writer.** It records exactly when it owns a writer; its events
take turns, and the one that is open belongs to the file of the writer; every call fits the recording that
is running, with the frames that were appended to it since its start; and a start that fails changes
nothing. -/
theorem recorder_in_step (minFreeBytes : Nat) (calls : List (Platform × RecorderCall Picture)) :
    let ran := run Recorder.call (Recorder.new.withFreeSpace minFreeBytes) calls
    (ran.1.state = .recording ↔ ran.1.writer.isSome) ∧
      (Holds RecordingEvent.opened RecordingEvent.TakesTurn none (ran.2.flatMap (·.events)) ∧
        (ran.2.flatMap (·.events)).foldl RecordingEvent.opened none =
          ran.1.writer.map (·.path)) ∧
      (Holds Returned.follow Returned.Fits none ran.2 ∧
        ran.2.foldl Returned.follow none = ran.1.writer.map fun w => (w.path, w.frames)) ∧
      ∀ p path, (ran.1.start p path).2.2 = .ok () ∨
        (ran.1.start p path).1 = ran.1 ∧ (ran.1.start p path).2.1 = [] := by
  intro ran
  obtain ⟨hinStep, hfits, hfollow⟩ := Recorder.run_call minFreeBytes calls
  obtain ⟨hturns, hopen⟩ := Returned.takesTurn hfits
  refine ⟨hinStep, ⟨hturns, ?_⟩, ⟨hfits, hfollow⟩, fun p path => ?_⟩
  · rw [Option.map_none] at hopen
    rw [hopen, hfollow, Recorder.ongoing, Option.map_map]
    rfl
  · rcases Recorder.start_eq hinStep p path with ⟨-, heq⟩ | ⟨e, heq, -⟩
    · exact .inl (by rw [heq])
    · exact .inr (by rw [heq]; exact ⟨rfl, rfl⟩)

/-! ### Which frames the file takes -/

theorem Mp4Writer.begin_cases (p : Platform) (w : Mp4Writer) (frame : EncodedFrame Picture) :
    (p.mediaType && p.canAddInput && p.startWriting) = true ∧ (w.begin p frame).2 = .ok () ∧
        (w.begin p frame).1.input = true ∨
      (p.mediaType && p.canAddInput && p.startWriting) = false ∧
        ∃ message, (w.begin p frame).2 = .error (.writer message) := by
  unfold begin
  cases p.mediaType with
  | false => exact .inr ⟨rfl, _, rfl⟩
  | true =>
      cases p.canAddInput with
      | false => exact .inr ⟨rfl, _, rfl⟩
      | true =>
          cases p.startWriting with
          | false => exact .inr ⟨rfl, _, rfl⟩
          | true => exact .inl ⟨rfl, rfl, rfl⟩

/-- The writer takes a frame when the platform does, and has begun its session then. -/
theorem Mp4Writer.append_cases (p : Platform) (w : Mp4Writer) (frame : EncodedFrame Picture) :
    p.writes (!w.input) = true ∧ (w.append p frame).2 = .ok () ∧
        (w.append p frame).1.input = true ∨
      p.writes (!w.input) = false ∧ ∃ message, (w.append p frame).2 = .error (.writer message) := by
  have hbegun : ∃ w' result, (if w.input then (w, .ok ()) else w.begin p frame) = (w', result) ∧
      ((!!w.input || p.mediaType && p.canAddInput && p.startWriting) = true ∧ result = .ok () ∧
          w'.input = true ∨
        (!!w.input || p.mediaType && p.canAddInput && p.startWriting) = false ∧
          ∃ message, result = .error (.writer message)) := by
    cases hinput : w.input with
    | true => exact ⟨w, .ok (), rfl, .inl ⟨rfl, rfl, hinput⟩⟩
    | false => exact ⟨_, _, rfl, w.begin_cases p frame⟩
  obtain ⟨w', result, hbegin, ⟨hbegins, rfl, hinput⟩ | ⟨hbegins, message, rfl⟩⟩ := hbegun
  · simp only [append, hbegin, Platform.writes, hbegins]
    cases p.ready with
    | false => exact .inr ⟨rfl, _, rfl⟩
    | true =>
        cases p.appendSampleBuffer with
        | false => exact .inr ⟨rfl, _, rfl⟩
        | true => exact .inl ⟨rfl, rfl, hinput⟩
  · simp only [append, hbegin, Platform.writes, hbegins]
    exact .inr ⟨rfl, message, rfl⟩

theorem Recorder.append_cases (p : Platform) (minFreeBytes : Nat) (w : Mp4Writer)
    (frame : EncodedFrame Picture) :
    (p.takes minFreeBytes (!w.input) = true ∧ ∃ w' : Mp4Writer, w'.input = true ∧
        append p ⟨.recording, minFreeBytes, some w⟩ frame =
          (⟨.recording, minFreeBytes, some w'⟩, [], .ok .recording)) ∨
      p.takes minFreeBytes (!w.input) = false ∧ ∃ reason,
        append p ⟨.recording, minFreeBytes, some w⟩ frame =
          (⟨.idle, minFreeBytes, none⟩, [.stopped w.path reason w.frames],
            .ok (.stopped reason)) := by
  have hlow : lowSpace p ⟨.recording, minFreeBytes, some w⟩ = !p.enough minFreeBytes := by
    unfold lowSpace Platform.enough
    cases p.availableBytes with
    | error e => rfl
    | ok n => rw [← decide_not, decide_eq_decide, Nat.not_le]
  unfold Platform.takes append
  rw [hlow]
  generalize p.enough minFreeBytes = enough
  cases enough with
  | false => exact .inr ⟨rfl, .diskFull, rfl⟩
  | true =>
      have heq := w.append_eq p frame
      have hcases := w.append_cases p frame
      simp only [Bool.not_true, Bool.false_eq_true, if_false, Bool.true_and]
      generalize w.append p frame = next at heq hcases ⊢
      obtain ⟨w', result⟩ := next
      rcases hcases with ⟨hwrites, hok, hinput⟩ | ⟨hwrites, message, herror⟩
      · obtain rfl : result = .ok () := hok
        exact .inl ⟨hwrites, w', hinput, rfl⟩
      · obtain rfl : result = .error (.writer message) := herror
        obtain ⟨hpath, ⟨-, hframes⟩ | ⟨hok, -⟩⟩ := heq
        · refine .inr ⟨hwrites, .writerFailed message, ?_⟩
          simp only [finish]
          rw [show w'.path = w.path from hpath, show w'.frames = w.frames from hframes]
        · cases hok

end Drift.Video
