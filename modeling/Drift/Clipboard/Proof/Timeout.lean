import Drift.Clipboard.Proof.Exchange

/-!
# Fetches and their timeout

One timeout serves the request of the fetch in progress and a superseded one that the fetch waits behind.
`Awaits` ties the request on the wire to what an observer of the calls is waiting for; with it, the ticks
that give up a fetch before its time are those that find a superseded request overdue.
-/

namespace Drift.Clipboard

open ClipboardSync Waiting

variable {images : ImageCodec} {s s' : ClipboardSync} {m : Option Waiting} {now : Instant}

namespace Waiting

theorem foldl_act_of_plain {actions : List SyncAction} (h : ∀ action ∈ actions, action.request? = none) :
    actions.foldl (act now) m = m := by
  refine Transition.foldl_eq_self fun action haction => ?_
  have hrequest := h action haction
  cases action with
  | requestRemoteData format => exact nomatch hrequest
  | _ => rfl

end Waiting

namespace ClipboardSync

/-- The request on the wire is the one that is awaited, and marked stale when the fetch waits behind it. -/
structure Awaits (s : ClipboardSync) (m : Option Waiting) : Prop where
  since : m.map Waiting.since = s.inflight.map Inflight.since
  own : s.fetch.isSome → m.map Waiting.own = s.inflight.map fun i => !i.stale

theorem Awaits.of_eq (h : s.Awaits m) (hfetch : s'.fetch = s.fetch) (hinflight : s'.inflight = s.inflight) :
    s'.Awaits m := by
  constructor
  · rw [hinflight]
    exact h.since
  · rw [hfetch, hinflight]
    exact h.own

theorem Awaits.supersede (h : s.Awaits m) : s.supersedeFetch.Awaits m := by
  constructor
  · rw [h.since]
    simp [supersedeFetch, Function.comp_def]
  · exact fun hfetch => by cases hfetch

/-- Once a list is accepted, the request on the wire is not the fetch's own. -/
theorem Awaits.accept (h : s.Awaits m) (fetch : Option RemoteFetch) :
    Awaits { s.supersedeFetch with fetch := fetch } (m.map fun w => { w with own := false }) := by
  constructor
  · rw [Option.map_map, ← h.supersede.since]
    rfl
  · intro _
    have hlength : m.isSome = s.inflight.isSome := by
      simpa using congrArg Option.isSome h.since
    cases m with
    | none =>
        have hnone : s.inflight = none := by simpa using hlength.symm
        simp [supersedeFetch, hnone]
    | some w =>
        obtain ⟨i, hi⟩ := Option.isSome_iff_exists.mp hlength.symm
        simp [supersedeFetch, hi]

theorem awaits_of_plain {r : Acting} (h : r.1.Awaits m)
    (hplain : ∀ action ∈ r.2, action.request? = none) : r.1.Awaits (r.2.foldl (act now) m) := by
  rw [foldl_act_of_plain hplain]
  exact h

theorem advertiseLocal_awaits (h : s.Awaits m) :
    (s.advertiseLocal now).1.Awaits ((s.advertiseLocal now).2.foldl (act now) m) :=
  awaits_of_plain (h.supersede.of_eq rfl rfl) fun action haction =>
    (advertiseLocal_plain s now action haction).1

theorem nextFetchStep_awaits (h : s.Awaits m) (hidle : s.inflight = none) :
    (s.nextFetchStep now).1.Awaits ((s.nextFetchStep now).2.foldl (act now) m) := by
  have hnone : m = none := by simpa [hidle] using h.since
  have hstep := s.nextFetchStep_step now
  generalize s.nextFetchStep now = r at hstep ⊢
  cases hstep with
  | idle hfetch => exact h
  | request fetch format kind queue hfetch hqueue => exact ⟨rfl, fun _ => rfl⟩
  | drop fetch hfetch hqueue hdrop => exact ⟨h.since, fun hfetch => nomatch hfetch⟩
  | write fetch hfetch hqueue hitems hnewest => exact ⟨h.since, fun hfetch => nomatch hfetch⟩

theorem onRemoteList_awaits (h : s.Awaits m) (formats : List ClipFormat) :
    (s.onRemoteList formats now).1.Awaits ((s.onRemoteList formats now).2.foldl (act now)
      (take m s now (.remoteFormatList formats))) := by
  have hstep := s.onRemoteList_step formats now
  generalize s.onRemoteList formats now = r at hstep ⊢
  cases hstep with
  | ignore hignored =>
      rw [take, hignored]
      exact h
  | unwanted haccepted hqueue =>
      rw [take, haccepted, if_pos rfl]
      exact h.accept none
  | wait haccepted hqueue hinflight =>
      rw [take, haccepted, if_pos rfl]
      exact h.accept _
  | begin haccepted hqueue hinflight =>
      rw [take, haccepted, if_pos rfl]
      exact nextFetchStep_awaits (h.accept _) (by simp [supersedeFetch, hinflight])

theorem onRemoteData_awaits (images : ImageCodec) (h : s.Awaits m) (data : Option Bytes) :
    (s.onRemoteData images data now).1.Awaits
      ((s.onRemoteData images data now).2.foldl (act now) none) := by
  cases hi : s.inflight with
  | none =>
      have hnone : m = none := by simpa [hi] using h.since
      rw [onRemoteData, hi]
      exact hnone ▸ h
  | some i =>
      obtain ⟨rejected, heq⟩ := onRemoteData_eq images hi data now
      have hidle : (s.takeAnswer images i data).inflight = none := takeAnswer_inflight i data
      have hawaits : (s.takeAnswer images i data).Awaits none := by
        constructor
        · rw [hidle]
          rfl
        · intro _
          rw [hidle]
          rfl
      have hplain : ∀ action ∈ rejected.map SyncAction.rejected, action.request? = none := by
        intro action haction
        obtain ⟨e, -, rfl⟩ := List.mem_map.mp haction
        rfl
      rw [heq, List.foldl_append, foldl_act_of_plain hplain]
      exact nextFetchStep_awaits hawaits hidle

theorem any_overdue (h : s.Awaits m) (now : Instant) :
    (s.inflight.any fun i => fetchTimeout ≤ now - i.since) = m.any fun w => decide (w.Overdue now) := by
  have hany := congrArg (Option.any fun since => decide (fetchTimeout ≤ now - since)) h.since
  rw [Option.any_map, Option.any_map] at hany
  exact hany.symm

theorem onTick_awaits (h : s.Awaits m) : (s.onTick now).Awaits (take m s now .tick) := by
  unfold onTick
  rw [any_overdue h, take]
  cases m with
  | none => exact h
  | some w =>
      rw [Option.any_some]
      split
      · next hlate =>
          rw [Option.filter_some, if_neg (by simpa using hlate)]
          exact ⟨rfl, fun hfetch => nomatch hfetch⟩
      · next hearly =>
          rw [Option.filter_some, if_pos (by simpa using hearly)]
          exact h

theorem LocalStep.awaits {r : Acting} (hstep : LocalStep s now r) (h : s.Awaits m) :
    r.1.Awaits (r.2.foldl (act now) m) := by
  cases hstep with
  | keep s' hfetch hinflight hadvertised => exact h.of_eq hfetch hinflight
  | clear s' hfetch hinflight hadvertised => exact h.of_eq hfetch hinflight
  | turnOff s' hfetch hinflight => exact (h.of_eq hfetch hinflight).supersede.of_eq rfl rfl
  | advertise s' hfetch hinflight => exact advertiseLocal_awaits (h.of_eq hfetch hinflight)

theorem handle_awaits (images : ImageCodec) (h : s.Awaits m) (input : SyncInput) :
    (s.handle images now input).1.Awaits
      ((s.handle images now input).2.foldl (act now) (take m s now input)) := by
  cases input with
  | remoteFormatList formats => exact onRemoteList_awaits h formats
  | remoteData data => exact onRemoteData_awaits images h data
  | remoteDataRequest formatId => exact h
  | tick => exact onTick_awaits h
  | _ => exact (handle_local images s now rfl).awaits h

/-! ### Ticks -/

/-- What a tick does to a fetch that is there, in terms of what is awaited. -/
theorem dropsQueued_tick_iff (h : s.Awaits m) {fetch : RemoteFetch} (hfetch : s.fetch = some fetch) :
    s.dropsQueued now .tick = true ↔ ∃ w ∈ m, w.own = false ∧ w.Overdue now := by
  have hsince := h.since
  have hown := h.own (by rw [hfetch]; rfl)
  simp only [dropsQueued, hfetch, Option.isSome_some, Bool.true_and]
  cases hi : s.inflight with
  | none =>
      have hnone : m = none := by simpa [hi] using hsince
      simp [hnone]
  | some i =>
      rw [hi] at hsince hown
      obtain ⟨w, rfl, hw⟩ := Option.map_eq_some_iff.mp hsince
      have hstale : w.own = !i.stale := Option.some.inj hown
      simp [hstale, Overdue, hw]

/-- A tick that gives up a fetch finds the request on the wire overdue. -/
theorem overdue_of_onTick (h : s.Awaits m) {fetch : RemoteFetch} (hfetch : s.fetch = some fetch)
    (hgone : (s.onTick now).fetch = none) : ∃ w ∈ m, w.Overdue now := by
  unfold onTick at hgone
  rw [any_overdue h] at hgone
  split at hgone
  · next hlate => simpa [Option.any_eq_true] using hlate
  · exact nomatch hfetch.symm.trans hgone

end ClipboardSync

namespace Waiting

/-- A tick is patient exactly when it does not find a superseded request overdue that a fetch waits behind. -/
theorem patient_iff {c : Clocked} {e : Timed} (h : c.sync.Awaits m) :
    Patient m ⟨c, e, (c.step images e).2, (c.step images e).1⟩ ↔
      c.sync.dropsQueued (c.now + e.elapsed) e.input = false := by
  by_cases htick : e.input = .tick
  · have hafter : (c.step images e).1 = ⟨c.now + e.elapsed, c.sync.onTick (c.now + e.elapsed)⟩ := by
      rw [Clocked.step, htick]
      rfl
    have hactions : (c.step images e).2.flatMap Call.actions = [] := by
      rw [Clocked.step, htick]
      rfl
    rw [Patient, hafter, hactions, htick]
    cases hfetch : c.sync.fetch with
    | none =>
        have hkeeps : c.sync.dropsQueued (c.now + e.elapsed) .tick = false := by
          simp [dropsQueued, hfetch]
        exact iff_of_true (fun _ fetch hmem => by cases hmem) hkeeps
    | some fetch =>
        constructor
        · intro hpatient
          obtain ⟨-, hsent⟩ := hpatient rfl fetch rfl
          by_contra hdrops
          obtain ⟨w, hw, hother, hdue⟩ :=
            (dropsQueued_tick_iff h hfetch).mp (Bool.eq_true_of_not_eq_false hdrops)
          obtain ⟨next, -, hnext⟩ := hsent w hw hother hdue
          cases hnext
        · intro hkeeps _ fetch' hmem
          have hown : ∀ w ∈ m, w.Overdue (c.now + e.elapsed) → w.own = true := by
            intro w hw hdue
            by_contra hother
            have hdrops := (dropsQueued_tick_iff h hfetch).mpr
              ⟨w, hw, Bool.eq_false_of_not_eq_true hother, hdue⟩
            exact absurd (hkeeps.symm.trans hdrops) Bool.false_ne_true
          constructor
          · intro hgone
            obtain ⟨w, hw, hdue⟩ := overdue_of_onTick h hfetch hgone
            exact ⟨w, hw, hown w hw hdue, hdue⟩
          · intro w hw hother hdue
            exact absurd (hother.symm.trans (hown w hw hdue)) Bool.false_ne_true
  · refine iff_of_true (fun hinput => absurd hinput htick) ?_
    unfold dropsQueued
    split
    · next hinput => exact absurd hinput htick
    · rfl

open Transition

/-- **Ticks are patient**, exactly in the runs in which no tick finds a superseded request overdue while a
fetch waits behind it: a fetch is given up only when its own request has been outstanding for the whole
timeout, and the first request of one that waits behind an overdue request is sent. -/
theorem patient_history_iff (images : ImageCodec) (prefs : ClipboardPrefs) (focused : Bool)
    (es : List Timed) :
    Holds observe Patient none (run (recorded (Clocked.step images)) (.start prefs focused) es).2 ↔
      Along (recorded (Clocked.step images)) observe
        (fun c _ e => c.sync.dropsQueued (c.now + e.elapsed) e.input = false) (.start prefs focused) none
        es := by
  have hstart : (Clocked.start prefs focused).sync.Awaits none := ⟨rfl, fun _ => rfl⟩
  refine run_holds_iff (fun (c : Clocked) m => c.sync.Awaits m) ?_ hstart es
  intro c m e h
  constructor
  · calc
      Holds observe Patient m (recorded (Clocked.step images) c e).2
      _ ↔ Patient m ⟨c, e, (c.step images e).2, (c.step images e).1⟩ := by simp [recorded]
      _ ↔ _ := patient_iff h
  · exact fun _ => handle_awaits images h e.input

/-- An image is announced while the request for a text is unanswered; the tick that finds this request
overdue drops the image, which was announced two seconds before. -/
theorem not_patient_superseded :
    ¬ Holds observe Patient none
      (run (recorded (Clocked.step sampleImages)) (.start .textAndImages true)
        [⟨0, .initialFormatListRequested⟩, ⟨.fromSecs 1, .remoteFormatList [.standard cfText]⟩,
          ⟨.fromSecs 3, .remoteFormatList [.standard cfTiff]⟩, ⟨.fromSecs 2, .tick⟩]).2 := by
  decide

end Waiting

end Drift.Clipboard
