import Drift.Clipboard.Proof.Steps

/-!
# What is advertised, and when

The handlers of remote clipboards move the fetch only and advertise nothing; the others advertise what
is local. A new state advertises nothing before the server has asked, a gain of focus apart.
-/

namespace Drift.Clipboard

namespace ClipboardSync

/-! ### Handlers of remote clipboards -/

/-- The handler moves the fetch, the request on the wire and the write that is not acknowledged, and
sends no format list. -/
structure Fetches (s : ClipboardSync) (r : Acting) : Prop where
  state : r.1 =
    { s with fetch := r.1.fetch, inflight := r.1.inflight, unackedWrite := r.1.unackedWrite }
  silent : r.2.filterMap SyncAction.formatList? = []

theorem Fetches.of_eq {s s' : ClipboardSync} {r : Acting} (h : Fetches s' r)
    (hs : s' = { s with fetch := s'.fetch, inflight := s'.inflight, unackedWrite := s'.unackedWrite }) :
    Fetches s r := by
  refine ⟨?_, h.silent⟩
  rw [h.state, hs]

theorem fetches_self (s : ClipboardSync) : Fetches s (s, []) := ⟨rfl, rfl⟩

theorem nextFetchStep_fetches (s : ClipboardSync) (now : Instant) :
    Fetches s (s.nextFetchStep now) := by
  have hstep := s.nextFetchStep_step now
  generalize s.nextFetchStep now = r at hstep ⊢
  cases hstep with
  | idle hfetch => exact fetches_self s
  | request fetch format kind queue hfetch hqueue => exact ⟨rfl, rfl⟩
  | drop fetch hfetch hqueue hdrop => exact ⟨rfl, rfl⟩
  | write fetch hfetch hqueue hitems hnewest => exact ⟨rfl, rfl⟩

theorem onRemoteList_fetches (s : ClipboardSync) (formats : List ClipFormat) (now : Instant) :
    Fetches s (s.onRemoteList formats now) := by
  have hstep := s.onRemoteList_step formats now
  generalize s.onRemoteList formats now = r at hstep ⊢
  cases hstep with
  | ignore hignored => exact fetches_self s
  | unwanted haccepted hqueue => exact ⟨rfl, rfl⟩
  | wait haccepted hqueue hinflight => exact ⟨rfl, rfl⟩
  | begin haccepted hqueue hinflight => exact (nextFetchStep_fetches _ now).of_eq rfl

theorem formatLists_rejected (errors : List ClipError) :
    (errors.map SyncAction.rejected).filterMap SyncAction.formatList? = [] := by
  rw [List.filterMap_map]
  exact List.filterMap_eq_nil_iff.mpr fun _ _ => rfl

theorem takeAnswer_state (images : ImageCodec) (s : ClipboardSync) (i : Inflight) (data : Option Bytes) :
    s.takeAnswer images i data =
      { s with fetch := (s.takeAnswer images i data).fetch, inflight := none } := by
  unfold takeAnswer
  simp only
  split
  · rfl
  · split <;> rfl

theorem onRemoteData_fetches (images : ImageCodec) (s : ClipboardSync) (data : Option Bytes)
    (now : Instant) : Fetches s (s.onRemoteData images data now) := by
  cases hi : s.inflight with
  | none =>
      rw [onRemoteData, hi]
      exact fetches_self s
  | some i =>
      obtain ⟨rejected, heq⟩ := onRemoteData_eq images hi data now
      have hnext := nextFetchStep_fetches (s.takeAnswer images i data) now
      rw [heq]
      refine ⟨?_, ?_⟩
      · rw [hnext.state, takeAnswer_state]
      · rw [List.filterMap_append, formatLists_rejected, hnext.silent, List.append_nil]

/-! ### Handlers of local clipboards -/

theorem formatLists_advertiseLocal (s : ClipboardSync) (now : Instant) :
    (s.advertiseLocal now).2.filterMap SyncAction.formatList? = [s.localFormats] := by
  rw [advertiseLocal_actions, List.filterMap_append, formatLists_rejected]
  rfl

/-- What `onLocalChange` advertises of a change that was not seen before. -/
theorem formatLists_onLocalChange {s : ClipboardSync} {changeCount : Int}
    (hnew : s.lastLocalChangeCount ≠ some changeCount) (contents : ClipboardContents)
    (now : Instant) :
    (s.onLocalChange changeCount contents now).2.filterMap SyncAction.formatList? =
      if s.canSync && !s.isOwn changeCount contents then
        [outboundFormats (filterLocal contents s.prefs).1 s.prefs] else [] := by
  have hsync : ∀ own : Bool, s.prefs = .off → (s.canSync && own) = false := by
    intro own hoff
    simp [canSync, hoff]
  unfold onLocalChange
  rw [if_neg hnew]
  simp only
  split
  · next hown => simp [hown]
  · next hown =>
      split
      · next hoff => simp [hsync _ hoff]
      · split
        · next haway =>
            have haway' : (!s.canSync) = true := haway
            simp [(Bool.not_eq_true' _).mp haway']
        · next hon =>
            have hon' : ¬ (!s.canSync) = true := hon
            rw [formatLists_advertiseLocal]
            simp only [Bool.not_eq_true', Bool.not_eq_false] at hon'
            simp [hon', hown, localFormats]

theorem onLocalChange_frame (s : ClipboardSync) (changeCount : Int) (contents : ClipboardContents)
    (now : Instant) :
    let s' := (s.onLocalChange changeCount contents now).1
    s'.ready = s.ready ∧ s'.prefs = s.prefs ∧ s'.ownWrites = s.ownWrites ∧
      s'.lastLocalChangeCount = some changeCount := by
  unfold onLocalChange
  split
  · next hseen => exact ⟨rfl, rfl, rfl, hseen⟩
  · simp only
    split_ifs <;> exact ⟨rfl, rfl, rfl, rfl⟩

/-- What the inputs that are neither local changes, nor acknowledged writes, nor preferences keep. -/
theorem handle_frame (images : ImageCodec) (s : ClipboardSync) (now : Instant) {input : SyncInput}
    (hchanged : ∀ changeCount contents, input ≠ .localChanged changeCount contents)
    (hwritten : ∀ changeCount, input ≠ .localWritten changeCount)
    (hprefs : ∀ prefs, input ≠ .prefs prefs) :
    let s' := (s.handle images now input).1
    s'.prefs = s.prefs ∧ s'.ownWrites = s.ownWrites ∧
      s'.lastLocalChangeCount = s.lastLocalChangeCount ∧ s'.local' = s.local' := by
  cases input with
  | initialFormatListRequested =>
      simp only [handle, onInitialRequest]
      split <;> exact ⟨rfl, rfl, rfl, rfl⟩
  | remoteFormatList formats =>
      simp only [handle]
      rw [(s.onRemoteList_fetches formats now).state]
      exact ⟨rfl, rfl, rfl, rfl⟩
  | remoteData data =>
      simp only [handle]
      rw [(onRemoteData_fetches images s data now).state]
      exact ⟨rfl, rfl, rfl, rfl⟩
  | remoteDataRequest formatId => exact ⟨rfl, rfl, rfl, rfl⟩
  | localChanged changeCount contents => exact absurd rfl (hchanged changeCount contents)
  | localWritten changeCount => exact absurd rfl (hwritten changeCount)
  | focus focused =>
      simp only [handle]
      split <;> exact ⟨rfl, rfl, rfl, rfl⟩
  | prefs prefs => exact absurd rfl (hprefs prefs)
  | tick =>
      simp only [handle, onTick]
      split <;> exact ⟨rfl, rfl, rfl, rfl⟩

theorem onLocalChange_of_not_ready {s : ClipboardSync} (h : s.ready = false) (changeCount : Int)
    (contents : ClipboardContents) (now : Instant) :
    (s.onLocalChange changeCount contents now).2 = [] ∧
      (s.onLocalChange changeCount contents now).1.ready = false := by
  refine ⟨?_, (s.onLocalChange_frame changeCount contents now).1.trans h⟩
  unfold onLocalChange
  split_ifs
  · rfl
  · simp only
    split_ifs
    · rfl
    · rfl
    · rfl
    · next hsync => simp [canSync, h] at hsync

theorem onPrefs_of_not_ready {s : ClipboardSync} (h : s.ready = false) (prefs : ClipboardPrefs)
    (now : Instant) :
    (s.onPrefs prefs now).2 = [] ∧ (s.onPrefs prefs now).1.ready = false := by
  unfold onPrefs
  split
  · exact ⟨rfl, h⟩
  · simp [h]

end ClipboardSync

/-! ### Before the server has asked -/

namespace Asked

open ClipboardSync

theorem handle_of_not_ready (images : ImageCodec) {s : ClipboardSync} (now : Instant)
    {input : SyncInput} (h : s.ready = false) (hinput : input ≠ .initialFormatListRequested) :
    ((s.handle images now input).2.filterMap SyncAction.formatList? = [] ↔
        s.advertisesEarly input = false) ∧
      (s.handle images now input).1.ready = false := by
  cases input with
  | initialFormatListRequested => exact absurd rfl hinput
  | remoteFormatList formats =>
      obtain ⟨hstate, hsilent⟩ := s.onRemoteList_fetches formats now
      exact ⟨by simp [handle, hsilent, advertisesEarly], by rw [handle, hstate]; exact h⟩
  | remoteData data =>
      obtain ⟨hstate, hsilent⟩ := onRemoteData_fetches images s data now
      exact ⟨by simp [handle, hsilent, advertisesEarly], by rw [handle, hstate]; exact h⟩
  | remoteDataRequest formatId => exact ⟨by simp [handle, onDataRequest, advertisesEarly,
      SyncAction.formatList?], h⟩
  | localChanged changeCount contents =>
      obtain ⟨hactions, hready⟩ := onLocalChange_of_not_ready h changeCount contents now
      exact ⟨by simp [handle, hactions, advertisesEarly], hready⟩
  | localWritten changeCount => exact ⟨by simp [handle, advertisesEarly], h⟩
  | focus focused =>
      cases hfocus : focused && s.pendingLocal with
      | true =>
          simp only [handle, advertisesEarly, hfocus, h, if_true]
          refine ⟨?_, rfl⟩
          rw [formatLists_advertiseLocal]
          simp
      | false =>
          simp only [handle, advertisesEarly, hfocus]
          exact ⟨by simp, h⟩
  | prefs prefs =>
      obtain ⟨hactions, hready⟩ := onPrefs_of_not_ready h prefs now
      exact ⟨by simp [handle, hactions, advertisesEarly], hready⟩
  | tick =>
      refine ⟨by simp [handle, advertisesEarly], ?_⟩
      simp only [handle, onTick]
      split <;> exact h

theorem ready_handle {images : ImageCodec} {s : ClipboardSync} {now : Instant} {input : SyncInput}
    (h : s.ready = true) : (s.handle images now input).1.ready = true := by
  cases input with
  | initialFormatListRequested =>
      simp only [handle, onInitialRequest]
      split <;> rfl
  | remoteFormatList formats => rw [handle, (s.onRemoteList_fetches formats now).state]; exact h
  | remoteData data => rw [handle, (onRemoteData_fetches images s data now).state]; exact h
  | remoteDataRequest formatId => exact h
  | localChanged changeCount contents =>
      simp only [handle, onLocalChange]
      split_ifs
      · exact h
      · exact h
      · exact h
      · exact h
      · exact h
  | localWritten changeCount => exact h
  | focus focused =>
      simp only [handle]
      split <;> exact h
  | prefs prefs =>
      simp only [handle, onPrefs]
      split_ifs <;> exact h
  | tick =>
      simp only [handle, onTick]
      split <;> exact h

theorem step {images : ImageCodec} (c : Clocked) (m : Bool) (e : Timed) (h : c.sync.ready = m) :
    (Transition.Holds observe Quiet m (c.step images e).2 ↔ c.sync.advertisesEarly e.input = false) ∧
      (c.step images e).1.sync.ready = (c.step images e).2.foldl observe m := by
  have hholds : Transition.Holds observe Quiet m (c.step images e).2 ↔
      Quiet m ⟨c.now + e.elapsed, c.sync, e.input,
        (c.sync.handle images (c.now + e.elapsed) e.input).2⟩ := by
    simp [Clocked.step]
  rw [hholds]
  cases m with
  | true =>
      refine ⟨⟨fun _ => ?_, fun _ => by simp [Quiet, observe]⟩, ready_handle h⟩
      cases hinput : e.input <;> simp [advertisesEarly, h]
  | false =>
      by_cases hinput : e.input = .initialFormatListRequested
      · refine ⟨by simp [hinput, Quiet, observe, advertisesEarly], ?_⟩
        simp only [Clocked.step, hinput, handle, onInitialRequest]
        split <;> rfl
      · obtain ⟨hquiet, hready⟩ := handle_of_not_ready images (c.now + e.elapsed) h hinput
        have hobserve : observe false ⟨c.now + e.elapsed, c.sync, e.input,
            (c.sync.handle images (c.now + e.elapsed) e.input).2⟩ = false := by
          simp [observe]
        refine ⟨?_, hready.trans hobserve.symm⟩
        rw [Quiet, ← hquiet]
        exact ⟨fun hall => hall hobserve, fun hnone _ => hnone⟩

/-- **Nothing is advertised before the server asks**, in exactly the runs in which no gain of focus
finds a local change that waits for a channel that is not ready. -/
theorem quiet_history_iff (images : ImageCodec) (prefs : ClipboardPrefs) (focused : Bool)
    (es : List Timed) :
    Transition.Holds observe Quiet false (Clocked.history images prefs focused es).2 ↔
      Transition.Along (Clocked.step images) observe
        (fun c _ e => c.sync.advertisesEarly e.input = false) (.start prefs focused) false es :=
  Transition.run_holds_iff (fun c m => c.sync.ready = m)
    (fun c m e h => ⟨(step c m e h).1, fun _ => (step c m e h).2⟩) rfl es

/-- A focused session that gets its focus again after an early local copy. -/
theorem not_quiet_focused :
    ¬ Transition.Holds observe Quiet false (Clocked.history sampleImages .text true
      [⟨0, .localChanged 1 ⟨[.text "a"]⟩⟩, ⟨0, .focus true⟩]).2 := by
  decide

end Asked

end Drift.Clipboard
