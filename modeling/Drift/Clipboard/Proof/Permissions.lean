import Drift.Clipboard.Proof.Advertising

/-!
# What is written under a preference

A fetch that only wants what the preference in force allows ends in a write that the preference allows.
Every handler keeps such fetches, except a change of preference that leaves a fetch in progress alone.
-/

namespace Drift.Clipboard

/-! ### Kinds -/

theorem FormatKind.allowedBy_congr {kind kind' : FormatKind} (h : kind.isImage = kind'.isImage)
    (prefs : ClipboardPrefs) : kind.allowedBy prefs = kind'.allowedBy prefs := by
  cases prefs <;> simp [allowedBy, h]

theorem isImage_of_decodeInbound {images : ImageCodec} {kind : FormatKind} {data : Bytes}
    {item : ClipboardItem} (h : decodeInbound images kind data = .ok item) :
    item.kind.isImage = kind.isImage := by
  unfold decodeInbound at h
  cases hsize : checkSize data.length with
  | error e => simp [hsize, bind, Except.bind] at h
  | ok u =>
      simp only [hsize, bind, Except.bind] at h
      cases kind with
      | unicodeText => cases h; rfl
      | ansiText => cases h; rfl
      | tiff => cases h; rfl
      | png =>
          cases hpng : pngPassthrough data with
          | error e => simp [hpng, Functor.map, Except.map] at h
          | ok png => simp [hpng, Functor.map, Except.map] at h; subst h; rfl
      | dib =>
          cases hdib : dibToPng images data with
          | error e => simp [hdib, Functor.map, Except.map] at h
          | ok png => simp [hdib, Functor.map, Except.map] at h; subst h; rfl

theorem kind_of_mem_selectInbound {formats : List ClipFormat} {prefs : ClipboardPrefs}
    {f : ClipFormat} {k : FormatKind} (h : (f, k) ∈ selectInbound formats prefs) :
    f ∈ formats ∧ f.kind = some k ∧ k.allowedBy prefs := by
  obtain ⟨group, _, hgroup⟩ := List.mem_filterMap.mp h
  obtain ⟨kind, hkind, hfind⟩ := List.exists_of_findSome?_eq_some hgroup
  obtain ⟨format, hformat, heq⟩ := Option.map_eq_some_iff.mp hfind
  obtain ⟨rfl, rfl⟩ := Prod.mk.inj heq
  have hallowed := (List.mem_filter.mp hkind).2
  exact ⟨List.mem_of_find?_eq_some hformat, by simpa using List.find?_some hformat, hallowed⟩

namespace ClipboardSync

/-! ### Fetches -/

/-- The fetch in progress has, awaits and will request only what a preference allows. -/
structure Wanted (s : ClipboardSync) (prefs : ClipboardPrefs) : Prop where
  items : ∀ fetch, s.fetch = some fetch → ∀ item ∈ fetch.items, item.kind.allowedBy prefs
  queue : ∀ fetch, s.fetch = some fetch → ∀ next ∈ fetch.queue, next.2.allowedBy prefs
  inflight : ∀ fetch i, s.fetch = some fetch → s.inflight = some i → i.stale = false →
    i.kind.allowedBy prefs

theorem fetchesExcluded_eq_false_iff {s : ClipboardSync} {prefs : ClipboardPrefs} :
    s.fetchesExcluded prefs = false ↔ s.Wanted prefs := by
  unfold fetchesExcluded
  cases hfetch : s.fetch with
  | none => exact ⟨fun _ => ⟨by simp [hfetch], by simp [hfetch], by simp [hfetch]⟩, fun _ => rfl⟩
  | some fetch =>
      simp only [Option.any_some, Bool.or_eq_false_iff, List.any_eq_false, Bool.not_eq_true',
        Bool.not_eq_false]
      constructor
      · rintro ⟨⟨hitems, hqueue⟩, hinflight⟩
        refine ⟨?_, ?_, ?_⟩
        · rintro _ heq
          cases hfetch.symm.trans heq
          exact hitems
        · rintro _ heq
          cases hfetch.symm.trans heq
          exact hqueue
        · intro _ i _ hi hstale
          simpa [hi, hstale] using hinflight
      · intro h
        refine ⟨⟨h.items fetch hfetch, h.queue fetch hfetch⟩, ?_⟩
        cases hi : s.inflight with
        | none => rfl
        | some i => simpa using h.inflight fetch i hfetch hi

theorem wanted_of_fetch_eq_none {s : ClipboardSync} (h : s.fetch = none) (prefs : ClipboardPrefs) :
    s.Wanted prefs :=
  ⟨by simp [h], by simp [h], by simp [h]⟩

theorem Wanted.of_eq {s s' : ClipboardSync} {prefs : ClipboardPrefs} (h : s.Wanted prefs)
    (hfetch : s'.fetch = s.fetch) (hinflight : s'.inflight = s.inflight) : s'.Wanted prefs :=
  ⟨by rw [hfetch]; exact h.items, by rw [hfetch]; exact h.queue,
    by rw [hfetch, hinflight]; exact h.inflight⟩

/-- What a handler has to do under a preference. -/
structure Allowed (prefs : ClipboardPrefs) (r : Acting) : Prop where
  wanted : r.1.Wanted prefs
  writes : ∀ contents ∈ r.2.filterMap SyncAction.write?, InForce.Allows prefs contents

theorem allowed_of_no_write {prefs : ClipboardPrefs} {r : Acting} (h : r.1.Wanted prefs)
    (hwrites : r.2.filterMap SyncAction.write? = []) : Allowed prefs r :=
  ⟨h, by simp [hwrites]⟩

theorem nextFetchStep_allowed {s : ClipboardSync} {prefs : ClipboardPrefs} (h : s.Wanted prefs)
    (now : Instant) : Allowed prefs (s.nextFetchStep now) := by
  have hstep := s.nextFetchStep_step now
  generalize s.nextFetchStep now = r at hstep ⊢
  cases hstep with
  | idle hfetch => exact allowed_of_no_write h rfl
  | request fetch format kind queue hfetch hqueue =>
      have hnext := h.queue fetch hfetch
      rw [hqueue] at hnext
      refine allowed_of_no_write ⟨?_, ?_, ?_⟩ rfl
      · rintro _ ⟨⟩
        exact h.items fetch hfetch
      · rintro _ ⟨⟩ next hmem
        exact hnext next (List.mem_cons_of_mem _ hmem)
      · rintro _ _ ⟨⟩ ⟨⟩ _
        exact hnext _ List.mem_cons_self
  | drop fetch hfetch hqueue hdrop => exact allowed_of_no_write (wanted_of_fetch_eq_none rfl prefs) rfl
  | write fetch hfetch hqueue hnonempty hnewest =>
      refine ⟨wanted_of_fetch_eq_none rfl prefs, ?_⟩
      have hitems := h.items fetch hfetch
      obtain ⟨item, hitem⟩ := List.exists_mem_of_ne_nil _ hnonempty
      have hon : prefs ≠ .off := by
        rintro rfl
        exact absurd (hitems item hitem) (by simp [FormatKind.allowedBy])
      simpa [SyncAction.write?] using ⟨hon, hitems⟩

theorem writes_rejected (errors : List ClipError) :
    (errors.map SyncAction.rejected).filterMap SyncAction.write? = [] := by
  rw [List.filterMap_map]
  exact List.filterMap_eq_nil_iff.mpr fun _ _ => rfl

theorem writes_advertiseLocal (s : ClipboardSync) (now : Instant) :
    (s.advertiseLocal now).2.filterMap SyncAction.write? = [] := by
  rw [advertiseLocal_actions, List.filterMap_append, writes_rejected]
  rfl

theorem advertiseLocal_allowed (s : ClipboardSync) (prefs : ClipboardPrefs) (now : Instant) :
    Allowed prefs (s.advertiseLocal now) :=
  allowed_of_no_write (wanted_of_fetch_eq_none rfl prefs) (writes_advertiseLocal s now)

/-- A list that is accepted asks for what is allowed, and the request on the wire, if any, is stale. -/
theorem Wanted.announce (s : ClipboardSync) (formats : List ClipFormat) (now : Instant) :
    Wanted { s.supersedeFetch with fetch := some ⟨selectInbound formats s.prefs, [], now⟩ } s.prefs := by
  refine ⟨?_, ?_, ?_⟩
  · rintro _ ⟨⟩
    simp
  · rintro _ ⟨⟩ next hnext
    exact (kind_of_mem_selectInbound hnext).2.2
  · rintro _ i ⟨⟩ hi hfresh
    obtain ⟨j, -, rfl⟩ := Option.map_eq_some_iff.mp hi
    cases hfresh

theorem onRemoteList_allowed {s : ClipboardSync} (h : s.Wanted s.prefs) (formats : List ClipFormat)
    (now : Instant) : Allowed s.prefs (s.onRemoteList formats now) := by
  have hstep := s.onRemoteList_step formats now
  generalize s.onRemoteList formats now = r at hstep ⊢
  cases hstep with
  | ignore hignored => exact allowed_of_no_write h rfl
  | unwanted haccepted hqueue => exact allowed_of_no_write (wanted_of_fetch_eq_none rfl _) rfl
  | wait haccepted hqueue hinflight => exact allowed_of_no_write (Wanted.announce s formats now) rfl
  | begin haccepted hqueue hinflight => exact nextFetchStep_allowed (Wanted.announce s formats now) now

/-- An answer that is taken in is of the kind that was asked for. -/
theorem Wanted.takeAnswer {s : ClipboardSync} {prefs : ClipboardPrefs} (h : s.Wanted prefs)
    (images : ImageCodec) {i : Inflight} (hi : s.inflight = some i) (data : Option Bytes) :
    (s.takeAnswer images i data).Wanted prefs := by
  have hdone : Wanted { s with inflight := none } prefs := ⟨h.items, h.queue, by simp⟩
  unfold ClipboardSync.takeAnswer
  simp only
  split
  · exact hdone
  · next hfresh =>
      split
      · next item hitem =>
          have hkind : ∀ fetch, s.fetch = some fetch → item.kind.allowedBy prefs := by
            intro fetch hfetch
            have hallowed := h.inflight fetch i hfetch hi (by simpa using hfresh)
            cases data with
            | none => cases hitem
            | some data =>
                rw [FormatKind.allowedBy_congr (isImage_of_decodeInbound hitem)]
                exact hallowed
          refine ⟨?_, ?_, by simp [pushItem]⟩
          · intro fetch hfetch other hother
            obtain ⟨old, hold, rfl⟩ := Option.map_eq_some_iff.mp hfetch
            rcases List.mem_append.mp hother with hmem | hmem
            · exact h.items old hold other hmem
            · rw [List.mem_singleton.mp hmem]
              exact hkind old hold
          · intro fetch hfetch
            obtain ⟨old, hold, rfl⟩ := Option.map_eq_some_iff.mp hfetch
            exact h.queue old hold
      · exact hdone

theorem onRemoteData_allowed {images : ImageCodec} {s : ClipboardSync} {prefs : ClipboardPrefs}
    (h : s.Wanted prefs) (data : Option Bytes) (now : Instant) :
    Allowed prefs (s.onRemoteData images data now) := by
  cases hi : s.inflight with
  | none =>
      rw [onRemoteData, hi]
      exact allowed_of_no_write h rfl
  | some i =>
      obtain ⟨rejected, heq⟩ := onRemoteData_eq images hi data now
      obtain ⟨hwanted, hwrites⟩ := nextFetchStep_allowed (h.takeAnswer images hi data) now
      rw [heq]
      refine ⟨hwanted, ?_⟩
      rw [List.filterMap_append, writes_rejected]
      exact hwrites

theorem LocalStep.allowed {s : ClipboardSync} {prefs : ClipboardPrefs} {now : Instant} {r : Acting}
    (h : s.Wanted prefs) (hstep : LocalStep s now r) : Allowed prefs r := by
  cases hstep with
  | keep s' hfetch hinflight hadvertised => exact allowed_of_no_write (h.of_eq hfetch hinflight) rfl
  | clear s' hfetch hinflight hadvertised => exact allowed_of_no_write (h.of_eq hfetch hinflight) rfl
  | turnOff s' hfetch hinflight => exact allowed_of_no_write (wanted_of_fetch_eq_none rfl prefs) rfl
  | advertise s' hfetch hinflight => exact advertiseLocal_allowed s' prefs now

theorem onPrefs_allowed {s : ClipboardSync} {prefs : ClipboardPrefs} (h : s.Wanted s.prefs)
    (hkeeps : s.keepsExcluded (.prefs prefs) = false) (now : Instant) :
    Allowed prefs (s.onPrefs prefs now) := by
  unfold onPrefs
  split
  · next hsame => exact allowed_of_no_write (hsame ▸ h) rfl
  · next hchange =>
      have hwanted : s.keepsFetch prefs = true → s.Wanted prefs := by
        intro hkept
        refine fetchesExcluded_eq_false_iff.mp ?_
        simpa [keepsExcluded, hchange, hkept] using hkeeps
      unfold keepsFetch at hwanted
      simp only
      split
      · next haway =>
          exact allowed_of_no_write ((hwanted (by simp [haway])).of_eq rfl rfl) rfl
      · split
        · exact allowed_of_no_write (wanted_of_fetch_eq_none rfl prefs) rfl
        · next hon =>
            split
            · exact advertiseLocal_allowed _ prefs now
            · next hnone =>
                have hnone' : s.local'.isNone = true := by simpa using hnone
                exact allowed_of_no_write ((hwanted (by simp [hon, hnone'])).of_eq rfl rfl) rfl

theorem prefs_handle (images : ImageCodec) (s : ClipboardSync) (now : Instant) (input : SyncInput) :
    (s.handle images now input).1.prefs =
      InForce.observe s.prefs ⟨now, s, input, (s.handle images now input).2⟩ := by
  cases input with
  | initialFormatListRequested =>
      simp only [handle, onInitialRequest, InForce.observe]
      split <;> rfl
  | remoteFormatList formats => rw [handle, (s.onRemoteList_fetches formats now).state]; rfl
  | remoteData data => rw [handle, (onRemoteData_fetches images s data now).state]; rfl
  | remoteDataRequest formatId => rfl
  | localChanged changeCount contents =>
      simp only [handle, onLocalChange, InForce.observe]
      split_ifs <;> rfl
  | localWritten changeCount => rfl
  | focus focused =>
      simp only [handle, InForce.observe]
      split <;> rfl
  | prefs prefs =>
      simp only [handle, onPrefs, InForce.observe]
      split_ifs with hsame
      · exact hsame.symm
      · rfl
      · rfl
      · rfl
      · rfl
  | tick =>
      simp only [handle, onTick, InForce.observe]
      split <;> rfl

theorem handle_allowed {images : ImageCodec} {s : ClipboardSync} {input : SyncInput}
    (h : s.Wanted s.prefs) (hkeeps : s.keepsExcluded input = false) (now : Instant) :
    Allowed (s.handle images now input).1.prefs (s.handle images now input) := by
  rw [prefs_handle]
  cases input with
  | remoteFormatList formats => exact onRemoteList_allowed h formats now
  | remoteData data => exact onRemoteData_allowed h data now
  | remoteDataRequest formatId => exact allowed_of_no_write h rfl
  | prefs prefs => exact onPrefs_allowed h hkeeps now
  | tick =>
      simp only [handle, onTick]
      split
      · exact allowed_of_no_write (wanted_of_fetch_eq_none rfl _) rfl
      · exact allowed_of_no_write h rfl
  | _ => exact (handle_local images s now rfl).allowed h

end ClipboardSync

namespace InForce

open ClipboardSync

/-- **No write of what the preference excludes.** In a run in which no change of preference keeps a
fetch of something it excludes, everything that is written to the pasteboard is allowed by the
preference in force at that moment. -/
theorem permitted_history (images : ImageCodec) (prefs : ClipboardPrefs) (focused : Bool)
    (es : List Timed)
    (hes : Transition.Along (Clocked.step images) observe
      (fun c _ e => c.sync.keepsExcluded e.input = false) (.start prefs focused) prefs es) :
    Transition.Holds observe Permitted prefs (Clocked.history images prefs focused es).2 := by
  let R := fun (c : Clocked) (m : ClipboardPrefs) => c.sync.prefs = m ∧ c.sync.Wanted c.sync.prefs
  have hstart : R (.start prefs focused) prefs := ⟨rfl, wanted_of_fetch_eq_none rfl prefs⟩
  refine (Transition.run_holds R ?_ hstart hes).1
  rintro c _ e ⟨rfl, hwanted⟩ hkeeps
  obtain ⟨hnext, hwrites⟩ := handle_allowed hwanted hkeeps (c.now + e.elapsed)
  rw [prefs_handle] at hwrites
  exact ⟨⟨hwrites, trivial⟩, prefs_handle .., hnext⟩

/-- A text is fetched after the preference was narrowed to text in the middle of another fetch. -/
theorem permitted_history_narrowed :
    Transition.Holds observe Permitted .textAndImages
      (Clocked.history sampleImages .textAndImages true
        [⟨0, .initialFormatListRequested⟩, ⟨0, .localChanged 1 ⟨[.text "a"]⟩⟩,
          ⟨1, .remoteFormatList [.standard cfTiff]⟩, ⟨0, .prefs .text⟩, ⟨1, .remoteData (some [1])⟩,
          ⟨1, .remoteFormatList [.standard cfUnicodeText, .standard cfTiff]⟩,
          ⟨1, .remoteData (some [98, 0, 0, 0])⟩]).2 :=
  permitted_history sampleImages .textAndImages true _ (by decide)

/-- A preference that is narrowed or turned off during a fetch, without anything local to advertise or
without the focus, lets the image through. -/
theorem not_permitted_narrowed :
    ¬ Transition.Holds observe Permitted .textAndImages
      (Clocked.history sampleImages .textAndImages true
        [⟨0, .initialFormatListRequested⟩, ⟨1, .remoteFormatList [.standard cfTiff]⟩,
          ⟨1, .prefs .text⟩, ⟨1, .remoteData (some [1])⟩]).2 ∧
    ¬ Transition.Holds observe Permitted .textAndImages
      (Clocked.history sampleImages .textAndImages true
        [⟨0, .initialFormatListRequested⟩, ⟨1, .remoteFormatList [.standard cfTiff]⟩,
          ⟨1, .focus false⟩, ⟨1, .prefs .off⟩, ⟨1, .remoteData (some [1])⟩]).2 := by
  decide

end InForce

end Drift.Clipboard
