import Drift.Clipboard.History

/-!
# What the handlers can do

One inversion for each kind of input: a step of a fetch, a remote list, an answer, and everything local.
What a handler keeps and what it sends is read off these.
-/

namespace Drift.Clipboard

/-- The inputs that are about the local pasteboard and the user, and the request for the initial list. -/
def SyncInput.isLocal : SyncInput → Bool
  | remoteFormatList _ | remoteData _ | remoteDataRequest _ | tick => false
  | _ => true

namespace ClipboardSync

variable {images : ImageCodec} {s : ClipboardSync}

/-! ### One step of a fetch -/

/-- What `nextFetchStep` can do. -/
inductive FetchStep (s : ClipboardSync) (now : Instant) : Acting → Prop where
  | idle (hfetch : s.fetch = none) : FetchStep s now (s, [])
  | request (fetch : RemoteFetch) (format : ClipFormat) (kind : FormatKind)
      (queue : List (ClipFormat × FormatKind)) (hfetch : s.fetch = some fetch)
      (hqueue : fetch.queue = (format, kind) :: queue) :
      FetchStep s now
        ({ s with
            fetch := some { fetch with queue := queue }
            inflight := some ⟨kind, now, false⟩ }, [.requestRemoteData format])
  | drop (fetch : RemoteFetch) (hfetch : s.fetch = some fetch) (hqueue : fetch.queue = [])
      (hdrop : fetch.items = [] ∨ ∃ l, s.local' = some l ∧ fetch.announced < l.at') :
      FetchStep s now ({ s with fetch := none }, [])
  | write (fetch : RemoteFetch) (hfetch : s.fetch = some fetch) (hqueue : fetch.queue = [])
      (hitems : fetch.items ≠ []) (hnewest : ∀ l, s.local' = some l → l.at' ≤ fetch.announced) :
      FetchStep s now
        ({ s with fetch := none, unackedWrite := some ⟨fetch.items⟩ },
          [.writePasteboard ⟨fetch.items⟩])

theorem nextFetchStep_step (s : ClipboardSync) (now : Instant) :
    FetchStep s now (s.nextFetchStep now) := by
  unfold nextFetchStep
  split
  · next hfetch => exact .idle hfetch
  · next fetch hfetch =>
      split
      · next format kind queue hqueue => exact .request fetch format kind queue hfetch hqueue
      · next hqueue =>
          simp only
          split
          · next hdrop =>
              refine .drop fetch hfetch hqueue ?_
              simpa [Option.any_eq_true, List.isEmpty_iff] using hdrop
          · next hwrite =>
              refine .write fetch hfetch hqueue ?_ ?_
              · rintro hnil
                simp [hnil] at hwrite
              · intro l hl
                simp only [hl, Option.any_some, Bool.or_eq_true, decide_eq_true_eq, not_or,
                  Nat.not_lt] at hwrite
                exact hwrite.2

/-! ### Remote lists -/

/-- What `onRemoteList` can do. -/
inductive ListStep (s : ClipboardSync) (formats : List ClipFormat) (now : Instant) :
    Acting → Prop where
  | ignore (hignored : (s.canSync && !s.isEcho formats now) = false) : ListStep s formats now (s, [])
  | unwanted (haccepted : (s.canSync && !s.isEcho formats now) = true)
      (hqueue : selectInbound formats s.prefs = []) : ListStep s formats now (s.supersedeFetch, [])
  | wait (haccepted : (s.canSync && !s.isEcho formats now) = true)
      (hqueue : selectInbound formats s.prefs ≠ []) (hinflight : s.inflight.isSome) :
      ListStep s formats now
        ({ s.supersedeFetch with fetch := some ⟨selectInbound formats s.prefs, [], now⟩ }, [])
  | begin (haccepted : (s.canSync && !s.isEcho formats now) = true)
      (hqueue : selectInbound formats s.prefs ≠ []) (hinflight : s.inflight = none) :
      ListStep s formats now
        ({ s.supersedeFetch with
            fetch := some ⟨selectInbound formats s.prefs, [], now⟩ }.nextFetchStep now)

theorem onRemoteList_step (s : ClipboardSync) (formats : List ClipFormat) (now : Instant) :
    ListStep s formats now (s.onRemoteList formats now) := by
  unfold onRemoteList
  split_ifs with hsync hecho
  · have hoff : s.canSync = false := by simpa using hsync
    exact .ignore (by simp [hoff])
  · exact .ignore (by simp [hecho])
  · have haccepted : (s.canSync && !s.isEcho formats now) = true := by
      simpa [hecho] using hsync
    simp only
    split
    · next hempty => exact .unwanted haccepted (List.isEmpty_iff.mp hempty)
    · next hempty =>
        have hqueue : selectInbound formats s.prefs ≠ [] := fun hnil =>
          hempty (List.isEmpty_iff.mpr hnil)
        split
        · next hinflight =>
            exact .wait haccepted hqueue (by simpa [supersedeFetch] using hinflight)
        · next hinflight =>
            exact .begin haccepted hqueue (by simpa [supersedeFetch] using hinflight)

/-! ### Answers -/

/-- The state with the answer taken in, before the next step of the fetch. -/
def takeAnswer (images : ImageCodec) (s : ClipboardSync) (i : Inflight) (data : Option Bytes) :
    ClipboardSync :=
  let s := { s with inflight := none }
  if i.stale then s
  else
    match decodeResponse images i.kind data with
    | .ok item => s.pushItem item
    | .error _ => s

/-- An answer is taken in, reported when it cannot be decoded, and the fetch goes on. -/
theorem onRemoteData_eq (images : ImageCodec) {i : Inflight} (hi : s.inflight = some i) (data : Option Bytes)
    (now : Instant) :
    ∃ rejected : List ClipError, s.onRemoteData images data now =
      (((s.takeAnswer images i data).nextFetchStep now).1,
        rejected.map .rejected ++ ((s.takeAnswer images i data).nextFetchStep now).2) := by
  unfold onRemoteData takeAnswer
  rw [hi]
  simp only
  split
  · exact ⟨[], rfl⟩
  · cases decodeResponse images i.kind data with
    | ok item => exact ⟨[], rfl⟩
    | error e => exact ⟨[e], rfl⟩

theorem takeAnswer_inflight (i : Inflight) (data : Option Bytes) :
    (s.takeAnswer images i data).inflight = none := by
  unfold takeAnswer
  simp only
  split
  · rfl
  · split <;> rfl

/-! ### Local inputs -/

theorem advertiseLocal_actions (s : ClipboardSync) (now : Instant) :
    (s.advertiseLocal now).2 =
      (filterLocal ((s.local'.map (·.contents)).getD .empty) s.prefs).2.map .rejected ++
        [.sendFormatList s.localFormats] :=
  rfl

/-- What the handlers of local inputs can do: nothing but bookkeeping, an empty list with or without the
end of the fetch, or an advertisement of what is local. -/
inductive LocalStep (s : ClipboardSync) (now : Instant) : Acting → Prop where
  | keep (s' : ClipboardSync) (hfetch : s'.fetch = s.fetch) (hinflight : s'.inflight = s.inflight)
      (hadvertised : s'.advertised = s.advertised) : LocalStep s now (s', [])
  | clear (s' : ClipboardSync) (hfetch : s'.fetch = s.fetch) (hinflight : s'.inflight = s.inflight)
      (hadvertised : s'.advertised = .empty) : LocalStep s now (s'.sendList [] now)
  | turnOff (s' : ClipboardSync) (hfetch : s'.fetch = s.fetch) (hinflight : s'.inflight = s.inflight) :
      LocalStep s now ({ s'.supersedeFetch with advertised := .empty }.sendList [] now)
  | advertise (s' : ClipboardSync) (hfetch : s'.fetch = s.fetch) (hinflight : s'.inflight = s.inflight) :
      LocalStep s now (s'.advertiseLocal now)

theorem onInitialRequest_local (s : ClipboardSync) (now : Instant) :
    LocalStep s now (s.onInitialRequest now) := by
  unfold onInitialRequest
  simp only
  split
  · exact .advertise _ rfl rfl
  · exact .clear _ rfl rfl rfl

theorem onLocalChange_local (s : ClipboardSync) (changeCount : Int) (contents : ClipboardContents)
    (now : Instant) : LocalStep s now (s.onLocalChange changeCount contents now) := by
  unfold onLocalChange
  split_ifs
  · exact .keep _ rfl rfl rfl
  · simp only
    split_ifs
    · exact .keep _ rfl rfl rfl
    · exact .keep _ rfl rfl rfl
    · exact .keep _ rfl rfl rfl
    · exact .advertise _ rfl rfl

theorem onPrefs_local (s : ClipboardSync) (prefs : ClipboardPrefs) (now : Instant) :
    LocalStep s now (s.onPrefs prefs now) := by
  unfold onPrefs
  split
  · exact .keep _ rfl rfl rfl
  · simp only
    split_ifs
    · exact .keep _ rfl rfl rfl
    · exact .turnOff _ rfl rfl
    · exact .advertise _ rfl rfl
    · exact .keep _ rfl rfl rfl

theorem handle_local (images : ImageCodec) (s : ClipboardSync) (now : Instant) {input : SyncInput}
    (hlocal : input.isLocal = true) : LocalStep s now (s.handle images now input) := by
  cases input with
  | remoteFormatList formats => cases hlocal
  | remoteData data => cases hlocal
  | remoteDataRequest formatId => cases hlocal
  | tick => cases hlocal
  | initialFormatListRequested => exact s.onInitialRequest_local now
  | localChanged changeCount contents => exact s.onLocalChange_local changeCount contents now
  | localWritten changeCount => exact .keep _ rfl rfl rfl
  | prefs prefs => exact s.onPrefs_local prefs now
  | focus focused =>
      simp only [handle]
      split
      · exact .advertise _ rfl rfl
      · exact .keep _ rfl rfl rfl

end ClipboardSync

end Drift.Clipboard
