import Drift.Clipboard.Proof.Permissions

/-!
# Requests, answers and what is written

Responses carry no request: which request a response answers rests on there being one at a time on the
wire, and on stale ones being marked. `Agrees` ties the state to an `Exchange`, and `Busy` says that a
fetch in progress waits for an answer. Together they give the attribution of everything that is written,
and the runs in which the newest remote copy is written.
-/

namespace Drift.Clipboard

namespace Exchange

theorem foldl_act_of_plain {now : Instant} {m : Exchange} {actions : List SyncAction}
    (h : ∀ action ∈ actions, action.request? = none ∧ action.write? = none) :
    actions.foldl (act now) m = m := by
  induction actions with
  | nil => rfl
  | cons action actions ih =>
      obtain ⟨hrequest, hwrite⟩ := h action List.mem_cons_self
      have hsame : m.act now action = m := by
        cases action <;> simp_all [act, SyncAction.request?, SyncAction.write?]
      rw [List.foldl_cons, hsame]
      exact ih fun other hother => h other (List.mem_cons_of_mem action hother)

end Exchange

namespace ClipboardSync

open Exchange

/-! ### Agreement -/

/-- The state's view of the wire is the server's. -/
structure Agrees (s : ClipboardSync) (m : Exchange) : Prop where
  idle : s.inflight = none → m.pending = []
  wire : ∀ i, s.inflight = some i → ∃ r, m.pending = [r] ∧ r.format.kind = some i.kind ∧
    r.since = i.since ∧ (s.fetch.isSome → r.current = !i.stale)
  items : ∀ fetch, s.fetch = some fetch → fetch.items = m.answers
  queue : ∀ fetch, s.fetch = some fetch → ∀ next ∈ fetch.queue,
    next.1.kind = some next.2 ∧ next.1 ∈ m.offered

def Busy (s : ClipboardSync) : Prop := s.fetch.isSome → s.inflight.isSome

/-- What a handler does to the exchange. -/
structure Exchanges (m : Exchange) (now : Instant) (r : Acting) : Prop where
  agrees : r.1.Agrees (r.2.foldl (act now) m)
  busy : r.1.Busy
  writes : ∀ contents ∈ r.2.filterMap SyncAction.write?,
    contents.items = (r.2.foldl (act now) m).answers

variable {images : ImageCodec} {s : ClipboardSync} {m : Exchange} {now : Instant}

theorem Agrees.pending_length_le (h : s.Agrees m) : m.pending.length ≤ 1 := by
  cases hinflight : s.inflight with
  | none => simp [h.idle hinflight]
  | some i =>
      obtain ⟨r, hpending, -⟩ := h.wire i hinflight
      simp [hpending]

theorem Agrees.of_eq {s' : ClipboardSync} (h : s.Agrees m) (hfetch : s'.fetch = s.fetch)
    (hinflight : s'.inflight = s.inflight) : s'.Agrees m :=
  ⟨by rw [hinflight]; exact h.idle, by rw [hfetch, hinflight]; exact h.wire,
    by rw [hfetch]; exact h.items, by rw [hfetch]; exact h.queue⟩

theorem Agrees.supersede (h : s.Agrees m) : s.supersedeFetch.Agrees m := by
  refine ⟨?_, ?_, by simp [supersedeFetch], by simp [supersedeFetch]⟩
  · intro hidle
    exact h.idle (by simpa [supersedeFetch] using hidle)
  · intro i hi
    obtain ⟨j, hj, rfl⟩ := Option.map_eq_some_iff.mp hi
    obtain ⟨r, hpending, hkind, hsince, -⟩ := h.wire j hj
    exact ⟨r, hpending, hkind, hsince, by simp [supersedeFetch]⟩

theorem exchanges_of_plain {r : Acting} (hagrees : r.1.Agrees m) (hbusy : r.1.Busy)
    (hplain : ∀ action ∈ r.2, action.request? = none ∧ action.write? = none) :
    Exchanges m now r := by
  refine ⟨?_, hbusy, ?_⟩
  · rw [foldl_act_of_plain hplain]
    exact hagrees
  · intro contents hcontents
    obtain ⟨action, haction, hwrite⟩ := List.mem_filterMap.mp hcontents
    rw [(hplain action haction).2] at hwrite
    cases hwrite

theorem advertiseLocal_plain (s : ClipboardSync) (now : Instant) :
    ∀ action ∈ (s.advertiseLocal now).2, action.request? = none ∧ action.write? = none := by
  rw [advertiseLocal_actions]
  intro action haction
  rcases List.mem_append.mp haction with hmem | hmem
  · obtain ⟨e, _, rfl⟩ := List.mem_map.mp hmem
    exact ⟨rfl, rfl⟩
  · rw [List.mem_singleton.mp hmem]
    exact ⟨rfl, rfl⟩

theorem advertiseLocal_exchanges (h : s.Agrees m) : Exchanges m now (s.advertiseLocal now) :=
  exchanges_of_plain (h.supersede.of_eq rfl rfl) (by simp [Busy, advertiseLocal, sendList,
    supersedeFetch]) (s.advertiseLocal_plain now)

theorem nextFetchStep_exchanges (h : s.Agrees m) (hidle : s.inflight = none) :
    Exchanges m now (s.nextFetchStep now) := by
  have hpending := h.idle hidle
  have hstep := s.nextFetchStep_step now
  generalize s.nextFetchStep now = r at hstep ⊢
  cases hstep with
  | idle hfetch =>
      exact exchanges_of_plain h (by simp [Busy, hfetch]) (by simp)
  | request fetch format kind queue hfetch hqueue =>
      have hnext := h.queue fetch hfetch
      rw [hqueue] at hnext
      obtain ⟨hkind, hoffered⟩ := hnext _ List.mem_cons_self
      refine ⟨⟨by simp, ?_, ?_, ?_⟩, by simp [Busy], by simp [SyncAction.write?]⟩
      · rintro _ ⟨⟩
        refine ⟨⟨format, now, format ∈ m.offered⟩, ?_, hkind, rfl, ?_⟩
        · simp [act, hpending]
        · simp [hoffered]
      · rintro _ ⟨⟩
        exact h.items fetch hfetch
      · rintro _ ⟨⟩ next hmem
        exact hnext next (List.mem_cons_of_mem _ hmem)
  | drop fetch hfetch hqueue hdrop =>
      exact exchanges_of_plain ⟨h.idle, by simp [hidle], by simp, by simp⟩ (by simp [Busy]) (by simp)
  | write fetch hfetch hqueue hitems hnewest =>
      refine ⟨⟨fun _ => hpending, by simp [hidle], by simp, by simp⟩, by simp [Busy], ?_⟩
      simpa [SyncAction.write?, act] using h.items fetch hfetch

/-! ### Remote lists -/

theorem Agrees.accept (h : s.Agrees m) (formats : List ClipFormat) :
    s.supersedeFetch.Agrees (m.accept formats) := by
  refine ⟨?_, ?_, by simp [supersedeFetch], by simp [supersedeFetch]⟩
  · intro hidle
    simp [Exchange.accept, h.supersede.idle hidle]
  · intro i hi
    obtain ⟨r, hpending, hkind, hsince, -⟩ := h.supersede.wire i hi
    exact ⟨{ r with current := false }, by simp [Exchange.accept, hpending], hkind, hsince,
      by simp [supersedeFetch]⟩

theorem Agrees.announce (h : s.Agrees m) (formats : List ClipFormat) (now : Instant) :
    Agrees { s.supersedeFetch with fetch := some ⟨selectInbound formats s.prefs, [], now⟩ }
      (m.accept formats) := by
  refine ⟨(h.accept formats).idle, ?_, ?_, ?_⟩
  · intro i hi
    obtain ⟨j, hj, rfl⟩ := Option.map_eq_some_iff.mp hi
    obtain ⟨r, hpending, hkind, hsince, -⟩ := h.wire j hj
    exact ⟨{ r with current := false }, by simp [Exchange.accept, hpending], hkind, hsince,
      fun _ => rfl⟩
  · rintro _ ⟨⟩
    rfl
  · rintro _ ⟨⟩ next hnext
    obtain ⟨hoffered, hkind, -⟩ := kind_of_mem_selectInbound hnext
    exact ⟨hkind, hoffered⟩

theorem onRemoteList_exchanges (images : ImageCodec) (h : s.Agrees m) (hbusy : s.Busy)
    (formats : List ClipFormat) :
    Exchanges (m.take images s now (.remoteFormatList formats)) now
      (s.onRemoteList formats now) := by
  have hstep := s.onRemoteList_step formats now
  generalize s.onRemoteList formats now = r at hstep ⊢
  cases hstep with
  | ignore hignored =>
      rw [take, hignored]
      exact exchanges_of_plain h hbusy (by simp)
  | unwanted haccepted hqueue =>
      rw [take, haccepted, if_pos rfl]
      exact exchanges_of_plain (h.accept formats) (by simp [Busy, supersedeFetch]) (by simp)
  | wait haccepted hqueue hinflight =>
      rw [take, haccepted, if_pos rfl]
      exact exchanges_of_plain (h.announce formats now)
        (by simpa [Busy, supersedeFetch] using hinflight) (by simp)
  | begin haccepted hqueue hinflight =>
      rw [take, haccepted, if_pos rfl]
      exact nextFetchStep_exchanges (h.announce formats now) (by simp [supersedeFetch, hinflight])

/-! ### Answers -/

theorem Agrees.takeAnswer {i : Inflight} (h : s.Agrees m) (images : ImageCodec) (hi : s.inflight = some i)
    (data : Option Bytes) : (s.takeAnswer images i data).Agrees (m.answer images data) := by
  obtain ⟨r, hpending, hkind, -, hcurrent⟩ := h.wire i hi
  have hdecode : r.decode images data = (decodeResponse images i.kind data).toOption := by
    rw [Request.decode, hkind, Option.bind_some]
  have hanswer : m.answer images data =
      { m with
        pending := []
        answers := if r.current then m.answers ++ (r.decode images data).toList else m.answers } := by
    rw [Exchange.answer, hpending]
  have hcurrent' : ∀ fetch, s.fetch = some fetch → r.current = !i.stale :=
    fun fetch hfetch => hcurrent (by rw [hfetch]; rfl)
  rw [hanswer]
  unfold ClipboardSync.takeAnswer
  simp only
  cases hstale : i.stale with
  | true =>
      refine ⟨fun _ => rfl, by simp, ?_, ?_⟩
      · intro fetch hfetch
        simpa [hcurrent' fetch hfetch, hstale] using h.items fetch hfetch
      · exact h.queue
  | false =>
      cases hitem : decodeResponse images i.kind data with
      | error e =>
          refine ⟨fun _ => rfl, by simp, ?_, ?_⟩
          · intro fetch hfetch
            simpa [hdecode, hitem, Except.toOption] using h.items fetch hfetch
          · exact h.queue
      | ok item =>
          refine ⟨fun _ => rfl, by simp [pushItem], ?_, ?_⟩
          · intro fetch hfetch
            obtain ⟨old, hold, rfl⟩ := Option.map_eq_some_iff.mp hfetch
            have hpushed : old.items = m.answers := h.items old hold
            simp [hcurrent' old hold, hstale, hdecode, hitem, Except.toOption, hpushed]
          · intro fetch hfetch
            obtain ⟨old, hold, rfl⟩ := Option.map_eq_some_iff.mp hfetch
            exact h.queue old hold

theorem Exchanges.rejected {next : ClipboardSync} {actions : List SyncAction}
    (h : Exchanges m now (next, actions)) (errors : List ClipError) :
    Exchanges m now (next, errors.map .rejected ++ actions) := by
  have hskip : (errors.map SyncAction.rejected).foldl (act now) m = m := by
    refine foldl_act_of_plain ?_
    intro action haction
    obtain ⟨e, _, rfl⟩ := List.mem_map.mp haction
    exact ⟨rfl, rfl⟩
  have hfold : (errors.map SyncAction.rejected ++ actions).foldl (act now) m =
      actions.foldl (act now) m := by
    rw [List.foldl_append, hskip]
  have hwrites : (errors.map SyncAction.rejected ++ actions).filterMap SyncAction.write? =
      actions.filterMap SyncAction.write? := by
    rw [List.filterMap_append, writes_rejected, List.nil_append]
  refine ⟨?_, h.busy, ?_⟩
  · rw [hfold]
    exact h.agrees
  · rw [hfold, hwrites]
    exact h.writes

theorem onRemoteData_exchanges (h : s.Agrees m) (hasked : m.pending ≠ []) (data : Option Bytes) :
    Exchanges (m.answer images data) now (s.onRemoteData images data now) := by
  cases hi : s.inflight with
  | none => exact absurd (h.idle hi) hasked
  | some i =>
      obtain ⟨rejected, heq⟩ := onRemoteData_eq images hi data now
      rw [heq]
      exact (nextFetchStep_exchanges (h.takeAnswer images hi data)
        (takeAnswer_inflight i data)).rejected rejected

/-! ### Every input -/

theorem onTick_of_served (h : s.Agrees m)
    (hserved : ∀ r ∈ m.pending, now - r.since < fetchTimeout) : s.onTick now = s := by
  unfold onTick
  split
  · next hoverdue =>
      obtain ⟨i, hi, hlate⟩ := (Option.any_eq_true ..).mp hoverdue
      obtain ⟨r, hpending, -, hsince, -⟩ := h.wire i hi
      have hearly := hserved r (by simp [hpending])
      rw [hsince] at hearly
      exact absurd (of_decide_eq_true hlate) (Nat.not_le.mpr hearly)
  · rfl

theorem LocalStep.plain {r : Acting} (hstep : LocalStep s now r) :
    ∀ action ∈ r.2, action.request? = none ∧ action.write? = none := by
  cases hstep with
  | keep s' hfetch hinflight hadvertised => simp
  | clear s' hfetch hinflight hadvertised => simp [sendList, SyncAction.request?, SyncAction.write?]
  | turnOff s' hfetch hinflight => simp [sendList, SyncAction.request?, SyncAction.write?]
  | advertise s' hfetch hinflight => exact s'.advertiseLocal_plain now

theorem Busy.of_eq {s' : ClipboardSync} (h : s.Busy) (hfetch : s'.fetch = s.fetch)
    (hinflight : s'.inflight = s.inflight) : s'.Busy := by
  unfold Busy
  rw [hfetch, hinflight]
  exact h

theorem LocalStep.exchanges {r : Acting} (hstep : LocalStep s now r) (h : s.Agrees m) (hbusy : s.Busy) :
    Exchanges m now r := by
  have hplain := hstep.plain
  cases hstep with
  | keep s' hfetch hinflight hadvertised =>
      exact exchanges_of_plain (h.of_eq hfetch hinflight) (hbusy.of_eq hfetch hinflight) hplain
  | clear s' hfetch hinflight hadvertised =>
      exact exchanges_of_plain (h.of_eq hfetch hinflight) (hbusy.of_eq hfetch hinflight) hplain
  | turnOff s' hfetch hinflight =>
      exact exchanges_of_plain ((h.of_eq hfetch hinflight).supersede.of_eq rfl rfl)
        (by simp [Busy, sendList, supersedeFetch]) hplain
  | advertise s' hfetch hinflight => exact advertiseLocal_exchanges (h.of_eq hfetch hinflight)

/-- One call, with a server that answers what it was asked and a request that is not overdue. -/
theorem handle_exchanges (images : ImageCodec) (h : s.Agrees m) (hbusy : s.Busy) {input : SyncInput}
    (hasked : ∀ data, input = .remoteData data → m.pending ≠ [])
    (htime : input = .tick → ∀ r ∈ m.pending, now - r.since < fetchTimeout) :
    Exchanges (m.take images s now input) now (s.handle images now input) := by
  cases input with
  | remoteFormatList formats => exact onRemoteList_exchanges images h hbusy formats
  | remoteData data => exact onRemoteData_exchanges h (hasked data rfl) data
  | remoteDataRequest formatId =>
      exact exchanges_of_plain h hbusy (by simp [handle, onDataRequest, SyncAction.request?,
        SyncAction.write?])
  | tick =>
      simp only [handle, onTick_of_served h (htime rfl)]
      exact exchanges_of_plain h hbusy (by simp)
  | _ => exact (handle_local images s now rfl).exchanges h hbusy

theorem agrees_new (prefs : ClipboardPrefs) (focused : Bool) :
    (new prefs focused).Agrees Exchange.start :=
  ⟨fun _ => rfl, by simp [new], by simp [new], by simp [new]⟩

end ClipboardSync

/-! ### Attribution -/

namespace Exchange

open ClipboardSync

variable {images : ImageCodec} {prefs : ClipboardPrefs} {focused : Bool}

/-- **Attribution.** When no fetch times out and the server answers each request once and in order,
at most one request is outstanding, and everything written to the pasteboard is what the answers for
the list accepted last decode to, each as the kind it was requested for, in the order of the
requests. -/
theorem attributed_history (images : ImageCodec) (prefs : ClipboardPrefs) (focused : Bool)
    (es : List Timed)
    (hes : Transition.Along (Clocked.step images) (observe images) Served (.start prefs focused) start
      es) :
    Transition.Holds (observe images) (Attributed images) start
      (Clocked.history images prefs focused es).2 := by
  let R := fun (c : Clocked) (m : Exchange) => c.sync.Agrees m ∧ c.sync.Busy
  have hstart : R (.start prefs focused) start := ⟨agrees_new prefs focused, by simp [Clocked.start,
    Busy, new]⟩
  refine (Transition.run_holds R ?_ hstart hes).1
  rintro c m ⟨elapsed, input⟩ ⟨hagrees, hbusy⟩ hserved
  have hcall : Exchanges (m.take images c.sync (c.now + elapsed) input) (c.now + elapsed)
      (c.sync.handle images (c.now + elapsed) input) := by
    refine handle_exchanges images hagrees hbusy ?_ ?_
    · rintro data rfl
      exact hserved
    · rintro rfl
      exact hserved
  exact ⟨⟨⟨hcall.agrees.pending_length_le, hcall.writes⟩, trivial⟩, hcall.agrees, hcall.busy⟩

/-- A text copied while an image is being fetched. -/
theorem attributed_history_superseded :
    let es : List Timed :=
      [⟨0, .initialFormatListRequested⟩, ⟨1, .remoteFormatList [.standard cfTiff]⟩,
        ⟨1, .remoteFormatList [.standard cfText]⟩, ⟨1, .tick⟩, ⟨1, .remoteData (some [1])⟩,
        ⟨1, .remoteData (some [98])⟩]
    Transition.Holds (observe sampleImages) (Attributed sampleImages) start
      (Clocked.history sampleImages .textAndImages true es).2 :=
  attributed_history sampleImages .textAndImages true _ (by decide)

end Exchange

end Drift.Clipboard
