import Drift.Clipboard.Proof.Exchange

/-!
# The newest copy

After a remote list is accepted, its fetch is awaited until it is written, or dropped because something
local got in its way. `Awaiting`, `Won` and `Dropped` are the three situations of the inputs that follow;
which one a run ends in depends on its disturbances alone.
-/

namespace Drift.Clipboard

open ClipboardSync Exchange

variable {images : ImageCodec} {announced : Instant} {wanted : Nat} {c : Clocked} {m : Exchange}

namespace ClipboardSync

/-- The items that are there, on their way, or still to be requested. -/
def progress (s : ClipboardSync) (fetch : RemoteFetch) : Nat :=
  fetch.items.length + fetch.queue.length + if s.inflight.any (!·.stale) then 1 else 0

variable {s : ClipboardSync} {now : Instant}

/-- The latest local contents are not newer than the time. -/
def NotLater (s : ClipboardSync) (time : Instant) : Prop := ∀ l, s.local' = some l → l.at' ≤ time

theorem handle_plain {input : SyncInput} (hquiet : input.isQuiet = true)
    (hdata : ∀ data, input ≠ .remoteData data) :
    (∀ action ∈ (s.handle images now input).2, action.request? = none ∧ action.write? = none) ∧
      m.take images s now input = m := by
  cases input with
  | remoteFormatList formats => cases hquiet
  | prefs prefs => cases hquiet
  | focus focused => cases hquiet
  | remoteData data => exact absurd rfl (hdata data)
  | remoteDataRequest formatId =>
      exact ⟨by simp [handle, onDataRequest, SyncAction.request?, SyncAction.write?], rfl⟩
  | tick => exact ⟨by simp [handle], rfl⟩
  | _ => exact ⟨(handle_local images s now rfl).plain, rfl⟩

/-- What an undisturbed fetch keeps from a quiet input other than an answer. -/
theorem handle_of_undisturbed (images : ImageCodec) {input : SyncInput} {fetch : RemoteFetch}
    (hfetch : s.fetch = some fetch) (hquiet : input.isQuiet = true)
    (hdata : ∀ data, input ≠ .remoteData data) (htick : s.onTick now = s)
    (hsync : s.canSync = true) (hlocal : s.NotLater fetch.announced)
    (hdisturbs : s.disturbs now input = false) :
    let s' := (s.handle images now input).1
    s'.fetch = some fetch ∧ s'.inflight = s.inflight ∧ s'.canSync = true ∧
      s'.NotLater fetch.announced := by
  cases input with
  | remoteFormatList formats => cases hquiet
  | prefs prefs => cases hquiet
  | focus focused => cases hquiet
  | remoteData data => exact absurd rfl (hdata data)
  | remoteDataRequest formatId => exact ⟨hfetch, rfl, hsync, hlocal⟩
  | localWritten changeCount => exact ⟨hfetch, rfl, hsync, hlocal⟩
  | tick =>
      simp only [handle, htick]
      exact ⟨hfetch, trivial, hsync, hlocal⟩
  | initialFormatListRequested =>
      have hnone : s.local'.isSome = false := by simpa [disturbs, hfetch] using hdisturbs
      have hsync' : ({ s with ready := true } : ClipboardSync).canSync = true := by
        simp_all [canSync]
      simp only [handle, onInitialRequest, hnone, Bool.and_false, Bool.false_eq_true, if_false]
      exact ⟨hfetch, rfl, hsync', hlocal⟩
  | localChanged changeCount contents =>
      simp only [disturbs, hfetch, Option.any_some] at hdisturbs
      simp only [handle, onLocalChange]
      split
      · exact ⟨hfetch, rfl, hsync, hlocal⟩
      · next hnew =>
          have hboth : s.isOwn changeCount contents = true ∧ now ≤ fetch.announced := by
            simpa [hnew] using hdisturbs
          simp only [hboth.1, if_true]
          refine ⟨hfetch, trivial, hsync, ?_⟩
          rintro _ ⟨⟩
          exact hboth.2

theorem handle_of_disturbed (images : ImageCodec) {input : SyncInput} {fetch : RemoteFetch}
    (hfetch : s.fetch = some fetch) (hsync : s.canSync = true)
    (hdisturbs : s.disturbs now input = true) :
    let s' := (s.handle images now input).1
    s'.fetch = none ∨ s'.fetch = some fetch ∧ fetch.announced < now ∧
      ∃ contents, s'.local' = some ⟨contents, now⟩ := by
  simp only [disturbs, hfetch, Option.any_some] at hdisturbs
  cases input with
  | initialFormatListRequested =>
      have hsync' : ({ s with ready := true } : ClipboardSync).canSync = true := by
        simp_all [canSync]
      simp only [handle, onInitialRequest, hsync', hdisturbs, Bool.and_self, if_true]
      exact .inl rfl
  | localChanged changeCount contents =>
      simp only [Bool.and_eq_true, decide_eq_true_eq, Bool.or_eq_true, Bool.not_eq_true'] at hdisturbs
      obtain ⟨hnew, hlocal⟩ := hdisturbs
      have hprefs : s.prefs ≠ .off := by
        intro hoff
        simp [canSync, hoff] at hsync
      simp only [handle, onLocalChange, if_neg hnew]
      split
      · next hown =>
          exact .inr ⟨hfetch, by simpa [hown] using hlocal, contents, rfl⟩
      · have hsync' : canSync { s with
            lastLocalChangeCount := some changeCount, local' := some ⟨contents, now⟩ } = true := hsync
        simp only [hsync', Bool.not_true, Bool.false_eq_true, if_false]
        exact .inl rfl
  | _ => simp at hdisturbs

theorem nextFetchStep_of_progress {fetch : RemoteFetch} (now : Instant) (hfetch : s.fetch = some fetch)
    (hidle : s.inflight = none) (hwanted : 0 < s.progress fetch)
    (hlocal : s.NotLater fetch.announced) :
    (∃ fetch', (s.nextFetchStep now).1.fetch = some fetch' ∧
      (s.nextFetchStep now).1.progress fetch' = s.progress fetch ∧
      fetch'.announced = fetch.announced ∧
      (s.nextFetchStep now).2.filterMap SyncAction.write? = []) ∨
    (s.nextFetchStep now).1.fetch = none ∧ fetch.items.length = s.progress fetch ∧
      (s.nextFetchStep now).2 = [.writePasteboard ⟨fetch.items⟩] := by
  have hcount : s.progress fetch = fetch.items.length + fetch.queue.length := by
    simp [progress, hidle]
  have hstep := s.nextFetchStep_step now
  generalize s.nextFetchStep now = r at hstep ⊢
  cases hstep with
  | idle hnone => cases hfetch.symm.trans hnone
  | request old format kind queue hold hqueue =>
      cases hfetch.symm.trans hold
      refine .inl ⟨_, rfl, ?_, rfl, rfl⟩
      rw [hcount, hqueue]
      simp [progress]
      omega
  | drop old hold hqueue hdrop =>
      cases hfetch.symm.trans hold
      rcases hdrop with hnil | ⟨l, hl, hlater⟩
      · simp [hcount, hqueue, hnil] at hwanted
      · exact absurd hlater (Nat.not_lt.mpr (hlocal l hl))
  | write old hold hqueue hitems hnewest =>
      cases hfetch.symm.trans hold
      exact .inr ⟨rfl, by rw [hcount, hqueue]; rfl, rfl⟩

theorem progress_takeAnswer {i : Inflight} {data : Option Bytes} {fetch : RemoteFetch}
    (hfetch : s.fetch = some fetch) (hi : s.inflight = some i)
    (hdecode : (decodeResponse images i.kind data).toOption.isSome = true) :
    ∃ fetch', (s.takeAnswer images i data).fetch = some fetch' ∧
      fetch'.announced = fetch.announced ∧
      (s.takeAnswer images i data).progress fetch' = s.progress fetch := by
  unfold takeAnswer
  simp only
  cases hstale : i.stale with
  | true => exact ⟨fetch, hfetch, rfl, by simp [progress, hi, hstale]⟩
  | false =>
      cases hitem : decodeResponse images i.kind data with
      | error e => simp [hitem, Except.toOption] at hdecode
      | ok item =>
          refine ⟨{ fetch with items := fetch.items ++ [item] }, by simp [pushItem, hfetch], rfl, ?_⟩
          simp [progress, pushItem, hi, hstale]
          omega

theorem fetch_takeAnswer (images : ImageCodec) (s : ClipboardSync) (i : Inflight) (data : Option Bytes) :
    (s.takeAnswer images i data).fetch.map (·.announced) = s.fetch.map (·.announced) ∧
      (s.takeAnswer images i data).local' = s.local' ∧
      (s.takeAnswer images i data).canSync = s.canSync := by
  unfold takeAnswer
  simp only
  split
  · exact ⟨rfl, rfl, rfl⟩
  · split
    · exact ⟨by simp [pushItem, Function.comp_def], rfl, rfl⟩
    · exact ⟨rfl, rfl, rfl⟩

/-- What a quiet input other than an answer can do to a fetch and to what is local. -/
theorem handle_of_quiet (images : ImageCodec) (s : ClipboardSync) (now : Instant)
    {input : SyncInput} (hquiet : input.isQuiet = true)
    (hdata : ∀ data, input ≠ .remoteData data) :
    let s' := (s.handle images now input).1
    (s'.fetch = none ∨ s'.fetch = s.fetch) ∧ (s.inflight = none → s'.inflight = none) ∧
      (s'.local' = s.local' ∨ ∃ contents, s'.local' = some ⟨contents, now⟩) := by
  have hsupersede : s.inflight = none → s.supersedeFetch.inflight = none := by
    intro hnone
    simp [supersedeFetch, hnone]
  cases input with
  | remoteFormatList formats => cases hquiet
  | prefs prefs => cases hquiet
  | focus focused => cases hquiet
  | remoteData data => exact absurd rfl (hdata data)
  | remoteDataRequest formatId => exact ⟨.inr rfl, id, .inl rfl⟩
  | localWritten changeCount => exact ⟨.inr rfl, id, .inl rfl⟩
  | tick =>
      simp only [handle, onTick]
      split
      · exact ⟨.inl rfl, fun _ => rfl, .inl rfl⟩
      · exact ⟨.inr rfl, id, .inl rfl⟩
  | initialFormatListRequested =>
      simp only [handle, onInitialRequest]
      split
      · exact ⟨.inl rfl, hsupersede, .inl rfl⟩
      · exact ⟨.inr rfl, id, .inl rfl⟩
  | localChanged changeCount contents =>
      simp only [handle, onLocalChange]
      split_ifs
      · exact ⟨.inr rfl, id, .inl rfl⟩
      · exact ⟨.inr rfl, id, .inr ⟨contents, rfl⟩⟩
      · exact ⟨.inr rfl, id, .inr ⟨contents, rfl⟩⟩
      · exact ⟨.inr rfl, id, .inr ⟨contents, rfl⟩⟩
      · exact ⟨.inl rfl, hsupersede, .inr ⟨contents, rfl⟩⟩

end ClipboardSync

/-! ### The situations after the newest copy -/

namespace Exchange

theorem written_foldl_act (now : Instant) (m : Exchange) (actions : List SyncAction) :
    (actions.foldl (act now) m).written = m.written ++ actions.filterMap SyncAction.write? := by
  induction actions generalizing m with
  | nil => simp
  | cons action actions ih =>
      rw [List.foldl_cons, ih]
      cases action <;> simp [act, List.filterMap_cons, SyncAction.write?]

theorem answers_foldl_act (now : Instant) (m : Exchange) (actions : List SyncAction) :
    (actions.foldl (act now) m).answers = m.answers := by
  induction actions generalizing m with
  | nil => rfl
  | cons action actions ih =>
      rw [List.foldl_cons, ih]
      cases action <;> rfl

theorem written_answer (m : Exchange) (data : Option Bytes) :
    (m.answer images data).written = m.written := by
  unfold answer
  split <;> rfl

/-- The fetch goes on. -/
structure Awaiting (announced : Instant) (wanted : Nat) (c : Clocked) (m : Exchange) : Prop where
  agrees : c.sync.Agrees m
  busy : c.sync.Busy
  canSync : c.sync.canSync = true
  fetch : ∃ fetch, c.sync.fetch = some fetch ∧ fetch.announced = announced ∧
    c.sync.progress fetch = wanted
  notLater : c.sync.NotLater announced
  written : m.written = []

/-- The answers have been written. -/
structure Won (wanted : Nat) (c : Clocked) (m : Exchange) : Prop where
  fetch : c.sync.fetch = none
  inflight : c.sync.inflight = none
  pending : m.pending = []
  written : m.written = [⟨m.answers⟩]
  count : m.answers.length = wanted

/-- The fetch is over, or something local is newer than its announcement. -/
structure Dropped (announced : Instant) (c : Clocked) (m : Exchange) : Prop where
  written : m.written = []
  dropped : ∀ fetch, c.sync.fetch = some fetch → fetch.announced = announced ∧ announced < c.now ∧
    ∃ l, c.sync.local' = some l ∧ announced < l.at'

def after (images : ImageCodec) (c : Clocked) (m : Exchange) (e : Timed) : Clocked × Exchange :=
  ((c.step images e).1, (c.step images e).2.foldl (observe images) m)

theorem after_eq (c : Clocked) (m : Exchange) (e : Timed) :
    after images c m e =
      (⟨c.now + e.elapsed, (c.sync.handle images (c.now + e.elapsed) e.input).1⟩,
        (c.sync.handle images (c.now + e.elapsed) e.input).2.foldl (act (c.now + e.elapsed))
          (m.take images c.sync (c.now + e.elapsed) e.input)) := rfl

theorem after_of_quiet {e : Timed} (hquiet : e.input.isQuiet = true)
    (hdata : ∀ data, e.input ≠ .remoteData data) : (after images c m e).2 = m := by
  obtain ⟨hplain, htake⟩ := handle_plain (s := c.sync) (m := m) hquiet hdata
  rw [after_eq, htake]
  exact foldl_act_of_plain hplain

theorem after_of_answer (images : ImageCodec) {e : Timed} {data : Option Bytes} {i : Inflight}
    (hinput : e.input = .remoteData data) (hi : c.sync.inflight = some i) :
    let next := (c.sync.takeAnswer images i data).nextFetchStep (c.now + e.elapsed)
    (after images c m e).1.sync = next.1 ∧
      (after images c m e).2.written = m.written ++ next.2.filterMap SyncAction.write? ∧
      (after images c m e).2.answers = (m.answer images data).answers := by
  obtain ⟨rejected, heq⟩ := onRemoteData_eq images hi data (c.now + e.elapsed)
  rw [after_eq, hinput]
  refine ⟨?_, ?_, answers_foldl_act _ _ _⟩
  · rw [handle, heq]
  · rw [written_foldl_act, take, written_answer, handle, heq, List.filterMap_append,
      List.filterMap_map]
    simp [SyncAction.write?]

theorem Answered.asked {e : Timed} (h : Answered images c m e) (data : Option Bytes)
    (hinput : e.input = .remoteData data) : m.pending ≠ [] := by
  intro hnil
  have hhead := h.2
  simp [hinput, hnil] at hhead

theorem Answered.exchanges {e : Timed} (h : Answered images c m e)
    (hagrees : c.sync.Agrees m) (hbusy : c.sync.Busy) :
    Exchanges (m.take images c.sync (c.now + e.elapsed) e.input) (c.now + e.elapsed)
      (c.sync.handle images (c.now + e.elapsed) e.input) :=
  handle_exchanges images hagrees hbusy h.asked fun _ => h.1

theorem Awaiting.step {e : Timed} (h : Awaiting announced wanted c m) (hwanted : 0 < wanted)
    (hquiet : e.input.isQuiet = true) (hanswered : Answered images c m e)
    (hdisturbs : c.sync.disturbs (c.now + e.elapsed) e.input = false) :
    Awaiting announced wanted (after images c m e).1 (after images c m e).2 ∨
      Won wanted (after images c m e).1 (after images c m e).2 := by
  obtain ⟨fetch, hfetch, rfl, hprogress⟩ := h.fetch
  have hexchanges := hanswered.exchanges h.agrees h.busy
  by_cases hdata : ∃ data, e.input = .remoteData data
  · obtain ⟨data, hinput⟩ := hdata
    cases hi : c.sync.inflight with
    | none => exact absurd (h.agrees.idle hi) (hanswered.asked data hinput)
    | some i =>
        obtain ⟨r, hpending, hkind, -⟩ := h.agrees.wire i hi
        have hdecode : (decodeResponse images i.kind data).toOption.isSome = true := by
          have hhead := hanswered.2
          simpa [hinput, hpending, Request.decode, hkind] using hhead
        obtain ⟨fetch', hfetch', hannounced, hcount⟩ := progress_takeAnswer hfetch hi hdecode
        obtain ⟨-, hlocal, hsync⟩ := fetch_takeAnswer images c.sync i data
        have hnotLater : (c.sync.takeAnswer images i data).NotLater fetch'.announced := by
          rw [NotLater, hlocal, hannounced]
          exact h.notLater
        obtain ⟨hstate, hwritten, hanswers⟩ := after_of_answer images (m := m) hinput hi
        have hframe := nextFetchStep_fetches (c.sync.takeAnswer images i data) (c.now + e.elapsed)
        rcases nextFetchStep_of_progress (c.now + e.elapsed) hfetch'
          (takeAnswer_inflight i data) (by omega) hnotLater with
          ⟨fetch'', hfetch'', hcount', hannounced', hnone⟩ | ⟨hnone, hlength, hwrite⟩
        · refine .inl ⟨hexchanges.agrees, hexchanges.busy, ?_, ?_, ?_, ?_⟩
          · rw [hstate, hframe.state]
            exact hsync.trans h.canSync
          · rw [hstate]
            exact ⟨fetch'', hfetch'', hannounced'.trans hannounced,
              by rw [hcount', hcount, hprogress]⟩
          · rw [hstate, hframe.state]
            exact fun l hl => h.notLater l (hlocal.symm.trans hl)
          · rw [hwritten, hnone, h.written]
            rfl
        · have hitems := (h.agrees.takeAnswer images hi data).items fetch' hfetch'
          have hidle : (after images c m e).1.sync.inflight = none := by
            rw [hstate]
            have hstep := (c.sync.takeAnswer images i data).nextFetchStep_step (c.now + e.elapsed)
            generalize (c.sync.takeAnswer images i data).nextFetchStep (c.now + e.elapsed) = next
              at hstep hnone
            cases hstep with
            | request _ _ _ _ _ _ => cases hnone
            | _ => exact takeAnswer_inflight i data
          refine .inr ⟨by rw [hstate]; exact hnone, hidle, hexchanges.agrees.idle hidle, ?_, ?_⟩
          · rw [hwritten, h.written, hwrite, hanswers, hitems]
            rfl
          · rw [hanswers, ← hitems]
            omega
  · have hdata' : ∀ data, e.input ≠ .remoteData data := fun data hinput => hdata ⟨data, hinput⟩
    obtain ⟨hfetch', hinflight, hsync, hnotLater⟩ := handle_of_undisturbed images hfetch
      hquiet hdata' (onTick_of_served h.agrees hanswered.1) h.canSync h.notLater hdisturbs
    refine .inl ⟨hexchanges.agrees, hexchanges.busy, hsync, ⟨fetch, hfetch', rfl, ?_⟩, hnotLater, ?_⟩
    · rw [← hprogress, progress, progress, ← hinflight]
      rfl
    · rw [after_of_quiet hquiet hdata']
      exact h.written

theorem Awaiting.disturbed {e : Timed} (h : Awaiting announced wanted c m) (images : ImageCodec)
    (hquiet : e.input.isQuiet = true)
    (hdisturbs : c.sync.disturbs (c.now + e.elapsed) e.input = true) :
    Dropped announced (after images c m e).1 (after images c m e).2 := by
  obtain ⟨fetch, hfetch, rfl, -⟩ := h.fetch
  have hdata : ∀ data, e.input ≠ .remoteData data := by
    intro data hinput
    simp [disturbs, hinput] at hdisturbs
  refine ⟨by rw [after_of_quiet hquiet hdata]; exact h.written, ?_⟩
  intro fetch' hfetch'
  rcases handle_of_disturbed images hfetch h.canSync hdisturbs with
    hnone | ⟨hsame, hlater, contents, hlocal⟩
  · cases hnone.symm.trans hfetch'
  · cases hsame.symm.trans hfetch'
    exact ⟨rfl, hlater, _, hlocal, hlater⟩

theorem Won.step {e : Timed} (h : Won wanted c m) (hquiet : e.input.isQuiet = true)
    (hanswered : Answered images c m e) :
    Won wanted (after images c m e).1 (after images c m e).2 := by
  have hdata : ∀ data, e.input ≠ .remoteData data := by
    intro data hinput
    have hhead := hanswered.2
    simp [hinput, h.pending] at hhead
  obtain ⟨hfetch, hinflight, -⟩ := handle_of_quiet images c.sync (c.now + e.elapsed)
    hquiet hdata
  rw [h.fetch, or_self] at hfetch
  exact ⟨hfetch, hinflight h.inflight, by rw [after_of_quiet hquiet hdata]; exact h.pending,
    by rw [after_of_quiet hquiet hdata]; exact h.written,
    by rw [after_of_quiet hquiet hdata]; exact h.count⟩

theorem Dropped.step {e : Timed} (h : Dropped announced c m) (hquiet : e.input.isQuiet = true) :
    Dropped announced (after images c m e).1 (after images c m e).2 := by
  have hclock : ∀ fetch, c.sync.fetch = some fetch → announced < c.now + e.elapsed :=
    fun fetch hfetch => Nat.lt_of_lt_of_le (h.dropped fetch hfetch).2.1 (Nat.le_add_right ..)
  by_cases hdata : ∃ data, e.input = .remoteData data
  · obtain ⟨data, hinput⟩ := hdata
    cases hi : c.sync.inflight with
    | none =>
        have hsame : (after images c m e).1.sync = c.sync := by
          rw [after_eq, hinput]
          simp [handle, onRemoteData, hi]
        refine ⟨?_, ?_⟩
        · rw [after_eq, hinput, handle, onRemoteData, hi]
          exact (written_answer m data).trans h.written
        · rw [hsame]
          intro fetch hfetch
          obtain ⟨heq, -, hlocal⟩ := h.dropped fetch hfetch
          exact ⟨heq, hclock fetch hfetch, hlocal⟩
    | some i =>
        obtain ⟨hstate, hwritten, -⟩ := after_of_answer images (m := m) hinput hi
        obtain ⟨hmap, hlocal, -⟩ := fetch_takeAnswer images c.sync i data
        have htaken : ∀ fetch, (c.sync.takeAnswer images i data).fetch = some fetch →
            fetch.announced = announced ∧ announced < c.now + e.elapsed ∧
              ∃ l, c.sync.local' = some l ∧ announced < l.at' := by
          intro fetch hfetch
          rw [hfetch, Option.map_some] at hmap
          obtain ⟨old, hold, hsame⟩ := Option.map_eq_some_iff.mp hmap.symm
          obtain ⟨heq, -, hnewer⟩ := h.dropped old hold
          exact ⟨hsame.symm.trans heq, hclock old hold, hnewer⟩
        have hframe := nextFetchStep_fetches (c.sync.takeAnswer images i data) (c.now + e.elapsed)
        have hstep := (c.sync.takeAnswer images i data).nextFetchStep_step (c.now + e.elapsed)
        generalize (c.sync.takeAnswer images i data).nextFetchStep (c.now + e.elapsed) = next
          at hstate hwritten hframe hstep
        have hlocal' : next.1.local' = c.sync.local' := by
          rw [hframe.state]
          exact hlocal
        cases hstep with
        | idle hnone =>
            refine ⟨hwritten.trans (by rw [h.written]; rfl), ?_⟩
            intro fetch hfetch
            rw [hstate, hnone] at hfetch
            cases hfetch
        | request old format kind queue hold hqueue =>
            refine ⟨hwritten.trans (by rw [h.written]; rfl), ?_⟩
            intro fetch hfetch
            rw [hstate] at hfetch ⊢
            obtain rfl := Option.some.inj hfetch
            obtain ⟨heq, hnow, hnewer⟩ := htaken old hold
            exact ⟨heq, hnow, by rw [hlocal']; exact hnewer⟩
        | drop old hold hqueue hdrop =>
            refine ⟨hwritten.trans (by rw [h.written]; rfl), ?_⟩
            intro fetch hfetch
            rw [hstate] at hfetch
            cases hfetch
        | write old hold hqueue hitems hnewest =>
            obtain ⟨heq, -, l, hl, hnewer⟩ := htaken old hold
            have hle := hnewest l (hlocal.trans hl)
            rw [heq] at hle
            exact absurd hnewer (Nat.not_lt.mpr hle)
  · have hdata' : ∀ data, e.input ≠ .remoteData data := fun data hinput => hdata ⟨data, hinput⟩
    obtain ⟨hfetch, -, hlocal⟩ := handle_of_quiet images c.sync (c.now + e.elapsed)
      hquiet hdata'
    refine ⟨by rw [after_of_quiet hquiet hdata']; exact h.written, ?_⟩
    intro fetch hsome
    rcases hfetch with hnone | hsame
    · cases hnone.symm.trans hsome
    · obtain ⟨heq, -, l, hl, hnewer⟩ := h.dropped fetch (hsame.symm.trans hsome)
      have hnow := hclock fetch (hsame.symm.trans hsome)
      refine ⟨heq, hnow, ?_⟩
      rcases hlocal with hkept | ⟨contents, hset⟩
      · exact ⟨l, hkept.trans hl, hnewer⟩
      · exact ⟨_, hset, hnow⟩

/-! ### Runs -/

def final (images : ImageCodec) (c : Clocked) (m : Exchange) (es : List Timed) : Exchange :=
  (Transition.run (Clocked.step images) c es).2.foldl (observe images) m

theorem final_cons (c : Clocked) (m : Exchange) (e : Timed) (es : List Timed) :
    final images c m (e :: es) =
      final images (after images c m e).1 (after images c m e).2 es := by
  simp only [final, Transition.run_cons, List.foldl_append, after]

theorem final_append (c : Clocked) (m : Exchange) (es ts : List Timed) :
    final images c m (es ++ ts) =
      final images (Transition.run (Clocked.step images) c es).1 (final images c m es) ts := by
  simp only [final, Transition.run_append, List.foldl_append]

theorem Won.run {es : List Timed} (h : Won wanted c m) (hquiet : ∀ e ∈ es, e.input.isQuiet)
    (hanswered : Transition.Along (Clocked.step images) (observe images) (Answered images) c m es) :
    (final images c m es).written = [⟨(final images c m es).answers⟩] ∧
      (final images c m es).answers.length = wanted := by
  induction es generalizing c m with
  | nil => exact ⟨h.written, h.count⟩
  | cons e es ih =>
      rw [final_cons]
      exact ih (h.step (hquiet e List.mem_cons_self) hanswered.1)
        (fun e' he' => hquiet e' (List.mem_cons_of_mem e he')) hanswered.2

theorem Dropped.run {es : List Timed} (h : Dropped announced c m) (images : ImageCodec)
    (hquiet : ∀ e ∈ es, e.input.isQuiet) : (final images c m es).written = [] := by
  induction es generalizing c m with
  | nil => exact h.written
  | cons e es ih =>
      rw [final_cons]
      exact ih (h.step (hquiet e List.mem_cons_self))
        fun e' he' => hquiet e' (List.mem_cons_of_mem e he')

theorem Won.undisturbed {es : List Timed} (h : Won wanted c m) (hquiet : ∀ e ∈ es, e.input.isQuiet)
    (hanswered : Transition.Along (Clocked.step images) (observe images) (Answered images) c m es) :
    Transition.Along (Clocked.step images) (observe images)
      (fun c _ e => c.sync.disturbs (c.now + e.elapsed) e.input = false) c m es := by
  induction es generalizing c m with
  | nil => trivial
  | cons e es ih =>
      refine ⟨by simp [disturbs, h.fetch], ?_⟩
      exact ih (h.step (hquiet e List.mem_cons_self) hanswered.1)
        (fun e' he' => hquiet e' (List.mem_cons_of_mem e he')) hanswered.2

/-- An awaited fetch is written in exactly the runs that do not disturb it. -/
theorem Awaiting.run_iff {es : List Timed} (h : Awaiting announced wanted c m) (hwanted : 0 < wanted)
    (hquiet : ∀ e ∈ es, e.input.isQuiet)
    (hanswered : Transition.Along (Clocked.step images) (observe images) (Answered images) c m es)
    (hend : (final images c m es).pending = []) :
    (final images c m es).written = [⟨(final images c m es).answers⟩] ∧
        (final images c m es).answers.length = wanted ↔
      Transition.Along (Clocked.step images) (observe images)
        (fun c _ e => c.sync.disturbs (c.now + e.elapsed) e.input = false) c m es := by
  induction es generalizing c m with
  | nil =>
      obtain ⟨fetch, hfetch, -⟩ := h.fetch
      obtain ⟨i, hi⟩ := Option.isSome_iff_exists.mp (h.busy (by rw [hfetch]; rfl))
      obtain ⟨r, hpending, -⟩ := h.agrees.wire i hi
      exact absurd (hpending.symm.trans hend) (by simp)
  | cons e es ih =>
      have hrest : ∀ e' ∈ es, e'.input.isQuiet := fun e' he' => hquiet e' (List.mem_cons_of_mem e he')
      have hfirst := hquiet e List.mem_cons_self
      rw [final_cons] at hend ⊢
      cases hdisturbs : c.sync.disturbs (c.now + e.elapsed) e.input with
      | true =>
          have hnone := (h.disturbed images hfirst hdisturbs).run images hrest
          rw [hnone]
          refine ⟨fun hwritten => by simp at hwritten, fun halong => ?_⟩
          cases hdisturbs.symm.trans halong.1
      | false =>
          have hsplit : Transition.Along (Clocked.step images) (observe images)
              (fun c _ e => c.sync.disturbs (c.now + e.elapsed) e.input = false) c m (e :: es) ↔
              Transition.Along (Clocked.step images) (observe images)
                (fun c _ e => c.sync.disturbs (c.now + e.elapsed) e.input = false)
                (after images c m e).1 (after images c m e).2 es :=
            ⟨fun halong => halong.2, fun halong => ⟨hdisturbs, halong⟩⟩
          rw [hsplit]
          rcases h.step hwanted hfirst hanswered.1 hdisturbs with hawaiting | hwon
          · exact ih hawaiting hrest hanswered.2 hend
          · exact ⟨fun _ => hwon.undisturbed hrest hanswered.2, fun _ => hwon.run hrest hanswered.2⟩

end Exchange

/-! ### The accepted list -/

namespace ClipboardSync

theorem notLater_handle {s : ClipboardSync} {time now : Instant} (h : s.NotLater time)
    (htime : time ≤ now) (input : SyncInput) : (s.handle images now input).1.NotLater now := by
  have hkept : ∀ s' : ClipboardSync, s'.local' = s.local' → s'.NotLater now := by
    intro s' hlocal l hl
    exact Nat.le_trans (h l (hlocal.symm.trans hl)) htime
  cases input with
  | remoteFormatList formats =>
      exact hkept _ (by rw [handle, (s.onRemoteList_fetches formats now).state])
  | remoteData data => exact hkept _ (by rw [handle, (onRemoteData_fetches images s data now).state])
  | remoteDataRequest formatId => exact hkept s rfl
  | localWritten changeCount => exact hkept _ rfl
  | tick =>
      simp only [handle, onTick]
      split <;> exact hkept _ rfl
  | initialFormatListRequested =>
      simp only [handle, onInitialRequest]
      split <;> exact hkept _ rfl
  | focus focused =>
      simp only [handle]
      split <;> exact hkept _ rfl
  | prefs prefs =>
      simp only [handle, onPrefs]
      split_ifs <;> exact hkept _ rfl
  | localChanged changeCount contents =>
      have hset : ∀ s' : ClipboardSync, s'.local' = some ⟨contents, now⟩ → s'.NotLater now := by
        intro s' hlocal l hl
        cases hlocal.symm.trans hl
        exact Nat.le_refl _
      simp only [handle, onLocalChange]
      split_ifs
      · exact hkept s rfl
      · exact hset _ rfl
      · exact hset _ rfl
      · exact hset _ rfl
      · exact hset _ rfl

end ClipboardSync

namespace Exchange

/-- What holds after every run with a server that answers. -/
structure Sound (c : Clocked) (m : Exchange) : Prop where
  agrees : c.sync.Agrees m
  busy : c.sync.Busy
  notLater : c.sync.NotLater c.now

theorem Sound.step {e : Timed} (h : Sound c m) (hanswered : Answered images c m e) :
    Sound (after images c m e).1 (after images c m e).2 := by
  have hexchanges := hanswered.exchanges h.agrees h.busy
  exact ⟨hexchanges.agrees, hexchanges.busy, notLater_handle h.notLater (Nat.le_add_right ..) _⟩

theorem sound_history (prefs : ClipboardPrefs) (focused : Bool) {es : List Timed}
    (hes : Transition.Along (Clocked.step images) (observe images) (Answered images)
      (.start prefs focused) start es) :
    Sound (Clocked.history images prefs focused es).1
      ((Clocked.history images prefs focused es).2.foldl (observe images) start) := by
  have hstart : Sound (.start prefs focused) start :=
    ⟨agrees_new prefs focused, by simp [Clocked.start, Busy, new], by simp [Clocked.start, NotLater,
      new]⟩
  have hrun : ∀ (es : List Timed) (c : Clocked) (m : Exchange), Sound c m →
      Transition.Along (Clocked.step images) (observe images) (Answered images) c m es →
      Sound (Transition.run (Clocked.step images) c es).1 (final images c m es) := by
    intro es
    induction es with
    | nil => exact fun c m h _ => h
    | cons e es ih =>
        intro c m h hanswered
        rw [final_cons]
        exact ih _ _ (h.step hanswered.1) hanswered.2
  exact hrun es _ _ hstart hes

theorem Sound.announce {e : Timed} {formats : List ClipFormat} (h : Sound c m)
    (hinput : e.input = .remoteFormatList formats)
    (haccepted : (c.sync.canSync && !c.sync.isEcho formats (c.now + e.elapsed)) = true)
    (hwanted : selectInbound formats c.sync.prefs ≠ []) :
    Awaiting (c.now + e.elapsed) (selectInbound formats c.sync.prefs).length
      (after images c m e).1 (after images c m e).2 := by
  have hexchanges : Exchanges (m.take images c.sync (c.now + e.elapsed) (.remoteFormatList formats))
      (c.now + e.elapsed) (c.sync.onRemoteList formats (c.now + e.elapsed)) :=
    onRemoteList_exchanges images h.agrees h.busy formats
  have hnotLater : ∀ l, c.sync.local' = some l → l.at' ≤ c.now + e.elapsed :=
    fun l hl => Nat.le_trans (h.notLater l hl) (Nat.le_add_right ..)
  have hsync : c.sync.canSync = true := (Bool.and_eq_true_iff.mp haccepted).1
  have hlength : 0 < (selectInbound formats c.sync.prefs).length := List.length_pos_iff.mpr hwanted
  have hstale : ∀ i, c.sync.supersedeFetch.inflight = some i → i.stale = true := by
    intro i hi
    obtain ⟨j, _, rfl⟩ := Option.map_eq_some_iff.mp hi
    rfl
  rw [after_eq, hinput]
  simp only [handle]
  have hstep := c.sync.onRemoteList_step formats (c.now + e.elapsed)
  generalize c.sync.onRemoteList formats (c.now + e.elapsed) = next at hexchanges hstep
  cases hstep with
  | ignore hignored => rw [haccepted] at hignored; cases hignored
  | unwanted _ hqueue => exact absurd hqueue hwanted
  | wait _ _ hinflight =>
      refine ⟨hexchanges.agrees, hexchanges.busy, hsync, ⟨_, rfl, rfl, ?_⟩, hnotLater, ?_⟩
      · obtain ⟨i, hi⟩ := Option.isSome_iff_exists.mp hinflight
        simp [progress, supersedeFetch, hi]
      · simp [take, haccepted, accept]
  | begin _ _ hinflight =>
      have hidle : c.sync.supersedeFetch.inflight = none := by simp [supersedeFetch, hinflight]
      have hprogress : progress { c.sync.supersedeFetch with
          fetch := some ⟨selectInbound formats c.sync.prefs, [], c.now + e.elapsed⟩ }
          ⟨selectInbound formats c.sync.prefs, [], c.now + e.elapsed⟩ =
            (selectInbound formats c.sync.prefs).length := by
        simp [progress, hidle]
      rcases nextFetchStep_of_progress (c.now + e.elapsed) (s := { c.sync.supersedeFetch with
          fetch := some ⟨selectInbound formats c.sync.prefs, [], c.now + e.elapsed⟩ }) rfl hidle
          (by omega) hnotLater with ⟨fetch, hfetch, hcount, hannounced, hnone⟩ | ⟨-, hnil, -⟩
      · have hframe := nextFetchStep_fetches { c.sync.supersedeFetch with
          fetch := some ⟨selectInbound formats c.sync.prefs, [], c.now + e.elapsed⟩ }
          (c.now + e.elapsed)
        refine ⟨hexchanges.agrees, hexchanges.busy, ?_, ⟨fetch, hfetch, hannounced,
          hcount.trans hprogress⟩, ?_, ?_⟩
        · rw [hframe.state]
          exact hsync
        · rw [hframe.state]
          exact hnotLater
        · rw [written_foldl_act, hnone]
          simp [take, haccepted, accept]
      · rw [hprogress] at hnil
        simp at hnil
        omega

/-- **The newest copy wins**, exactly in the runs that do not disturb its fetch. A list with something
wanted is accepted, every request is answered in time with data that can be decoded, and neither
another list nor a change of preference or focus follows: then what the answers decode to is written,
and nothing else, if and only if, while the fetch goes on, no local change is reported after the
announcement or counts as a copy of the user, and no local contents are advertised anew. -/
theorem newest_wins_iff (images : ImageCodec) (prefs : ClipboardPrefs) (focused : Bool)
    (es : List Timed) (e : Timed) (formats : List ClipFormat) (ts : List Timed)
    (hinput : e.input = .remoteFormatList formats)
    (haccepted : let c := (Clocked.history images prefs focused es).1
      (c.sync.canSync && !c.sync.isEcho formats (c.now + e.elapsed)) = true ∧
        selectInbound formats c.sync.prefs ≠ [])
    (hquiet : ∀ t ∈ ts, t.input.isQuiet = true)
    (hanswered : Transition.Along (Clocked.step images) (observe images) (Answered images)
      (.start prefs focused) start (es ++ e :: ts))
    (hend : (final images (.start prefs focused) start (es ++ e :: ts)).pending = []) :
    let c := (Clocked.history images prefs focused es).1
    let m := final images (.start prefs focused) start (es ++ e :: ts)
    (m.written = [⟨m.answers⟩] ∧ m.answers.length = (selectInbound formats c.sync.prefs).length) ↔
      Transition.Along (Clocked.step images) (observe images)
        (fun c _ t => c.sync.disturbs (c.now + t.elapsed) t.input = false)
        (Clocked.history images prefs focused (es ++ [e])).1
        (final images (.start prefs focused) start (es ++ [e])) ts := by
  obtain ⟨hbefore, hrest⟩ := (Transition.along_append ..).mp hanswered
  have hawaiting : Awaiting _ _ (after images _ _ e).1 (after images _ _ e).2 :=
    (sound_history prefs focused hbefore).announce hinput haccepted.1 haccepted.2
  have hstate : (Clocked.history images prefs focused (es ++ [e])).1 =
      (after images (Clocked.history images prefs focused es).1
        (final images (.start prefs focused) start es) e).1 := by
    rw [Clocked.history, Transition.run_concat]
    rfl
  rw [final_append, final_cons] at hend
  rw [hstate, final_append, final_cons, final_append, final_cons]
  exact hawaiting.run_iff (List.length_pos_iff.mpr haccepted.2) hquiet hrest.2 hend

/-- A text and, right after it was written, an image are copied on the server, and then other things
happen. -/
def twoCopies (ts : List Timed) : List Timed :=
  [⟨0, .initialFormatListRequested⟩, ⟨1, .remoteFormatList [.standard cfText]⟩,
    ⟨1, .remoteData (some [97])⟩, ⟨1, .remoteFormatList [.standard cfTiff]⟩] ++ ts

/-- The write of the text is reported at the time the image is announced. -/
theorem newest_wins_twoCopies :
    let m := final sampleImages (.start .textAndImages true) start (twoCopies
      [⟨0, .localChanged 1 ⟨[.text "a"]⟩⟩, ⟨1, .remoteData (some [1])⟩])
    m.written = [⟨m.answers⟩] ∧ m.answers.length = 1 :=
  (newest_wins_iff sampleImages .textAndImages true
    [⟨0, .initialFormatListRequested⟩, ⟨1, .remoteFormatList [.standard cfText]⟩,
      ⟨1, .remoteData (some [97])⟩] ⟨1, .remoteFormatList [.standard cfTiff]⟩ [.standard cfTiff]
    [⟨0, .localChanged 1 ⟨[.text "a"]⟩⟩, ⟨1, .remoteData (some [1])⟩] rfl (by decide) (by decide)
    (by decide) (by decide)).mpr (by decide)

/-- The write of the text is reported later, as an own write: the image is fetched and dropped. -/
theorem not_newest_wins_reported :
    let ts : List Timed := [⟨1, .localChanged 1 ⟨[.text "a"]⟩⟩, ⟨1, .remoteData (some [1])⟩]
    let m := final sampleImages (.start .textAndImages true) start (twoCopies ts)
    (Clocked.history sampleImages .textAndImages true (twoCopies [])).1.sync.isOwn 1
        ⟨[.text "a"]⟩ = true ∧
      Transition.Along (Clocked.step sampleImages) (observe sampleImages) (Answered sampleImages)
        (.start .textAndImages true) start (twoCopies ts) ∧
      m.pending = [] ∧ m.answers = [.tiff [1]] ∧ ¬ m.written = [⟨m.answers⟩] := by
  decide

end Exchange

end Drift.Clipboard
