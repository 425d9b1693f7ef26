import Drift.Video.Decoder
import Mathlib.Data.List.Induction
import Mathlib.Tactic.Common

/-!
# Sessions and parameter sets

A session exists exactly when a pair of parameter sets is active, and was built from that pair. The tracker
is ahead of the session only between its decision and the rebuilding, whose failure takes it back.
-/

namespace Drift.Video

variable {Format Handle Sample Image : Type}

theorem ParameterSetTracker.observe_cases (t : ParameterSetTracker) (au : AccessUnit) :
    t.observe au = (t, .notReady) ∨ (t.observe au = (t, .keep) ∧ t.active.isSome) ∨
      ∃ sets, t.observe au = (⟨some sets⟩, .rebuild sets) := by
  unfold observe
  by_cases hnone : (au.sps.isEmpty && au.pps.isEmpty) = true
  · rw [if_pos hnone]
    cases hactive : t.active with
    | none => exact .inl rfl
    | some sets => exact .inr (.inl ⟨rfl, rfl⟩)
  · rw [if_neg hnone]
    split
    · next sps pps _ _ =>
        by_cases hsame : t.active = some ⟨sps, pps⟩
        · rw [if_pos hsame]
          exact .inr (.inl ⟨rfl, by rw [hsame]; rfl⟩)
        · rw [if_neg hsame]
          exact .inr (.inr ⟨⟨sps, pps⟩, rfl⟩)
    · exact .inl rfl

namespace DecoderEvent

/-- The pair and the session of a successful build. -/
def built? : DecoderEvent Format Handle → Option (ParameterSets × DecoderSession Format Handle)
  | .built sets session => some (sets, session)
  | _ => none

end DecoderEvent

def lastBuilt (events : List (DecoderEvent Format Handle)) :
    Option (ParameterSets × DecoderSession Format Handle) :=
  (events.filterMap DecoderEvent.built?).getLast?

namespace VtDecoder

/-- The decoder and the events so far agree. -/
structure Agrees (d : VtDecoder Format Handle Image) (events : List (DecoderEvent Format Handle)) :
    Prop where
  session : ∀ session, d.session = some session →
    ∃ sets, d.tracker.active = some sets ∧ lastBuilt events = some (sets, session)
  active : d.session = none → d.tracker.active = none
  kept : .keptNothing ∉ events
  shown : .noSession ∉ events

theorem agrees_new : Agrees (new : VtDecoder Format Handle Image) [] :=
  ⟨nofun, fun _ => rfl, List.not_mem_nil, List.not_mem_nil⟩

variable {d : VtDecoder Format Handle Image} {events : List (DecoderEvent Format Handle)}

/-- Without a session and without a pair, the events before do not matter. -/
theorem Agrees.emptied (h : Agrees d events) {d' : VtDecoder Format Handle Image}
    (hsession : d'.session = none) (hactive : d'.tracker.active = none)
    {more : List (DecoderEvent Format Handle)} (hkept : .keptNothing ∉ more) (hshown : .noSession ∉ more) :
    Agrees d' (events ++ more) where
  session session heq := by
    rw [hsession] at heq
    exact nomatch heq
  active _ := hactive
  kept hmem := (List.mem_append.mp hmem).elim h.kept hkept
  shown hmem := (List.mem_append.mp hmem).elim h.shown hshown

theorem Agrees.rebuild (h : Agrees d events) (vt : VideoToolbox Format Handle Sample Image)
    (sets : ParameterSets) :
    let rebuilt := VtDecoder.rebuild vt { d with tracker := ⟨some sets⟩ } sets
    Agrees rebuilt.decoder (events ++ rebuilt.events) ∧
      (rebuilt.result = .ok () → rebuilt.decoder.session.isSome) := by
  unfold VtDecoder.rebuild
  cases buildSession vt sets with
  | error e => exact ⟨h.emptied rfl rfl (by simp) (by simp), nofun⟩
  | ok session =>
      refine ⟨⟨?_, nofun, ?_, ?_⟩, fun _ => rfl⟩
      · intro session' heq
        refine ⟨sets, rfl, ?_⟩
        rw [← Option.some.inj heq, lastBuilt, List.filterMap_append]
        exact List.getLast?_concat
      · exact fun hmem => (List.mem_append.mp hmem).elim h.kept (by simp)
      · exact fun hmem => (List.mem_append.mp hmem).elim h.shown (by simp)

theorem Agrees.prepare (h : Agrees d events) (vt : VideoToolbox Format Handle Sample Image)
    (au : AccessUnit) :
    let prepared := VtDecoder.prepare vt d au
    Agrees prepared.decoder (events ++ prepared.events) ∧
      (prepared.result = .ok true → prepared.decoder.session.isSome) := by
  unfold VtDecoder.prepare
  rcases d.tracker.observe_cases au with heq | ⟨heq, hactive⟩ | ⟨sets, heq⟩
  · simp only [heq]
    rw [List.append_nil]
    exact ⟨h, nofun⟩
  · -- A pair is active, so there is a session.
    have hsession : d.session.isSome = true := by
      cases hsession : d.session with
      | none =>
          rw [h.active hsession] at hactive
          exact absurd hactive Bool.false_ne_true
      | some session => rfl
    simp only [heq]
    rw [if_pos hsession, List.append_nil]
    exact ⟨h, fun _ => hsession⟩
  · simp only [heq]
    obtain ⟨hagrees, hbuilt⟩ := h.rebuild vt sets
    refine ⟨hagrees, fun hresult => hbuilt ?_⟩
    cases hrebuilt : (VtDecoder.rebuild vt { d with tracker := ⟨some sets⟩ } sets).result with
    | ok u => rfl
    | error e =>
        rw [hrebuilt] at hresult
        exact nomatch hresult

theorem decodeSample_fst (vt : VideoToolbox Format Handle Sample Image) (d : VtDecoder Format Handle Image)
    (session : DecoderSession Format Handle) (avcc : Bytes) :
    (d.decodeSample vt session avcc).1.session = d.session ∧
      (d.decodeSample vt session avcc).1.tracker = d.tracker := by
  unfold decodeSample
  cases makeSample vt avcc session.format with
  | error e => exact ⟨rfl, rfl⟩
  | ok sample =>
      simp only
      split <;> exact ⟨rfl, rfl⟩

/-- A call keeps the session and the tracker that `prepare` leaves, and reports no other events if they
agree. -/
theorem decodePicture_spec (h : Agrees d events) (vt : VideoToolbox Format Handle Sample Image)
    (annexB : Bytes) :
    let decoding := d.decodePicture vt annexB
    (decoding.decoder = d ∧ decoding.events = []) ∨
      ∃ au, decoding.decoder.session = (VtDecoder.prepare vt d au).decoder.session ∧
        decoding.decoder.tracker = (VtDecoder.prepare vt d au).decoder.tracker ∧
        decoding.events = (VtDecoder.prepare vt d au).events := by
  unfold decodePicture
  cases AccessUnit.fromAnnexB annexB with
  | error e => exact .inl ⟨rfl, rfl⟩
  | ok au =>
      right
      refine ⟨au, ?_⟩
      have hready := (h.prepare vt au).2
      simp only
      split
      · exact ⟨rfl, rfl, rfl⟩
      · next ready hresult =>
          by_cases hskip : (!ready || !au.hasPicture) = true
          · rw [if_pos hskip]
            exact ⟨rfl, rfl, rfl⟩
          · rw [if_neg hskip]
            have htrue : ready = true := by
              cases ready with
              | false => exact absurd rfl hskip
              | true => rfl
            have hsome := hready (htrue ▸ hresult)
            split
            · next hnone =>
                rw [hnone] at hsome
                exact absurd hsome Bool.false_ne_true
            · next session _ =>
                obtain ⟨hsession, htracker⟩ :=
                  decodeSample_fst vt (VtDecoder.prepare vt d au).decoder session au.avcc
                exact ⟨hsession, htracker, rfl⟩

theorem Agrees.step (h : Agrees d events) (call : VideoToolbox Format Handle Sample Image × DecoderCall) :
    Agrees (d.step call).1 (events ++ (d.step call).2) := by
  obtain ⟨vt, call⟩ := call
  cases call with
  | reset => exact h.emptied rfl rfl List.not_mem_nil List.not_mem_nil
  | decode annexB =>
      rcases decodePicture_spec h vt annexB with ⟨hdecoder, hevents⟩ | ⟨au, hsession, htracker, hevents⟩
      · show Agrees (d.decodePicture vt annexB).decoder (events ++ (d.decodePicture vt annexB).events)
        rw [hdecoder, hevents, List.append_nil]
        exact h
      · show Agrees (d.decodePicture vt annexB).decoder (events ++ (d.decodePicture vt annexB).events)
        rw [hevents]
        have hprepared := (h.prepare vt au).1
        constructor
        case session =>
          intro session heq
          rw [htracker]
          exact hprepared.session session (hsession ▸ heq)
        case active =>
          intro hnone
          rw [htracker]
          exact hprepared.active (hsession ▸ hnone)
        case kept => exact hprepared.kept
        case shown => exact hprepared.shown

/-! ### Where events come from -/

/-- What a build reports is what VideoToolbox answered, and a failure leaves neither session nor pair. -/
structure Reports (vt : VideoToolbox Format Handle Sample Image) (d : VtDecoder Format Handle Image)
    (events : List (DecoderEvent Format Handle)) : Prop where
  built : ∀ sets session, .built sets session ∈ events → buildSession vt sets = .ok session
  failed : ∀ sets e, .failed sets e ∈ events →
    buildSession vt sets = .error e ∧ d.session = none ∧ d.tracker.active = none

theorem reports_nil (vt : VideoToolbox Format Handle Sample Image) (d : VtDecoder Format Handle Image) :
    Reports vt d [] :=
  ⟨nofun, nofun⟩

theorem reports_rebuild (vt : VideoToolbox Format Handle Sample Image) (d : VtDecoder Format Handle Image)
    (sets : ParameterSets) :
    Reports vt (VtDecoder.rebuild vt d sets).decoder (VtDecoder.rebuild vt d sets).events := by
  unfold VtDecoder.rebuild
  cases hbuild : buildSession vt sets with
  | ok session =>
      constructor
      · intro sets' session' hmem
        cases List.mem_singleton.mp hmem
        exact hbuild
      · intro sets' e hmem
        cases List.mem_singleton.mp hmem
  | error e =>
      constructor
      · intro sets' session' hmem
        cases List.mem_singleton.mp hmem
      · intro sets' e' hmem
        cases List.mem_singleton.mp hmem
        exact ⟨hbuild, rfl, rfl⟩

theorem reports_step (h : Agrees d events) (call : VideoToolbox Format Handle Sample Image × DecoderCall) :
    Reports call.1 (d.step call).1 (d.step call).2 := by
  obtain ⟨vt, call⟩ := call
  cases call with
  | reset => exact reports_nil vt _
  | decode annexB =>
      show Reports vt (d.decodePicture vt annexB).decoder (d.decodePicture vt annexB).events
      rcases decodePicture_spec h vt annexB with ⟨hdecoder, hevents⟩ | ⟨au, hsession, htracker, hevents⟩
      · rw [hdecoder, hevents]
        exact reports_nil vt d
      · have hprepared : Reports vt (VtDecoder.prepare vt d au).decoder
            (VtDecoder.prepare vt d au).events := by
          have hkept := (h.prepare vt au).1.kept
          unfold VtDecoder.prepare at hkept ⊢
          rcases d.tracker.observe_cases au with heq | ⟨heq, hactive⟩ | ⟨sets, heq⟩
          · simp only [heq]
            exact reports_nil vt _
          · simp only [heq] at hkept ⊢
            split
            · exact reports_nil vt _
            · next hnone =>
                rw [if_neg hnone] at hkept
                split at hkept <;> exact absurd (List.mem_append_right _ List.mem_cons_self) hkept
          · simp only [heq]
            exact reports_rebuild vt _ sets
        rw [hevents]
        refine ⟨hprepared.built, fun sets e hmem => ?_⟩
        rw [hsession, htracker]
        exact hprepared.failed sets e hmem

/-- **Sessions match the parameter sets.** After any calls a session exists exactly when a pair is active, it
is the one last built and was built from that pair, the branches for a missing session are never taken, and a
failed build leaves neither. -/
theorem session_matches_parameters
    (calls : List (VideoToolbox Format Handle Sample Image × DecoderCall)) :
    let run := Transition.run step (new : VtDecoder Format Handle Image) calls
    (run.1.session.isSome = run.1.tracker.active.isSome) ∧
      (∀ session, run.1.session = some session → ∃ sets, run.1.tracker.active = some sets ∧
        lastBuilt run.2 = some (sets, session) ∧
        ∃ call ∈ calls, buildSession call.1 sets = .ok session) ∧
      .keptNothing ∉ run.2 ∧ .noSession ∉ run.2 ∧
      ∀ (call : VideoToolbox Format Handle Sample Image × DecoderCall) sets e,
        .failed sets e ∈ (run.1.step call).2 →
          buildSession call.1 sets = .error e ∧ (run.1.step call).1.session = none ∧
            (run.1.step call).1.tracker.active = none := by
  intro run
  have hrun : Agrees run.1 run.2 ∧ ∀ sets session, .built sets session ∈ run.2 →
      ∃ call ∈ calls, buildSession call.1 sets = .ok session := by
    induction calls using List.reverseRecOn with
    | nil => exact ⟨agrees_new, nofun⟩
    | append_singleton calls call ih =>
        obtain ⟨hagrees, hbuilt⟩ := ih
        have hconcat := Transition.run_concat step (new : VtDecoder Format Handle Image) calls call
        have heq : run = _ := hconcat
        rw [heq]
        refine ⟨hagrees.step call, fun sets session hmem => ?_⟩
        rcases List.mem_append.mp hmem with hmem | hmem
        · obtain ⟨earlier, hearlier, hbuild⟩ := hbuilt sets session hmem
          exact ⟨earlier, List.mem_append_left _ hearlier, hbuild⟩
        · exact ⟨call, List.mem_concat_self, (reports_step hagrees call).built sets session hmem⟩
  obtain ⟨hagrees, hbuilt⟩ := hrun
  refine ⟨?_, fun session hsession => ?_, hagrees.kept, hagrees.shown, fun call sets e hmem => ?_⟩
  · cases hsession : run.1.session with
    | none => rw [hagrees.active hsession]; rfl
    | some session =>
        obtain ⟨sets, hactive, -⟩ := hagrees.session session hsession
        rw [hactive]
        rfl
  · obtain ⟨sets, hactive, hlast⟩ := hagrees.session session hsession
    refine ⟨sets, hactive, hlast, hbuilt sets session ?_⟩
    obtain ⟨event, hevent, heq⟩ := List.mem_filterMap.mp (List.mem_of_getLast? hlast)
    cases event with
    | built sets' session' =>
        cases heq
        exact hevent
    | failed sets' e => exact nomatch heq
    | keptNothing => exact nomatch heq
    | noSession => exact nomatch heq
  · exact (reports_step hagrees call).failed sets e hmem

end VtDecoder

end Drift.Video
