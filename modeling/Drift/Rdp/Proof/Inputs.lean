import Drift.Rdp.Proof.Announced
import Drift.Rdp.Proof.Turned

/-!
# What the server is sent as input

The frames of input in a record, and the operations that write none: on a leg all but a received input event,
the typing of the password and the resynchronisation at its activation, and between legs all of them.
-/

namespace Drift.Rdp

open Input Clipboard Gfx Outcome Transition

variable {Geometry : Type}

/-! ### Input in a record -/

/-- The input events in a record, one list for each frame. -/
def inputFrames (outs : List (Out Geometry)) : List (List FastPathInputEvent) :=
  outs.filterMap fun
    | .wrote (.input events) => some events
    | _ => none

theorem inputFrames_append (os ps : List (Out Geometry)) :
    inputFrames (os ++ ps) = inputFrames os ++ inputFrames ps := List.filterMap_append

def Out.isInput : Out Geometry → Bool
  | .wrote (.input _) => true
  | _ => false

theorem inputFrames_eq_nil {os : List (Out Geometry)} (h : ∀ o ∈ os, o.isInput = false) :
    inputFrames os = [] := by
  refine List.filterMap_eq_nil_iff.mpr fun o ho => ?_
  have hother := h o ho
  split
  · cases hother
  · rfl

/-- The program writes no input. -/
abbrev Inputless {σ ε : Type} (r : Outcome σ (Out Geometry) ε) : Prop := r.Emits fun o => o.isInput = false

/-- The input frames of a program that writes no other input behind them. -/
theorem inputFrames_andThen {σ ε : Type} {r : Outcome σ (Out Geometry) ε} {f : σ → Outcome σ (Out Geometry) ε}
    (hf : ∀ s, Inputless (f s)) : inputFrames (r.andThen f).outs = inputFrames r.outs := by
  unfold Outcome.andThen
  split
  · rfl
  · rw [inputFrames_append, inputFrames_eq_nil (hf _), List.append_nil]

/-! ### Operations of a leg -/

namespace Live

theorem write_inputless (l : Live Geometry) {frame : Frame}
    (hframe : (Out.wrote frame : Out Geometry).isInput = false) : Inputless (l.write frame) := by
  unfold write
  split
  · exact emits_output hframe
  · exact emits_of_nil rfl
  · exact emits_output hframe

theorem applyVisibility_inputless (l : Live Geometry) (visible : Bool) :
    Inputless (l.applyVisibility visible) := by
  unfold applyVisibility
  split
  · exact write_inputless _ rfl
  · exact (l.write_inputless rfl).andThen fun l => emits_of_nil rfl

theorem applyHidden_inputless (l : Live Geometry) : Inputless l.applyHidden := by
  unfold applyHidden
  split
  · exact emits_of_nil rfl
  · exact l.applyVisibility_inputless false

section Clipboard

variable (platform : Platform Geometry) (now : Instant) (l : Live Geometry)

theorem applyAction_inputless (action : SyncAction) : Inputless (l.applyAction platform action) := by
  cases action with
  | sendFormatList formats =>
      simp only [applyAction]
      split
      · exact emits_of_nil rfl
      · exact l.write_inputless rfl
  | requestRemoteData format =>
      simp only [applyAction]
      split
      · exact emits_of_nil rfl
      · exact emits_of_nil rfl
      · exact l.write_inputless rfl
  | sendData formatId data =>
      simp only [applyAction]
      split
      · exact emits_of_nil rfl
      · exact emits_of_nil rfl
      · exact l.write_inputless rfl
  | writePasteboard contents => exact emits_output rfl
  | rejected error => exact emits_of_nil rfl

theorem feed_inputless (inputs : List SyncInput) : Inputless (l.feed platform now inputs) := by
  unfold feed
  split
  · exact emits_of_nil rfl
  · refine Emits.andThen ?_ fun l => emits_forEach l _ fun l action => l.applyAction_inputless platform action
    intro o ho
    obtain ⟨canSync, input, actions, rfl⟩ := clip_of_mem_handleAll ho
    rfl

theorem feedLocal_inputless (contents : ClipboardContents) :
    Inputless (l.feedLocal platform now contents) := feed_inputless _ _ _ _

theorem replayLocal_inputless : Inputless (l.replayLocal platform now) := by
  unfold replayLocal
  split
  · exact emits_of_nil rfl
  · exact feedLocal_inputless _ _ _ _

theorem pollResize_inputless : Inputless (l.pollResize platform now) := by
  unfold pollResize
  simp only
  split
  · exact emits_of_nil rfl
  · split
    · exact write_inputless _ rfl
    · exact emits_of_nil rfl

theorem onOutput_inputless (output : ActiveStageOutput) : Inputless (l.onOutput output) := by
  cases output with
  | pointer => exact emits_output rfl
  | responseFrame => exact l.write_inputless rfl
  | serverRedirect pdu => exact emits_of_nil rfl
  | terminate reason => cases reason <;> exact emits_of_nil rfl
  | other => exact emits_of_nil rfl

theorem onPdu_inputless (pdu : ServerPdu) : Inputless (l.onPdu platform now pdu) := by
  refine Emits.andThen ?_ fun l => ?_
  · intro o ho
    obtain ⟨frameId, hidden, rfl⟩ := Leg.frameEnded_of_mem_onChannels ho
    rfl
  cases pdu.result with
  | error e => exact emits_of_nil rfl
  | ok outputs =>
      exact (emits_forEach l outputs fun l output => l.onOutput_inputless output).andThen fun l =>
        feed_inputless _ _ _ _

end Clipboard

theorem flushAcks_inputless (l : Live Geometry) : Inputless l.flushAcks := by
  unfold flushAcks
  split
  · simp only
    split
    · exact emits_of_nil rfl
    · exact write_inputless _ rfl
  · exact emits_of_nil rfl

theorem present_inputless (l : Live Geometry) (index : Nat) : Inputless (l.present index) := by
  intro o ho
  obtain ⟨frameId, ack, rfl⟩ := presented_of_mem_present ho
  rfl

end Live

theorem Actor.setState_inputless (a : Actor Geometry) (next : SessionState) :
    ∀ o ∈ (a.setState next).2, o.isInput = false := by
  intro o ho
  unfold Actor.setState at ho
  split_ifs at ho <;> simp_all [Out.isInput]

namespace Live

theorem onOutputSize_inputless (l : Live Geometry) : Inputless l.onOutputSize := by
  unfold onOutputSize
  split
  · exact emits_of_nil rfl
  · split
    · exact Actor.setState_inputless _ _
    · exact emits_of_nil rfl

/-- The frames of input are the first ones of the events, all of them unless the link fails. -/
theorem inputFrames_sendInputEvents (l : Live Geometry) (events : List FastPathInputEvent) :
    inputFrames (l.sendInputEvents events).outs <+: events.toChunks FastPathInput.maxEvents := by
  unfold sendInputEvents
  split
  · exact List.nil_prefix
  induction events.toChunks FastPathInput.maxEvents generalizing l with
  | nil => exact List.nil_prefix
  | cons chunk chunks ih =>
      have hwrite : (l.write (.input chunk)).exit ≠ none ∧ (l.write (.input chunk)).outs = [] ∨
          (l.write (.input chunk)).exit = none ∧
            (l.write (.input chunk)).outs = [.wrote (.input chunk)] := by
        unfold write
        split
        · exact .inr ⟨rfl, rfl⟩
        · exact .inl ⟨nofun, rfl⟩
        · exact .inr ⟨rfl, rfl⟩
      rw [forEach]
      unfold Outcome.andThen
      rcases hwrite with ⟨hexit, houts⟩ | ⟨hexit, houts⟩
      · split
        · rw [houts]
          exact List.nil_prefix
        · next hnone => exact absurd hnone hexit
      · rw [hexit]
        simp only
        rw [houts, inputFrames_append]
        exact List.cons_prefix_cons.mpr ⟨rfl, ih _⟩

end Live

/-- The input that a command asks for. -/
def SessionCommand.inputOf (e : InputEncoder) : SessionCommand Geometry → List FastPathInputEvent
  | .input event => (e.encode event).2
  | _ => []

/-- The input that tells the server of a new leg what is held and which locks are on. -/
def Actor.resync (a : Actor Geometry) : List FastPathInputEvent :=
  if a.activations = 0 then [] else (a.input.encodeAll [.releaseAll, a.input.lastToggles]).2

namespace Live

theorem inputFrames_onCommand [BEq Geometry] (cfg : Config Geometry) (now : Instant) (l : Live Geometry)
    (cmd : SessionCommand Geometry) :
    inputFrames (l.onCommand cfg now cmd).outs <+:
      (cmd.inputOf l.actor.input).toChunks FastPathInput.maxEvents := by
  have hnone : Inputless (l.onCommand cfg now cmd) → inputFrames (l.onCommand cfg now cmd).outs <+:
      (cmd.inputOf l.actor.input).toChunks FastPathInput.maxEvents := by
    intro h
    rw [inputFrames_eq_nil h]
    exact List.nil_prefix
  cases cmd with
  | input event => exact inputFrames_sendInputEvents _ _
  | setVisible visible =>
      apply hnone
      simp only [onCommand]
      split
      · exact emits_of_nil rfl
      · exact applyVisibility_inputless _ _
  | focus focused => exact hnone (feed_inputless _ _ _ _)
  | clipboardLocalChanged contents => exact hnone (feedLocal_inputless _ _ _ _)
  | _ => exact hnone (emits_of_nil rfl)

theorem inputFrames_onActivated (cfg : Config Geometry) (now : Instant) (l : Live Geometry) :
    inputFrames (l.onActivated cfg now).outs <+: l.actor.resync.toChunks FastPathInput.maxEvents := by
  have hrest : inputFrames (l.onActivated cfg now).outs =
      inputFrames (l.welcome cfg now).resyncInput.outs := by
    have hafter := inputFrames_andThen (r := (l.welcome cfg now).resyncInput) (f := fun l =>
      Outcome.andThen
        ({ l with actor := { l.actor with activations := l.actor.activations + 1 } } : Live
          Geometry).applyHidden fun l => l.replayLocal cfg.platform now) fun l =>
        (applyHidden_inputless _).andThen fun l => replayLocal_inputless _ _ l
    exact hafter
  rw [hrest]
  unfold resyncInput Actor.resync
  have hactivations : (l.welcome cfg now).actor.activations = l.actor.activations := rfl
  rw [hactivations]
  split
  · exact List.nil_prefix
  · exact inputFrames_sendInputEvents _ _

end Live

/-! ### Turns -/

section Turns

variable {cfg : Config Geometry} {s : Session Geometry}

/-- The operation writes no input, and no leg is up at its end. -/
structure Leaves (r : Turn Geometry) : Prop where
  inputless : Inputless r
  stage : r.state.phase.stage ≠ .active

theorem setState_inputless {next : SessionState} {f : Session Geometry → Turn Geometry}
    (hf : ∀ s, Inputless (f s)) : Inputless ((s.setState next).andThen f) :=
  Emits.andThen (s.actor.setState_inputless next) hf

theorem setState_leaves {next : SessionState} {f : Session Geometry → Turn Geometry}
    (hf : ∀ s, Leaves (f s)) : Leaves ((s.setState next).andThen f) :=
  ⟨setState_inputless fun s => (hf s).inputless, (hf _).stage⟩

theorem enter_leaves {phase : Phase Geometry} (hphase : phase.stage ≠ .active) (s : Session Geometry) :
    Leaves (s.enter phase) :=
  ⟨emits_of_nil rfl, hphase⟩

theorem exitUserClosed_leaves : Leaves s.exitUserClosed := setState_leaves (enter_leaves nofun)

theorem stop_leaves {state : SessionState} : Leaves (s.stop state) := setState_leaves (enter_leaves nofun)

theorem connectOne_leaves {redirects : RedirectLoop} {request : LegRequest} :
    Leaves (s.connectOne cfg redirects request) := by
  unfold Session.connectOne
  simp only
  split
  · exact exitUserClosed_leaves
  · exact setState_leaves (enter_leaves nofun)

theorem connectLoop_leaves : Leaves (s.connectLoop cfg) := connectOne_leaves

theorem waitBackoff_leaves {deadline : Option Instant} {reason : DisconnectReason} :
    Leaves (s.waitBackoff cfg deadline reason) := by
  unfold Session.waitBackoff
  split
  · exact connectLoop_leaves
  · exact enter_leaves (by simp [Phase.stage]) s

theorem enterBackoff_leaves {attempt : Nat} {delay : Duration} {reason : DisconnectReason} :
    Leaves (s.enterBackoff cfg attempt delay reason) :=
  setState_leaves fun _ => waitBackoff_leaves

theorem afterDisconnect_leaves {reason : DisconnectReason} :
    Leaves (s.afterDisconnect cfg reason) := by
  unfold Session.afterDisconnect
  split
  · exact exitUserClosed_leaves
  · split
    · exact stop_leaves
    · simp only
      split
      · exact enterBackoff_leaves
      · exact enterBackoff_leaves
      · exact stop_leaves

theorem endLeg_leaves {redirects : RedirectLoop} (legEnd : LegEnd) :
    Leaves (s.endLeg cfg redirects legEnd) := by
  cases legEnd with
  | redirect pdu =>
      simp only [Session.endLeg, Session.redirect]
      split
      · exact afterDisconnect_leaves
      · exact connectOne_leaves
  | closed => exact exitUserClosed_leaves
  | ended reason => exact afterDisconnect_leaves

theorem afterCertificate_inputless {redirects : RedirectLoop} {request : LegRequest} {leafDer : Bytes} :
    Inputless (s.afterCertificate cfg redirects request leafDer) := by
  unfold Session.afterCertificate
  split
  · refine setState_inputless fun s => Emits.andThen ?_ fun s => emits_of_nil rfl
    exact emits_output rfl
  · exact afterDisconnect_leaves.inputless

theorem checkLeaf_inputless {redirects : RedirectLoop} {request : LegRequest} {leafDer : Bytes} :
    Inputless (s.checkLeaf cfg redirects request leafDer) := by
  unfold Session.checkLeaf
  split
  · exact afterCertificate_inputless
  · exact afterDisconnect_leaves.inputless
  · split
    · exact afterCertificate_inputless
    · refine Emits.andThen ?_ fun s => emits_of_nil rfl
      exact emits_output rfl

theorem onConnect_inputless {redirects : RedirectLoop} {request : LegRequest} {handshake : Handshake}
    {e : Event Geometry}
    (he : ∀ desktop clipboard link, handshake = .finalizing → e ≠ .finalized desktop clipboard link) :
    Inputless (s.onConnect cfg redirects request handshake e) := by
  unfold Session.onConnect
  split
  · exact setState_inputless fun s => emits_of_nil rfl
  · exact checkLeaf_inputless
  · next desktop clipboard link => exact absurd rfl (he desktop clipboard link rfl)
  · exact afterDisconnect_leaves.inputless
  · split
    · exact exitUserClosed_leaves.inputless
    · exact emits_of_nil rfl
  · exact emits_of_nil rfl

theorem shutdown_leaves {leg : Leg} : Leaves (s.shutdown leg) := by
  unfold Session.shutdown
  refine ⟨Emits.andThen (Live.write_inputless _ rfl) fun s => ?_, ?_⟩
  · split
    · exact emits_of_nil rfl
    · exact exitUserClosed_leaves.inputless
  · simp only [andThen_none]
    split
    · exact nofun
    · exact exitUserClosed_leaves.stage

theorem shutdownPdu_inputless {leg : Leg} {pdu : ServerPdu} : Inputless (s.shutdownPdu leg pdu) := by
  unfold Session.shutdownPdu
  refine Emits.andThen ?_ fun s => ?_
  · intro o ho
    obtain ⟨frameId, hidden, rfl⟩ := Leg.frameEnded_of_mem_onChannels ho
    rfl
  · split
    · exact exitUserClosed_leaves.inputless
    · split
      · exact exitUserClosed_leaves.inputless
      · exact emits_of_nil rfl

theorem continueLeg_cases (cfg : Config Geometry) (s : Session Geometry) (redirects : RedirectLoop)
    (run : LegRun Geometry) :
    inputFrames (s.continueLeg cfg redirects run).outs = inputFrames run.outs ∧
      ((s.continueLeg cfg redirects run).state.phase.stage = .active →
        (s.continueLeg cfg redirects run).state.phase = .active redirects run.state.leg ∧
          (s.continueLeg cfg redirects run).state.actor = run.state.actor) := by
  unfold Session.continueLeg
  simp only [andThen_none]
  cases run.exit with
  | none => exact ⟨by rw [inputFrames_append]; exact List.append_nil _, fun _ => ⟨rfl, rfl⟩⟩
  | some legEnd =>
      have hleaves : Leaves (Session.endLeg cfg
          { s with actor := run.state.actor, phase := .active redirects run.state.leg } redirects legEnd) :=
        endLeg_leaves legEnd
      refine ⟨?_, fun hactive => absurd hactive hleaves.stage⟩
      rw [inputFrames_append, inputFrames_eq_nil hleaves.inputless, List.append_nil]

theorem inputFrames_activate {redirects : RedirectLoop} {desktop : Size} {clipboard : Bool}
    {link : Option (Nat × IoFailure)} :
    inputFrames (s.activate cfg redirects desktop clipboard link).outs <+:
      s.actor.resync.toChunks FastPathInput.maxEvents := by
  have hup : ∀ s' : Session Geometry, s'.actor.resync = s.actor.resync →
      inputFrames (s'.continueLeg cfg redirects (Live.onActivated cfg s'.now
        ⟨s'.actor, Leg.new desktop clipboard link⟩)).outs <+:
          s.actor.resync.toChunks FastPathInput.maxEvents := by
    intro s' hsame
    rw [(continueLeg_cases ..).1, ← hsame]
    exact Live.inputFrames_onActivated ..
  unfold Session.activate
  cases redirects.onActivated desktop s.actor.scale with
  | none => exact hup s rfl
  | some state =>
      have hset : (s.actor.setState state).1.resync = s.actor.resync := by
        unfold Actor.setState
        split_ifs <;> rfl
      have hshown : inputFrames (s.setState state).outs = [] :=
        inputFrames_eq_nil (s.actor.setState_inputless state)
      have hlater := hup (s.setState state).state hset
      simp only [Session.setState, andThen_none, inputFrames_append] at hshown hlater ⊢
      rw [hshown, List.nil_append]
      exact hlater

theorem decideCertificate_inputless {redirects : RedirectLoop} {request : LegRequest} {leafDer : Bytes}
    {cmd : Option (SessionCommand Geometry)} :
    Inputless (s.decideCertificate cfg redirects request leafDer cmd) := by
  unfold Session.decideCertificate
  split
  · exact afterDisconnect_leaves.inputless
  · exact afterDisconnect_leaves.inputless
  · exact afterDisconnect_leaves.inputless
  · split
    · refine Emits.andThen ?_ fun s => afterCertificate_inputless
      intro o ho
      simp only at ho
      split at ho
      · rw [List.mem_singleton.mp ho]
        rfl
      · cases ho
    · exact emits_of_nil rfl
  · exact emits_of_nil rfl

variable [BEq Geometry]

/-- What a loop outside a leg does with a command writes no input. -/
theorem handle_inputless {cmd : Option (SessionCommand Geometry)}
    (hphase : ∀ redirects leg, s.phase ≠ .active redirects leg) : Inputless (s.handle cfg cmd) := by
  unfold Session.handle
  split
  · unfold Session.collectInitialState
    split
    · exact connectLoop_leaves.inputless
    · exact connectLoop_leaves.inputless
    · exact emits_of_nil rfl
  · exact decideCertificate_inputless
  · next redirects leg hactive => exact absurd hactive (hphase redirects leg)
  · unfold Session.receiveBackoff
    split
    · exact exitUserClosed_leaves.inputless
    · exact exitUserClosed_leaves.inputless
    · exact stop_leaves.inputless
    · split
      · exact connectLoop_leaves.inputless
      · exact waitBackoff_leaves.inputless
    · simp only
      split
      · exact connectLoop_leaves.inputless
      · exact waitBackoff_leaves.inputless
    · exact waitBackoff_leaves.inputless
  · unfold Session.receiveIdle
    split
    · exact emits_of_nil rfl
    · exact emits_of_nil rfl
    · exact connectLoop_leaves.inputless
    · exact emits_of_nil rfl
    · exact emits_of_nil rfl
  · exact emits_of_nil rfl
  · exact emits_of_nil rfl
  · exact emits_of_nil rfl

theorem receive_inputless (hphase : ∀ redirects leg, s.phase ≠ .active redirects leg) :
    Inputless (s.receive cfg) := by
  unfold Session.receive
  split
  · next loop s' cmd _ hnext =>
      obtain ⟨hsame, -⟩ := next_eq_some hnext
      intro o ho
      rcases List.mem_cons.mp ho with rfl | ho
      · rfl
      · refine handle_inputless ?_ o ho
        rw [hsame]
        exact hphase
  · exact emits_of_nil rfl

/-- A turn outside a leg writes no input, the one that brings a leg up apart. -/
theorem turn_inputless {e : Event Geometry} (hphase : ∀ redirects leg, s.phase ≠ .active redirects leg)
    (he : ∀ redirects request desktop clipboard link, s.phase = .connecting redirects request .finalizing →
      e ≠ .finalized desktop clipboard link) : Inputless (s.turn cfg e) := by
  have honPhase : Inputless (s.onPhase cfg e) := by
    unfold Session.onPhase
    split
    · exact connectLoop_leaves.inputless
    · next redirects request handshake hconnecting =>
        refine onConnect_inputless fun desktop clipboard link hfinalizing => ?_
        exact he redirects request desktop clipboard link (hfinalizing ▸ hconnecting)
    · split
      · exact exitUserClosed_leaves.inputless
      · exact emits_of_nil rfl
    · next redirects leg hactive => exact absurd hactive (hphase redirects leg)
    · exact shutdownPdu_inputless
    · exact exitUserClosed_leaves.inputless
    · exact waitBackoff_leaves.inputless
    · exact emits_of_nil rfl
  unfold Session.turn
  split
  · exact emits_of_nil rfl
  · exact emits_of_nil rfl
  · exact emits_of_nil rfl
  · exact receive_inputless hphase
  · exact honPhase

end Turns

end Drift.Rdp
