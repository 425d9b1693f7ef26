import Drift.Rdp.Proof.Frame

/-!
# Operations that change no state

The operations of a leg, other than the one for a new desktop size, leave the state of the session
alone: they show the app no state and attempt no change of it. Most of them are aloof of the typist too.
-/

namespace Drift.Rdp

open Input Clipboard Gfx Outcome

variable {Geometry : Type}

/-- The output shows a state, or says that a change of it was rejected. -/
def Out.announces : Out Geometry → Bool
  | .event (.state _) | .rejected _ => true
  | _ => false

namespace Live

/-- The operation keeps the session state, and announces none. -/
abbrev Quiet (l : Live Geometry) (run : LegRun Geometry) : Prop :=
  run.Within (fun l l' => l'.actor.io = l.actor.io) (fun o => o.announces = false) l

/-- What the greeter is about: the session state and the typist. -/
def greeting (l : Live Geometry) : Io × GreeterTypist := (l.actor.io, l.actor.typist)

abbrev Aloof (l : Live Geometry) (run : LegRun Geometry) : Prop :=
  run.Within (fun l l' => l'.greeting = l.greeting) (fun o => o.announces = false) l

theorem Aloof.quiet {l : Live Geometry} {run : LegRun Geometry} (h : l.Aloof run) : l.Quiet run :=
  ⟨congrArg Prod.fst h.1, h.2⟩

theorem io_trans (a b c : Live Geometry) (h : b.actor.io = a.actor.io)
    (h' : c.actor.io = b.actor.io) : c.actor.io = a.actor.io := h'.trans h

theorem Quiet.andThen {l : Live Geometry} {run : LegRun Geometry}
    {f : Live Geometry → LegRun Geometry} (hrun : l.Quiet run) (hf : ∀ l, Quiet l (f l)) :
    l.Quiet (run.andThen f) :=
  Within.andThen io_trans hrun hf

theorem Quiet.of_io_eq {l k : Live Geometry} {run : LegRun Geometry} (h : k.Quiet run)
    (hio : k.actor.io = l.actor.io) : l.Quiet run :=
  ⟨h.1.trans hio, h.2⟩

theorem quiet_started {l l' : Live Geometry} {os : List (Out Geometry)}
    {f : Live Geometry → LegRun Geometry} (hio : l'.actor.io = l.actor.io)
    (hos : ∀ o ∈ os, o.announces = false) (hf : l'.Quiet (f l')) :
    l.Quiet (Outcome.andThen ⟨l', os, none⟩ f) :=
  within_prefixed hos hf fun _ h => h.trans hio

theorem quiet_done {l l' : Live Geometry} (h : l'.actor.io = l.actor.io) : l.Quiet (.done l') :=
  within_done h

theorem greeting_trans (a b c : Live Geometry) (h : b.greeting = a.greeting)
    (h' : c.greeting = b.greeting) : c.greeting = a.greeting := h'.trans h

theorem Aloof.andThen {l : Live Geometry} {run : LegRun Geometry}
    {f : Live Geometry → LegRun Geometry} (hrun : l.Aloof run) (hf : ∀ l, Aloof l (f l)) :
    l.Aloof (run.andThen f) :=
  Within.andThen greeting_trans hrun hf

theorem Aloof.of_greeting_eq {l k : Live Geometry} {run : LegRun Geometry} (h : k.Aloof run)
    (hsame : k.greeting = l.greeting) : l.Aloof run :=
  ⟨h.1.trans hsame, h.2⟩

theorem aloof_forEach {α : Type} {f : Live Geometry → α → LegRun Geometry} (l : Live Geometry)
    (as : List α) (hf : ∀ (l : Live Geometry) (a : α), l.Aloof (f l a)) :
    l.Aloof (.forEach f l as) :=
  within_forEach (F := fun l l' => l'.greeting = l.greeting) (fun _ => rfl) greeting_trans l as
    fun l a _ => hf l a

theorem aloof_started {l l' : Live Geometry} {os : List (Out Geometry)}
    {f : Live Geometry → LegRun Geometry} (hsame : l'.greeting = l.greeting)
    (hos : ∀ o ∈ os, o.announces = false) (hf : l'.Aloof (f l')) :
    l.Aloof (Outcome.andThen ⟨l', os, none⟩ f) :=
  within_prefixed hos hf fun _ h => h.trans hsame

theorem aloof_done {l l' : Live Geometry} (h : l'.greeting = l.greeting) : l.Aloof (.done l') :=
  within_done h

theorem write_aloof (l : Live Geometry) (frame : Frame) : l.Aloof (l.write frame) := by
  unfold write
  split
  · exact within_output rfl rfl
  · exact within_stop rfl
  · exact within_output rfl rfl

theorem sendInputEvents_aloof (l : Live Geometry) (events : List FastPathInputEvent) :
    l.Aloof (l.sendInputEvents events) := by
  unfold sendInputEvents
  split
  · exact within_done rfl
  · exact aloof_forEach l _ fun l chunk => l.write_aloof (.input chunk)

theorem applyVisibility_aloof (l : Live Geometry) (visible : Bool) :
    l.Aloof (l.applyVisibility visible) := by
  unfold applyVisibility
  split
  · exact (write_aloof _ _).of_greeting_eq rfl
  · exact (l.write_aloof _).andThen fun l => aloof_done rfl

theorem applyAction_aloof (platform : Platform Geometry) (l : Live Geometry) (action : SyncAction) :
    l.Aloof (l.applyAction platform action) := by
  cases action with
  | sendFormatList formats =>
      simp only [applyAction]
      split
      · exact within_stop rfl
      · exact l.write_aloof _
  | requestRemoteData format =>
      simp only [applyAction]
      split
      · exact within_stop rfl
      · exact within_stop rfl
      · exact l.write_aloof _
  | sendData formatId data =>
      simp only [applyAction]
      split
      · exact within_stop rfl
      · exact within_stop rfl
      · exact l.write_aloof _
  | writePasteboard contents => exact within_output rfl rfl
  | rejected error => exact aloof_done rfl

theorem feed_aloof (platform : Platform Geometry) (now : Instant) (l : Live Geometry)
    (inputs : List SyncInput) : l.Aloof (l.feed platform now inputs) := by
  unfold feed
  split
  · exact aloof_done rfl
  · next sync _ =>
      have hcalls : ∀ o ∈ (handleAll platform now sync inputs).2.1, o.announces = false := by
        intro o ho
        obtain ⟨canSync, input, actions, rfl⟩ := clip_of_mem_handleAll ho
        rfl
      refine aloof_started rfl hcalls ?_
      exact aloof_forEach _ _ fun l action => l.applyAction_aloof platform action

theorem feedLocal_aloof (platform : Platform Geometry) (now : Instant) (l : Live Geometry)
    (contents : ClipboardContents) : l.Aloof (l.feedLocal platform now contents) :=
  (feed_aloof ..).of_greeting_eq rfl

theorem resyncInput_aloof (l : Live Geometry) : l.Aloof l.resyncInput := by
  unfold resyncInput
  split
  · exact aloof_done rfl
  · exact (sendInputEvents_aloof _ _).of_greeting_eq rfl

theorem applyHidden_aloof (l : Live Geometry) : l.Aloof l.applyHidden := by
  unfold applyHidden
  split
  · exact aloof_done rfl
  · exact l.applyVisibility_aloof false

theorem replayLocal_aloof (platform : Platform Geometry) (now : Instant) (l : Live Geometry) :
    l.Aloof (l.replayLocal platform now) := by
  unfold replayLocal
  split
  · exact aloof_done rfl
  · exact l.feedLocal_aloof ..

theorem pollResize_aloof (platform : Platform Geometry) (now : Instant) (l : Live Geometry) :
    l.Aloof (l.pollResize platform now) := by
  unfold pollResize
  simp only
  split
  · exact aloof_done rfl
  · split
    · exact (write_aloof _ _).of_greeting_eq rfl
    · exact aloof_done rfl

theorem onActivated_quiet (cfg : Config Geometry) (now : Instant) (l : Live Geometry) :
    l.Quiet (l.onActivated cfg now) := by
  unfold onActivated
  refine @quiet_started _ l (l.welcome cfg now) _ _ rfl ?_ ?_
  · intro o ho
    rcases List.mem_cons.mp ho with rfl | ho
    · rfl
    · obtain rfl := List.mem_singleton.mp ho
      rfl
  · refine (resyncInput_aloof _).quiet.andThen fun l => ?_
    exact ((applyHidden_aloof _).quiet.of_io_eq rfl).andThen fun l => (l.replayLocal_aloof ..).quiet

theorem typePassword_quiet (secrets : SessionSecrets) (now : Instant) (l : Live Geometry) :
    l.Quiet (l.typePassword secrets now) := by
  unfold typePassword
  split
  · exact quiet_done rfl
  · simp only
    split
    · exact quiet_done rfl
    · exact (sendInputEvents_aloof _ _).quiet.of_io_eq rfl

theorem onTick_quiet (cfg : Config Geometry) (now : Instant) (l : Live Geometry) :
    l.Quiet (l.onTick cfg now) := by
  refine (l.pollResize_aloof ..).quiet.andThen fun l => ?_
  exact (l.typePassword_quiet ..).andThen fun l => (l.feed_aloof ..).quiet

theorem onCommand_quiet [BEq Geometry] (cfg : Config Geometry) (now : Instant) (l : Live Geometry)
    (cmd : SessionCommand Geometry) : l.Quiet (l.onCommand cfg now cmd) := by
  cases cmd with
  | input event => exact (sendInputEvents_aloof _ _).quiet.of_io_eq rfl
  | setVisible visible =>
      simp only [onCommand]
      split
      · exact quiet_done rfl
      · exact (applyVisibility_aloof _ _).quiet.of_io_eq rfl
  | focus focused => exact (feed_aloof ..).quiet.of_io_eq rfl
  | clipboardLocalChanged contents => exact (feedLocal_aloof ..).quiet.of_io_eq rfl
  | _ => exact quiet_done rfl

theorem onOutput_aloof (l : Live Geometry) (output : ActiveStageOutput) :
    l.Aloof (l.onOutput output) := by
  cases output with
  | pointer => exact within_output rfl rfl
  | responseFrame => exact l.write_aloof _
  | serverRedirect pdu => exact within_stop rfl
  | terminate reason => cases reason <;> exact within_stop rfl
  | other => exact aloof_done rfl

theorem onPdu_aloof (platform : Platform Geometry) (now : Instant) (l : Live Geometry)
    (pdu : ServerPdu) : l.Aloof (l.onPdu platform now pdu) := by
  unfold onPdu
  refine @aloof_started _ l { l with leg := (l.leg.onChannels pdu.channels).1 } _ _ rfl ?_ ?_
  · intro o ho
    obtain ⟨frameId, hidden, rfl⟩ := Leg.frameEnded_of_mem_onChannels ho
    rfl
  split
  · exact within_stop rfl
  · next outputs _ =>
      refine (aloof_forEach _ outputs fun l output => l.onOutput_aloof output).andThen fun l => ?_
      have htaken : (l.takeDispCaps now).greeting = l.greeting := by
        unfold takeDispCaps
        split <;> rfl
      exact (feed_aloof ..).of_greeting_eq htaken

theorem flushAcks_aloof (l : Live Geometry) : l.Aloof l.flushAcks := by
  unfold flushAcks
  split
  · simp only
    split
    · exact aloof_done rfl
    · exact (write_aloof _ _).of_greeting_eq rfl
  · exact aloof_done rfl

theorem present_aloof (l : Live Geometry) (index : Nat) : l.Aloof (l.present index) := by
  refine ⟨rfl, ?_⟩
  intro o ho
  obtain ⟨frameId, ack, rfl⟩ := presented_of_mem_present ho
  rfl

end Live

end Drift.Rdp
