import Drift.Rdp.Proof.Frame

/-!
# What a leg leaves to its session

The operations of a leg do not touch the accepted certificate, the reconnect policy or the count of the
legs, apart from the activation and the reachability of the network, and only a PDU ends a leg with a
redirection. A *milestone* is an output about the connection: a command received, a certificate prompt,
the use of the credentials, an activation.
-/

namespace Drift.Rdp

open Input Clipboard Gfx Outcome

variable {Geometry : Type}

def Out.isMilestone : Out Geometry → Bool
  | .received _ _ | .authenticating _ _ | .activated _ | .event (.certificatePrompt _ _ _ _) => true
  | _ => false

theorem Out.not_isMilestone_of_isAside {o : Out Geometry} (h : o.isAside = true) :
    o.isMilestone = false := by
  unfold Out.isMilestone
  split
  · cases h
  · cases h
  · cases h
  · cases h
  · rfl

namespace Live

/-! ### Ends without a redirection -/

/-- If the operation ends the leg, it is with a reason. -/
abbrev Stays (run : LegRun Geometry) : Prop := run.Exits fun e => ∃ reason, e = .ended reason

theorem write_stays (l : Live Geometry) (frame : Frame) : Stays (l.write frame) := by
  unfold write
  split
  · exact exits_output l _
  · exact exits_stop ⟨_, rfl⟩
  · exact exits_output _ _

theorem sendInputEvents_stays (l : Live Geometry) (events : List FastPathInputEvent) :
    Stays (l.sendInputEvents events) := by
  unfold sendInputEvents
  split
  · exact exits_of_none rfl
  · exact exits_forEach l _ fun l chunk => l.write_stays (.input chunk)

theorem applyAction_stays (platform : Platform Geometry) (l : Live Geometry) (action : SyncAction) :
    Stays (l.applyAction platform action) := by
  cases action with
  | sendFormatList formats =>
      simp only [applyAction]
      split
      · exact exits_stop ⟨_, rfl⟩
      · exact l.write_stays _
  | requestRemoteData format =>
      simp only [applyAction]
      split
      · exact exits_stop ⟨_, rfl⟩
      · exact exits_stop ⟨_, rfl⟩
      · exact l.write_stays _
  | sendData formatId data =>
      simp only [applyAction]
      split
      · exact exits_stop ⟨_, rfl⟩
      · exact exits_stop ⟨_, rfl⟩
      · exact l.write_stays _
  | writePasteboard contents => exact exits_output l _
  | rejected error => exact exits_done l

theorem applyClipboard_stays (platform : Platform Geometry) (l : Live Geometry)
    (actions : List SyncAction) : Stays (l.applyClipboard platform actions) :=
  exits_forEach l _ fun l action => l.applyAction_stays platform action

theorem resyncInput_stays (l : Live Geometry) : Stays l.resyncInput := by
  unfold resyncInput
  split
  · exact exits_done l
  · exact sendInputEvents_stays _ _

theorem pollResize_stays (platform : Platform Geometry) (now : Instant) (l : Live Geometry) :
    Stays (l.pollResize platform now) := by
  unfold pollResize
  simp only
  split
  · exact exits_done _
  · split
    · exact write_stays _ _
    · exact exits_done _

theorem typePassword_stays (secrets : SessionSecrets) (now : Instant) (l : Live Geometry) :
    Stays (l.typePassword secrets now) := by
  unfold typePassword
  split
  · exact exits_done l
  · simp only
    split
    · exact exits_done _
    · exact sendInputEvents_stays _ _

theorem onOutputSize_stays (l : Live Geometry) : Stays l.onOutputSize := by
  unfold onOutputSize
  split
  · exact exits_done l
  · split
    · exact exits_of_none rfl
    · exact exits_done _

/-! ### Local operations -/

/-- The operation keeps what belongs to the session, makes no milestone, and redirects nowhere. -/
structure Local (l : Live Geometry) (run : LegRun Geometry) : Prop where
  within : run.Within (fun l l' => l'.actor.base = l.actor.base) (fun o => o.isMilestone = false) l
  stays : Stays run

theorem Keeps.within_base {l : Live Geometry} {run : LegRun Geometry} (h : l.Keeps run) :
    run.Within (fun l l' => l'.actor.base = l.actor.base) (fun o => o.isMilestone = false) l :=
  ⟨congrArg Prod.snd h.1, fun o ho => Out.not_isMilestone_of_isAside (h.2 o ho)⟩

theorem Keeps.isLocal {l : Live Geometry} {run : LegRun Geometry} (h : l.Keeps run)
    (hstays : Stays run) : l.Local run :=
  ⟨h.within_base, hstays⟩

theorem local_done {l l' : Live Geometry} (h : l'.actor.base = l.actor.base) :
    l.Local (.done l') :=
  ⟨within_done h, exits_done l'⟩

theorem Local.of_base_eq {l k : Live Geometry} {run : LegRun Geometry} (h : k.Local run)
    (hbase : k.actor.base = l.actor.base) : l.Local run :=
  ⟨⟨h.within.1.trans hbase, h.within.2⟩, h.stays⟩

theorem Local.andThen {l : Live Geometry} {run : LegRun Geometry}
    {f : Live Geometry → LegRun Geometry} (hrun : l.Local run) (hf : ∀ l, Local l (f l)) :
    l.Local (run.andThen f) :=
  ⟨hrun.within.andThen (fun _ _ _ h h' => h'.trans h) fun l => (hf l).within,
    hrun.stays.andThen fun l => (hf l).stays⟩

theorem local_prefix {l l' : Live Geometry} {os : List (Out Geometry)}
    {f : Live Geometry → LegRun Geometry} (hbase : l'.actor.base = l.actor.base)
    (hos : ∀ o ∈ os, o.isMilestone = false) (hf : l'.Local (f l')) :
    l.Local (Outcome.andThen ⟨l', os, none⟩ f) :=
  ⟨within_prefixed hos hf.within fun _ h => h.trans hbase, hf.stays⟩

theorem write_local (l : Live Geometry) (frame : Frame) : l.Local (l.write frame) := by
  refine ⟨?_, l.write_stays frame⟩
  unfold write
  split
  · exact within_output rfl rfl
  · exact within_stop rfl
  · exact within_output rfl rfl

theorem applyVisibility_local (l : Live Geometry) (visible : Bool) :
    l.Local (l.applyVisibility visible) := by
  unfold applyVisibility
  split
  · exact (write_local _ _).of_base_eq rfl
  · exact (l.write_local _).andThen fun l => local_done rfl

theorem feed_local (platform : Platform Geometry) (now : Instant) (l : Live Geometry)
    (inputs : List SyncInput) : l.Local (l.feed platform now inputs) := by
  unfold feed
  split
  · exact local_done rfl
  · next sync _ =>
      have hcalls : ∀ o ∈ (handleAll platform now sync inputs).2.1, o.isMilestone = false := by
        intro o ho
        obtain ⟨canSync, input, actions, rfl⟩ := clip_of_mem_handleAll ho
        rfl
      refine local_prefix rfl hcalls ?_
      exact (applyClipboard_keeps ..).isLocal (applyClipboard_stays _ _ _)

theorem feedLocal_local (platform : Platform Geometry) (now : Instant) (l : Live Geometry)
    (contents : ClipboardContents) : l.Local (l.feedLocal platform now contents) :=
  (feed_local ..).of_base_eq rfl

theorem applyHidden_local (l : Live Geometry) : l.Local l.applyHidden := by
  unfold applyHidden
  split
  · exact local_done rfl
  · exact l.applyVisibility_local false

theorem replayLocal_local (platform : Platform Geometry) (now : Instant) (l : Live Geometry) :
    l.Local (l.replayLocal platform now) := by
  unfold replayLocal
  split
  · exact local_done rfl
  · exact l.feedLocal_local ..

theorem onTick_local (cfg : Config Geometry) (now : Instant) (l : Live Geometry) :
    l.Local (l.onTick cfg now) := by
  refine ((l.pollResize_keeps ..).isLocal (pollResize_stays _ _ l)).andThen fun l => ?_
  refine ((l.typePassword_keeps ..).isLocal (typePassword_stays _ _ l)).andThen fun l => ?_
  exact l.feed_local ..

theorem flushAcks_local (l : Live Geometry) : l.Local l.flushAcks := by
  unfold flushAcks
  split
  · simp only
    split
    · exact local_done rfl
    · exact (write_local _ _).of_base_eq rfl
  · exact local_done rfl

theorem present_local (l : Live Geometry) (index : Nat) : l.Local (l.present index) := by
  refine ⟨⟨rfl, ?_⟩, exits_of_none rfl⟩
  intro o ho
  obtain ⟨frameId, ack, rfl⟩ := presented_of_mem_present ho
  rfl

theorem onCommand_local [BEq Geometry] (cfg : Config Geometry) (now : Instant) (l : Live Geometry)
    {cmd : SessionCommand Geometry} (hcmd : ∀ reachable, cmd ≠ .networkReachable reachable) :
    l.Local (l.onCommand cfg now cmd) := by
  cases cmd with
  | input event =>
      exact ((sendInputEvents_keeps _ _).isLocal (sendInputEvents_stays _ _)).of_base_eq rfl
  | resize geometry => exact local_done rfl
  | setVisible visible =>
      simp only [onCommand]
      split
      · exact local_done rfl
      · exact (applyVisibility_local _ _).of_base_eq rfl
  | focus focused => exact (feed_local ..).of_base_eq rfl
  | clipboardLocalChanged contents => exact (feedLocal_local ..).of_base_eq rfl
  | networkReachable reachable => exact absurd rfl (hcmd reachable)
  | _ => exact local_done rfl

end Live

end Drift.Rdp
