import Drift.Rdp.Actor

/-!
# What the operations leave alone

Most of what the actor does only moves data that no history of commands is about: the connection, the
timers, the held keys. `Actor.core` and `Live.core` collect the rest. An output is *neutral* when it
is an event, a presentation, a rejected change of the state, or a write other than Suppress Output.
-/

namespace Drift.Rdp

open Input Clipboard Gfx Outcome

variable {Geometry : Type}

/-- What the app told the actor, and what the actor applied of it to the sink. -/
structure Core (Geometry : Type) where
  graphics : Graphics
  view : View Geometry
  geometry : Option Geometry
  clipboardLocal : Option ClipboardContents
  changeCount : Int
  networkReachable : Bool

def Actor.core (a : Actor Geometry) : Core Geometry where
  graphics := a.graphics
  view := a.view
  geometry := a.resize.geometry
  clipboardLocal := a.clipboardLocal
  changeCount := a.changeCount
  networkReachable := a.policy.networkReachable

/-- The core of the actor together with the clipboard state and the graphics channel of the leg. -/
structure LiveCore (Geometry : Type) where
  actor : Core Geometry
  clipboard : Option ClipboardSync
  gfx : Dvc
  acks : Gfx.System

def Live.core (l : Live Geometry) : LiveCore Geometry where
  actor := l.actor.core
  clipboard := l.actor.clipboard
  gfx := l.leg.gfx
  acks := l.leg.acks

namespace Core

theorem ext_iff {a b : Actor Geometry} :
    a.core = b.core ↔ a.graphics = b.graphics ∧ a.view = b.view ∧
      a.resize.geometry = b.resize.geometry ∧ a.clipboardLocal = b.clipboardLocal ∧
      a.changeCount = b.changeCount ∧ a.policy.networkReachable = b.policy.networkReachable := by
  simp [Actor.core]

end Core

theorem LiveCore.ext_iff {l k : Live Geometry} :
    l.core = k.core ↔ l.actor.core = k.actor.core ∧ l.actor.clipboard = k.actor.clipboard ∧
      l.leg.gfx = k.leg.gfx ∧ l.leg.acks = k.leg.acks := by
  simp [Live.core]

def Out.isNeutral : Out Geometry → Bool
  | .event _ | .authenticating _ _ | .presented _ _ | .rejected _ => true
  | .wrote (.suppressOutput _) => false
  | .wrote _ => true
  | _ => false

/-- What belongs to the session and not to a leg. -/
structure Base where
  pin : Option CertFingerprint
  policy : ReconnectPolicy
  activations : Nat

def Actor.base (a : Actor Geometry) : Base := ⟨a.io.sessionPin, a.policy, a.activations⟩

def Live.rest (l : Live Geometry) : LiveCore Geometry × Base := (l.core, l.actor.base)

/-- A neutral output that is no prompt and shows no credentials. -/
def Out.isAside : Out Geometry → Bool
  | .event (.certificatePrompt _ _ _ _) | .authenticating _ _ => false
  | o => o.isNeutral

theorem Out.isNeutral_of_isAside {o : Out Geometry} (h : o.isAside = true) : o.isNeutral = true := by
  unfold Out.isAside at h
  split at h <;> simp_all [Out.isNeutral]

/-- The operation keeps the rest and makes outputs that are aside. -/
abbrev Live.Keeps (l : Live Geometry) (run : LegRun Geometry) : Prop :=
  run.Within (fun l l' => l'.rest = l.rest) (fun o => o.isAside) l

namespace Live

theorem rest_trans (a b c : Live Geometry) (h : b.rest = a.rest) (h' : c.rest = b.rest) :
    c.rest = a.rest := h'.trans h

theorem keeps_done {l l' : Live Geometry} (h : l'.rest = l.rest) : l.Keeps (.done l') :=
  within_done h

theorem keeps_stop {l l' : Live Geometry} {e : LegEnd} (h : l'.rest = l.rest) :
    l.Keeps (.stop l' e) :=
  within_stop h

theorem keeps_output {l l' : Live Geometry} {o : Out Geometry} (h : l'.rest = l.rest)
    (ho : o.isAside = true) : l.Keeps (.output l' o) :=
  within_output h ho

theorem keeps_forEach {α : Type} {f : Live Geometry → α → LegRun Geometry} (l : Live Geometry)
    (as : List α) (hf : ∀ (l : Live Geometry) (a : α), l.Keeps (f l a)) : l.Keeps (.forEach f l as) :=
  within_forEach (F := fun l l' => l'.rest = l.rest) (fun _ => rfl) rest_trans l as
    fun l a _ => hf l a

theorem Keeps.andThen {l : Live Geometry} {run : LegRun Geometry}
    {f : Live Geometry → LegRun Geometry} (hrun : l.Keeps run) (hf : ∀ l, Keeps l (f l)) :
    l.Keeps (run.andThen f) :=
  Within.andThen rest_trans hrun hf

theorem Keeps.of_rest_eq {l k : Live Geometry} {run : LegRun Geometry} (h : k.Keeps run)
    (hrest : k.rest = l.rest) : l.Keeps run :=
  ⟨h.1.trans hrest, h.2⟩

theorem write_keeps (l : Live Geometry) (frame : Frame)
    (hframe : (Out.wrote frame : Out Geometry).isAside = true) : l.Keeps (l.write frame) := by
  unfold write
  split
  · exact keeps_output rfl hframe
  · exact keeps_stop rfl
  · exact keeps_output rfl hframe

theorem sendInputEvents_keeps (l : Live Geometry) (events : List FastPathInputEvent) :
    l.Keeps (l.sendInputEvents events) := by
  unfold sendInputEvents
  split
  · exact keeps_done rfl
  · exact keeps_forEach l _ fun l chunk => l.write_keeps (.input chunk) rfl

theorem applyAction_keeps (platform : Platform Geometry) (l : Live Geometry) (action : SyncAction) :
    l.Keeps (l.applyAction platform action) := by
  cases action with
  | sendFormatList formats =>
      simp only [applyAction]
      split
      · exact keeps_stop rfl
      · exact l.write_keeps _ rfl
  | requestRemoteData format =>
      simp only [applyAction]
      split
      · exact keeps_stop rfl
      · exact keeps_stop rfl
      · exact l.write_keeps _ rfl
  | sendData formatId data =>
      simp only [applyAction]
      split
      · exact keeps_stop rfl
      · exact keeps_stop rfl
      · exact l.write_keeps _ rfl
  | writePasteboard contents => exact keeps_output rfl rfl
  | rejected error => exact keeps_done rfl

theorem applyClipboard_keeps (platform : Platform Geometry) (l : Live Geometry)
    (actions : List SyncAction) : l.Keeps (l.applyClipboard platform actions) :=
  keeps_forEach l _ fun l action => l.applyAction_keeps platform action

theorem onOutput_keeps (l : Live Geometry) (output : ActiveStageOutput) :
    l.Keeps (l.onOutput output) := by
  cases output with
  | pointer => exact keeps_output rfl rfl
  | responseFrame => exact l.write_keeps _ rfl
  | serverRedirect pdu => exact keeps_stop rfl
  | terminate reason => cases reason <;> exact keeps_stop rfl
  | other => exact keeps_done rfl

theorem handleOutputs_keeps (l : Live Geometry) (outputs : List ActiveStageOutput) :
    l.Keeps (l.handleOutputs outputs) :=
  keeps_forEach l _ fun l output => l.onOutput_keeps output

theorem resyncInput_keeps (l : Live Geometry) : l.Keeps l.resyncInput := by
  unfold resyncInput
  split
  · exact keeps_done rfl
  · exact (sendInputEvents_keeps _ _).of_rest_eq rfl

theorem pollResize_keeps (platform : Platform Geometry) (now : Instant) (l : Live Geometry) :
    l.Keeps (l.pollResize platform now) := by
  have hrest : ∀ scale, Live.rest
      ⟨{ l.actor with resize := (l.actor.resize.poll platform.desiredLayout now).1, scale := scale },
        l.leg⟩ = l.rest := by
    intro scale
    simp [Live.rest, LiveCore.ext_iff, Core.ext_iff, Actor.base]
  unfold pollResize
  simp only
  split
  · exact keeps_done (hrest l.actor.scale)
  · next layout _ =>
      split
      · exact (write_keeps _ _ rfl).of_rest_eq (hrest layout.desktopScaleFactor)
      · exact keeps_done (hrest layout.desktopScaleFactor)

theorem typePassword_keeps (secrets : SessionSecrets) (now : Instant) (l : Live Geometry) :
    l.Keeps (l.typePassword secrets now) := by
  unfold typePassword
  split
  · exact keeps_done rfl
  · simp only
    split
    · exact keeps_done rfl
    · exact (sendInputEvents_keeps _ _).of_rest_eq rfl

@[simp]
theorem core_welcome (cfg : Config Geometry) (now : Instant) (l : Live Geometry) :
    (l.welcome cfg now).core = l.core := rfl

@[simp]
theorem core_takeDispCaps (now : Instant) (l : Live Geometry) :
    (l.takeDispCaps now).core = l.core := by
  unfold takeDispCaps
  split <;> rfl

theorem onOutputSize_keeps (l : Live Geometry) : l.Keeps l.onOutputSize := by
  unfold onOutputSize
  split
  · exact keeps_done rfl
  · split
    · simp only [Actor.setState]
      split_ifs
      · exact ⟨rfl, by simp⟩
      · exact ⟨rfl, by simp [Out.isAside, Out.isNeutral]⟩
      · exact ⟨rfl, by simp [Out.isAside, Out.isNeutral]⟩
    · exact keeps_done rfl

/-- The record of the calls holds calls only. -/
theorem clip_of_mem_handleAll {platform : Platform Geometry} {now : Instant} {sync : ClipboardSync}
    {inputs : List SyncInput} {o : Out Geometry} (h : o ∈ (handleAll platform now sync inputs).2.1) :
    ∃ canSync input actions, o = .clip canSync input actions := by
  induction inputs generalizing sync with
  | nil => cases h
  | cons input inputs ih =>
      rcases List.mem_cons.mp h with rfl | h
      · exact ⟨_, _, _, rfl⟩
      · exact ih h

theorem presented_of_mem_present {l : Live Geometry} {index : Nat} {o : Out Geometry}
    (h : o ∈ (l.present index).outs) : ∃ frameId ack, o = .presented frameId ack := by
  obtain ⟨effect, -, heffect⟩ := List.mem_filterMap.mp h
  split at heffect
  · exact ⟨_, _, (Option.some.inj heffect).symm⟩
  · cases heffect

end Live

theorem Leg.frameEnded_of_mem_onChannels {leg : Leg} {channels : List ChannelEvent}
    {o : Out Geometry} (h : o ∈ (leg.onChannels channels).2) :
    ∃ frameId hidden, o = .frameEnded frameId hidden := by
  induction channels generalizing leg with
  | nil => simp [Leg.onChannels] at h
  | cons event events ih =>
      rcases List.mem_append.mp h with h | h
      · cases event with
        | frameEnded frameId =>
            simp only [Leg.onChannel] at h
            split at h
            · exact ⟨frameId, leg.acks.acks.hidden, by simpa using h⟩
            · simp at h
        | _ => simp [Leg.onChannel] at h
      · exact ih h

/-! ### The session -/

theorem Actor.core_setState (a : Actor Geometry) (next : SessionState) :
    (a.setState next).1.core = a.core := by
  unfold Actor.setState
  split_ifs <;> rfl

theorem Actor.clipboard_setState (a : Actor Geometry) (next : SessionState) :
    (a.setState next).1.clipboard = a.clipboard := by
  unfold Actor.setState
  split_ifs <;> rfl

theorem Actor.isNeutral_of_mem_setState {a : Actor Geometry} {next : SessionState}
    {o : Out Geometry} (h : o ∈ (a.setState next).2) : o.isNeutral := by
  unfold Actor.setState at h
  split_ifs at h <;> simp_all [Out.isNeutral]

theorem Actor.core_requestDesktop (platform : Platform Geometry) (a : Actor Geometry) :
    (a.requestDesktop platform).1.core = a.core := by
  unfold Actor.requestDesktop
  split <;> rfl

/-! ### Closing -/

namespace Session

variable [BEq Geometry] {s : Session Geometry} {cfg : Config Geometry}

omit [BEq Geometry] in
/-- What the loop of the phase does with a close, and once every handle is gone. -/
def onClose (cfg : Config Geometry) (s : Session Geometry) : Turn Geometry :=
  match s.phase with
  | .startUp => s.connectLoop cfg
  | .prompting _ _ _ | .backoff _ _ => s.exitUserClosed
  | .active _ leg => s.shutdown leg
  | .idle => s.enter .exited
  | .connecting _ _ _ | .shuttingDown _ | .exited => .done s

theorem handle_of_close {cmd : Option (SessionCommand Geometry)} (hcmd : cmd = none ∨ cmd = some .close) :
    s.handle cfg cmd = s.onClose cfg := by
  unfold handle onClose
  rcases hcmd with rfl | rfl <;> cases s.phase <;> rfl

theorem collectInitialState_of_ne {cmd : SessionCommand Geometry} (hcmd : cmd ≠ .close) :
    s.collectInitialState cfg (some cmd) = .done (s.rememberCmd cmd) := by
  cases cmd with
  | close => exact absurd rfl hcmd
  | _ => rfl

end Session

end Drift.Rdp
