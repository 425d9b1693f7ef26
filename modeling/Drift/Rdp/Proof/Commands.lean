import Drift.Rdp.Proof.Rule
import Drift.Rdp.Record

/-!
# No command is lost

At every activation the geometry, the visibility, the focus, the local clipboard and the
reachability of the network are those of the last commands, in the runs that lose none.
-/

namespace Drift.Rdp

open Input Clipboard Gfx Outcome

variable {Geometry : Type} [BEq Geometry]

/-- The actor holds the values of the last commands. -/
structure Recall.Known (m : Recall Geometry) (a : Actor Geometry) : Prop where
  geometry : ResizeDriver.SameGeometry a.resize.geometry m.geometry
  visible : a.view.visible = m.visible
  focused : a.view.focused = m.focused
  clipboard : a.clipboardLocal = m.clipboard
  networkReachable : a.policy.networkReachable = m.networkReachable

namespace Recall

theorem known_new (cfg : Config Geometry) : (start : Recall Geometry).Known (Actor.new cfg) := by
  constructor <;> simp [start, Actor.new, View.default, ResizeDriver.new, ReconnectPolicy.new,
    ResizeDriver.SameGeometry]

theorem Known.congr {m : Recall Geometry} {a a' : Actor Geometry} (hcore : a'.core = a.core)
    (h : m.Known a) : m.Known a' := by
  obtain ⟨-, hview, hgeometry, hlocal, -, hreachable⟩ := Core.ext_iff.mp hcore
  constructor
  · simpa only [hgeometry] using h.geometry
  · simpa only [hview] using h.visible
  · simpa only [hview] using h.focused
  · simpa only [hlocal] using h.clipboard
  · simpa only [hreachable] using h.networkReachable

/-- A command that gives what the actor holds may as well have been remembered. -/
theorem Known.unchanged {m : Recall Geometry} {a : Actor Geometry} (h : m.Known a)
    (cmd : SessionCommand Geometry) (hsame : a.changedBy cmd = false) : (m.know cmd).Known a := by
  cases cmd with
  | resize geometry =>
      refine ⟨?_, h.visible, h.focused, h.clipboard, h.networkReachable⟩
      obtain ⟨used, hused, hequal⟩ := (Option.any_eq_true _ _).mp (by simpa [Actor.changedBy] using hsame)
      rw [hused]
      exact .inr hequal
  | setVisible visible =>
      have hvisible : a.view.visible = visible := by simpa [Actor.changedBy] using hsame
      exact ⟨h.geometry, hvisible, h.focused, h.clipboard, h.networkReachable⟩
  | focus focused =>
      have hfocused : a.view.focused = focused := by simpa [Actor.changedBy] using hsame
      exact ⟨h.geometry, h.visible, hfocused, h.clipboard, h.networkReachable⟩
  | clipboardLocalChanged contents =>
      have hlocal : a.clipboardLocal = some contents := by simpa [Actor.changedBy] using hsame
      exact ⟨h.geometry, h.visible, h.focused, hlocal, h.networkReachable⟩
  | networkReachable reachable =>
      have hreachable : a.policy.networkReachable = reachable := by
        simpa [Actor.changedBy] using hsame
      exact ⟨h.geometry, h.visible, h.focused, h.clipboard, hreachable⟩
  | _ => exact h

/-- A command that is remembered is known, the reachability of the network apart. -/
theorem Known.remember {m : Recall Geometry} {a : Actor Geometry} (h : m.Known a)
    (now : Instant) (cmd : SessionCommand Geometry)
    (hcmd : ∀ reachable, cmd ≠ .networkReachable reachable) :
    (m.know cmd).Known (a.remember now cmd) := by
  cases cmd with
  | resize geometry =>
      exact ⟨a.resize.sameGeometry_onGeometry geometry now, h.visible, h.focused, h.clipboard,
        h.networkReachable⟩
  | setVisible visible => exact ⟨h.geometry, rfl, h.focused, h.clipboard, h.networkReachable⟩
  | focus focused => exact ⟨h.geometry, h.visible, rfl, h.clipboard, h.networkReachable⟩
  | clipboardLocalChanged contents =>
      exact ⟨h.geometry, h.visible, h.focused, rfl, h.networkReachable⟩
  | networkReachable reachable => exact absurd rfl (hcmd reachable)
  | _ => exact h

theorem Known.setNetworkReachable {m : Recall Geometry} {a : Actor Geometry} (h : m.Known a)
    (reachable : Bool) : (m.know (.networkReachable reachable)).Known
      { a with policy := a.policy.setNetworkReachable reachable } :=
  ⟨h.geometry, h.visible, h.focused, h.clipboard, rfl⟩

/-- What a loop outside a leg does with a command that it does not lose. -/
theorem Known.receive {m : Recall Geometry} {s : Session Geometry} (h : m.Known s.actor)
    {loop : CommandLoop} {cmd : SessionCommand Geometry} {cmds : List (SessionCommand Geometry)}
    (hphase : s.phase.loop = some loop) (hcmds : s.cmds = cmd :: cmds) (hloop : loop ≠ .active)
    (hkept : s.losesCommand .receive = false) :
    (m.know cmd).Known (s.actor.afterReceive loop s.now cmd) := by
  have hremember := h.remember s.now cmd
  cases loop with
  | active => exact absurd rfl hloop
  | prompt =>
      obtain ⟨redirects, request, leafDer, hprompt⟩ := Phase.prompting_of_loop hphase
      exact h.unchanged cmd (by simpa [Session.losesCommand, hprompt, hcmds] using hkept)
  | startUp =>
      have hstart := Phase.startUp_of_loop hphase
      cases cmd with
      | networkReachable reachable =>
          exact h.unchanged _ (by simpa [Session.losesCommand, hstart, hcmds] using hkept)
      | _ => exact hremember (by simp)
  | backoff =>
      cases cmd with
      | networkReachable reachable => exact h.setNetworkReachable reachable
      | _ => exact hremember (by simp)
  | idle =>
      have hidle := Phase.idle_of_loop hphase
      cases cmd with
      | networkReachable reachable => exact h.setNetworkReachable reachable
      | reconnectNow =>
          have hreachable : s.actor.policy.networkReachable = true := by
            simpa [Session.losesCommand, hidle, hcmds] using hkept
          exact ⟨h.geometry, h.visible, h.focused, h.clipboard,
            hreachable.symm.trans h.networkReachable⟩
      | _ => exact hremember (by simp)

theorem liveRule : LiveRule observe Accepts fun (l : Live Geometry) m => m.Known l.actor where
  neutral m o ho := by
    cases o <;> simp_all [Out.isNeutral, Accepts, observe]
  live_congr hcore h := h.congr (LiveCore.ext_iff.mp hcore).1

section Clipboard

variable {platform : Platform Geometry} {now : Instant} {l : Live Geometry} {m : Recall Geometry}

theorem feeds_of_not_local {inputs : List SyncInput}
    (hinputs : ∀ count contents, .localChanged count contents ∉ inputs) (h : m.Known l.actor) :
    Feeds platform observe Accepts (fun l m => m.Known l.actor) now l m inputs := by
  refine feeds_of_handle ?_ h
  intro l m sync input hinput _ hknown
  refine ⟨?_, Known.congr (a := l.actor) rfl hknown⟩
  cases input with
  | localChanged count contents => exact absurd hinput (hinputs count contents)
  | _ => trivial

theorem feedLocal_sat {contents : ClipboardContents} (h : m.Known l.actor)
    (hlocal : l.actor.clipboardLocal = some contents) :
    Sat observe Accepts m (l.feedLocal platform now contents) fun _ l m => m.Known l.actor := by
  have hlast : m.clipboard = some contents := h.clipboard.symm.trans hlocal
  refine liveRule.feed_sat ⟨h.geometry, h.visible, h.focused, h.clipboard, h.networkReachable⟩ ?_
  intro sync _
  exact ⟨⟨hlast, trivial⟩, h.geometry, h.visible, h.focused, h.clipboard, h.networkReachable⟩

theorem replayLocal_sat (h : m.Known l.actor) :
    Sat observe Accepts m (l.replayLocal platform now) fun _ l m => m.Known l.actor := by
  unfold Live.replayLocal
  split
  · exact sat_done h
  · next contents hlocal => exact feedLocal_sat h hlocal

theorem applyVisibility_sat {visible : Bool} (h : m.Known l.actor) :
    Sat observe Accepts m (l.applyVisibility visible) fun _ l m => m.Known l.actor :=
  liveRule.applyVisibility_sat (fun _ => ⟨trivial, rfl⟩) h
    ⟨h.geometry, h.visible, h.focused, h.clipboard, h.networkReachable⟩

end Clipboard

theorem onActivated_sat {cfg : Config Geometry} {now : Instant} {l : Live Geometry}
    {m : Recall Geometry} (h : m.Known l.actor)
    (hnew : l.actor.clipboard =
      some (ClipboardSync.new cfg.profile.clipboard l.actor.view.focused)) :
    Sat observe Accepts m (l.onActivated cfg now) fun _ l m => m.Known l.actor := by
  have hagrees : m.Agrees l.activation := by
    refine ⟨h.geometry, h.visible, ?_, h.clipboard, h.networkReachable⟩
    rw [Live.activation, hnew, Option.map_some, ← h.focused, ClipboardSync.new]
  refine liveRule.onActivated_sat hagrees (Known.congr (a := l.actor) rfl h) (fun _ _ _ h => h) ?_
    fun _ _ h => replayLocal_sat h
  intro l m h
  have hcounted : m.Known { l.actor with activations := l.actor.activations + 1 } :=
    Known.congr (a := l.actor) rfl h
  unfold Live.applyHidden
  split
  · exact sat_done hcounted
  · exact (applyVisibility_sat hcounted).mono fun e _ _ h => by cases e <;> exact h

theorem onCommand_sat {cfg : Config Geometry} {now : Instant} {l : Live Geometry}
    {m : Recall Geometry} (cmd : SessionCommand Geometry) (h : m.Known l.actor) :
    Sat observe Accepts (m.know cmd) (l.onCommand cfg now cmd) fun _ l m => m.Known l.actor := by
  have hremember := h.remember now cmd
  cases cmd with
  | input event =>
      exact liveRule.keeps_sat (Live.sendInputEvents_keeps _ _)
        (Known.congr (a := l.actor) rfl h)
  | resize geometry => exact sat_done (hremember (by simp))
  | setVisible visible =>
      simp only [Live.onCommand]
      split
      · next hsame =>
          exact sat_done ⟨h.geometry, hsame, h.focused, h.clipboard, h.networkReachable⟩
      · exact applyVisibility_sat (hremember (by simp))
  | focus focused =>
      exact liveRule.feed_sat (hremember (by simp))
        (feeds_of_not_local (by simp) (hremember (by simp)))
  | clipboardLocalChanged contents => exact feedLocal_sat (hremember (by simp)) rfl
  | networkReachable reachable => exact sat_done (h.setNetworkReachable reachable)
  | _ => exact sat_done h

theorem not_local_of_callbacks (callbacks : List BackendEvent) (count : Int)
    (contents : ClipboardContents) :
    .localChanged count contents ∉ callbacks.map BackendEvent.toInput := by
  intro hmem
  obtain ⟨callback, _, hcallback⟩ := List.mem_map.mp hmem
  cases callback <;> simp [BackendEvent.toInput] at hcallback

theorem holds_onChannels (m : Recall Geometry) (leg : Leg) (channels : List ChannelEvent) :
    Transition.Holds observe Accepts m (leg.onChannels channels).2 ∧
      (leg.onChannels channels).2.foldl observe m = m := by
  refine Transition.holds_of_forall ?_
  intro o ho
  obtain ⟨frameId, hidden, rfl⟩ := Leg.frameEnded_of_mem_onChannels ho
  exact ⟨trivial, rfl⟩

theorem rule (cfg : Config Geometry) :
    Rule cfg observe Accepts (fun s _ e => s.losesCommand e = false) (fun a m => m.Known a)
      (fun l m => m.Known l.actor) where
  toLiveRule := liveRule
  closing m loop cmd hcmd := by
    rcases hcmd with rfl | rfl <;> exact ⟨trivial, rfl⟩
  actor_congr hcore h := h.congr hcore
  leave h := h
  receive s m loop cmd cmds hphase hloop hcmds _ hkept h :=
    ⟨trivial, h.receive hphase hcmds hloop hkept⟩
  command s m redirects leg cmd cmds _ _ _ _ h :=
    ⟨trivial, (onCommand_sat cmd h).mono fun e _ _ h => by cases e <;> exact h⟩
  activate s m redirects request desktop clipboard link a _ _ h hcore hnew :=
    (onActivated_sat (h.congr hcore) hnew).mono fun e _ _ h => by cases e <;> exact h
  channels s m leg pdu _ _ h := by
    obtain ⟨hholds, hsame⟩ := holds_onChannels m leg pdu.channels
    exact ⟨hholds, by rw [hsame]; exact h⟩
  callbacks s m redirects leg pdu l _ _ _ _ h :=
    feeds_of_not_local (not_local_of_callbacks pdu.callbacks) h
  tick l m now h := feeds_of_not_local (by simp) h
  present l m index h := h
  drain l m h := h

/-- Commands of every kind in the loops between two legs, on a leg and during a prompt that changes
nothing. -/
def commandsEverywhere : List (Event Nat) :=
  commands (.resize 3) ++ commands (.setVisible false) ++ [.graceOver, .negotiated, .secured [1]] ++
    commands (.setVisible false) ++ commands (.acceptCertificate [1] false) ++
    [.finalized ⟨1280, 800⟩ true none] ++ commands (.clipboardLocalChanged ⟨[.text "hi"]⟩) ++
    commands (.setVisible true) ++ [.readFailed .connectionReset] ++ commands (.focus true) ++
    commands (.networkReachable false) ++ commands (.resize 4) ++ commands .cancel ++
    commands (.networkReachable true) ++ commands .reconnectNow ++
    [.negotiated, .secured [1], .finalized ⟨1280, 800⟩ true none]

end Recall

end Drift.Rdp
