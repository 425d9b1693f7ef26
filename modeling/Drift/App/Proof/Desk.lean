import Drift.App.Desk
import Drift.Clipboard.Proof.Advertising
import Drift.Rdp.Proof.Rule

/-!
# Writes of the session are not advertised

A report of a write of the session is swallowed when it equals the write that the channel remembers. The
later advertisements that the same contents can cause are a gain of focus and the initial list.
-/

namespace Drift.App

open Input Clipboard Gfx Rdp Outcome

variable {Geometry : Type}

namespace Provenance

variable {m : Provenance}

/-- Nothing is asked of the actor: what matters is decided when an input arrives. -/
abbrev Free (_ : Rdp.Live Geometry) (_ : Provenance) : Prop := True

theorem liveRule : LiveRule observe Faithful fun (_ : Rdp.Live Geometry) _ => True where
  neutral m o ho := by
    cases o <;> simp_all [Rdp.Out.isNeutral, Faithful, observe]
  live_congr _ _ := trivial

/-- A local change that the channel cannot take, or takes for its own, is not advertised. -/
theorem feedLocal_sat {platform : Platform Geometry} {now : Instant} {l : Rdp.Live Geometry}
    {contents : ClipboardContents}
    (hown : m.remembered = true → ∀ sync, l.actor.clipboard = some sync → sync.canSync = true →
      sync.unackedWrite = some contents) :
    Sat observe Faithful m (l.feedLocal platform now contents) fun _ l m => Free l m := by
  refine liveRule.feed_sat trivial ?_
  intro sync hsync
  refine ⟨⟨?_, trivial⟩, trivial⟩
  intro hremembered
  by_cases hseen : sync.lastLocalChangeCount = some (l.actor.changeCount + 1)
  · simp [ClipboardSync.handle, ClipboardSync.onLocalChange, hseen]
  · rw [ClipboardSync.handle, ClipboardSync.formatLists_onLocalChange hseen]
    by_cases hsyncs : sync.canSync = true
    · have hunacked := hown hremembered sync hsync hsyncs
      simp [ClipboardSync.isOwn, hunacked]
    · simp [hsyncs]

theorem onActivated_sat {cfg : Config Geometry} {now : Instant} {l : Rdp.Live Geometry}
    (hnew : l.actor.clipboard =
      some (ClipboardSync.new cfg.profile.clipboard l.actor.view.focused)) :
    Sat observe Faithful m (l.onActivated cfg now) fun _ l m => Free l m := by
  let Fresh := fun (l : Rdp.Live Geometry) (_ : Provenance) =>
    ∀ sync, l.actor.clipboard = some sync → sync.ready = false
  have hfresh : Fresh l (observe m (.activated l.activation)) := by
    intro sync hsync
    cases hnew.symm.trans hsync
    rfl
  have hrule : LiveRule observe Faithful Fresh := by
    refine ⟨liveRule.neutral, ?_⟩
    intro l l' m hcore h sync hsync
    exact h sync ((LiveCore.ext_iff.mp hcore).2.1.symm.trans hsync)
  refine hrule.onActivated_sat (K := Fresh) trivial hfresh (fun _ _ _ _ => trivial)
    (fun l m h => ?_) ?_
  · unfold Rdp.Live.applyHidden
    split
    · exact sat_done h
    · refine Sat.mono (Q := fun _ l m => Fresh l m)
        (hrule.applyVisibility_sat (fun _ => ⟨trivial, rfl⟩) h h) fun e l m h => ?_
      cases e with
      | none => exact h
      | some e => trivial
  · intro l m h
    unfold Rdp.Live.replayLocal
    split
    · exact sat_done trivial
    · refine feedLocal_sat fun _ sync hsync hsyncs => ?_
      have hready := h sync hsync
      simp [ClipboardSync.canSync, hready] at hsyncs

/-- What the clipboard callbacks of a PDU leave of the state before. -/
structure Settled (sync : ClipboardSync) (known : Bool) (l : Rdp.Live Geometry) (m : Provenance) :
    Prop where
  known_eq : m.known = known
  clipboard : ∀ sync', l.actor.clipboard = some sync' →
    sync'.focused = sync.focused ∧ sync'.prefs = sync.prefs ∧ sync'.local' = sync.local'

theorem focused_handle_toInput (images : ImageCodec) (sync : ClipboardSync) (now : Instant)
    (callback : BackendEvent) :
    (sync.handle images now callback.toInput).1.focused = sync.focused := by
  cases callback with
  | initialFormatList =>
      simp only [BackendEvent.toInput, ClipboardSync.handle, ClipboardSync.onInitialRequest]
      split <;> rfl
  | remoteCopy formats =>
      simp only [BackendEvent.toInput, ClipboardSync.handle]
      rw [(sync.onRemoteList_fetches formats now).state]
  | dataRequest formatId => rfl
  | dataResponse data =>
      simp only [BackendEvent.toInput, ClipboardSync.handle]
      rw [(ClipboardSync.onRemoteData_fetches images sync data now).state]

theorem formatLists_onInitialRequest {sync : ClipboardSync} {now : Instant}
    {formats : List ClipFormat}
    (hformats : formats ∈ (sync.onInitialRequest now).2.filterMap SyncAction.formatList?) :
    formats = [] ∨ formats = sync.localFormats ∧ sync.focused = true ∧ sync.prefs ≠ .off ∧
      sync.local'.isSome = true := by
  simp only [ClipboardSync.onInitialRequest] at hformats
  split at hformats
  · next hsyncs =>
      rw [ClipboardSync.formatLists_advertiseLocal] at hformats
      refine .inr ⟨List.mem_singleton.mp hformats, ?_⟩
      simpa [ClipboardSync.canSync, and_assoc] using hsyncs
  · exact .inl (List.mem_singleton.mp hformats)

theorem callbacks_feeds {platform : Platform Geometry} {now : Instant} {l : Rdp.Live Geometry}
    {callbacks : List BackendEvent}
    (hinitial : ∀ sync, l.actor.clipboard = some sync → m.known = true →
      .initialFormatList ∈ callbacks → sync.focused = true → sync.prefs ≠ .off →
        sync.local'.isSome = true → sync.localFormats = []) :
    Feeds platform observe Faithful Free now l m (callbacks.map BackendEvent.toInput) := by
  intro sync hsync
  have hsettled : Settled sync m.known l m := by
    refine ⟨rfl, ?_⟩
    intro sync' hsync'
    cases hsync.symm.trans hsync'
    exact ⟨rfl, rfl, rfl⟩
  have hfeeds : Feeds platform observe Faithful (Settled sync m.known) now l m
      (callbacks.map BackendEvent.toInput) := by
    refine feeds_of_handle ?_ hsettled
    intro l m' sync' input hinput hsync' h
    obtain ⟨callback, hcallback, rfl⟩ := List.mem_map.mp hinput
    obtain ⟨hfocused, hprefs, hlocal⟩ := h.clipboard sync' hsync'
    have hframe : _ ∧ _ ∧ _ ∧ (sync'.handle platform.images now callback.toInput).1.local' = _ :=
      sync'.handle_frame platform.images now (by cases callback <;> simp [BackendEvent.toInput])
        (by cases callback <;> simp [BackendEvent.toInput])
        (by cases callback <;> simp [BackendEvent.toInput])
    obtain ⟨hprefs', -, -, hlocal'⟩ := hframe
    refine ⟨?_, ?_, ?_⟩
    · cases callback with
      | initialFormatList =>
          intro hknown formats hformats
          rw [h.known_eq] at hknown
          rcases formatLists_onInitialRequest hformats with hnil | ⟨hlist, hfocus, hon, hsome⟩
          · exact hnil
          · rw [hfocused] at hfocus
            rw [hprefs] at hon
            rw [hlocal] at hsome
            rw [hlist, ClipboardSync.localFormats, hlocal, hprefs]
            exact hinitial sync hsync hknown hcallback hfocus hon hsome
      | remoteCopy formats => exact fun _ => (sync'.onRemoteList_fetches formats now).silent
      | dataRequest formatId => exact fun _ => rfl
      | dataResponse data =>
          exact fun _ => (ClipboardSync.onRemoteData_fetches platform.images sync' data now).silent
    · cases callback <;> exact h.known_eq
    · rintro _ ⟨⟩
      exact ⟨(focused_handle_toInput platform.images sync' now callback).trans hfocused,
        hprefs'.trans hprefs, hlocal'.trans hlocal⟩
  exact ⟨(hfeeds sync hsync).1, trivial⟩

theorem channels_keep (m : Provenance) (leg : Leg) (pdu : ServerPdu) :
    ∀ o ∈ (leg.onChannels pdu.channels : Leg × List (Rdp.Out Geometry)).2,
      m.Faithful o ∧ m.observe o = m := by
  intro o ho
  obtain ⟨frameId, hidden, rfl⟩ := Leg.frameEnded_of_mem_onChannels ho
  exact ⟨trivial, rfl⟩

variable [BEq Geometry]

theorem onCommand_sat {cfg : Config Geometry} {now : Instant} {l : Rdp.Live Geometry}
    (cmd : SessionCommand Geometry)
    (hreport : ∀ contents sync, cmd = .clipboardLocalChanged contents → m.remembered = true →
      l.actor.clipboard = some sync → sync.canSync = true → sync.unackedWrite = some contents)
    (hfocus : ∀ sync, cmd = .focus true → m.known = true → l.actor.clipboard = some sync →
      sync.pendingLocal = false) :
    Sat observe Faithful m (l.onCommand cfg now cmd) fun _ l m => Free l m := by
  cases cmd with
  | input event => exact liveRule.keeps_sat (Rdp.Live.sendInputEvents_keeps _ _) trivial
  | setVisible visible =>
      simp only [Rdp.Live.onCommand]
      split
      · exact sat_done trivial
      · exact liveRule.applyVisibility_sat (fun _ => ⟨trivial, rfl⟩) trivial trivial
  | focus focused =>
      refine liveRule.feed_sat trivial ?_
      intro sync hsync
      refine ⟨⟨?_, trivial⟩, trivial⟩
      intro hknown
      cases focused with
      | false => rfl
      | true => simp [ClipboardSync.handle, hfocus sync rfl hknown hsync]
  | clipboardLocalChanged contents =>
      exact feedLocal_sat fun hremembered sync hsync hsyncs =>
        hreport contents sync rfl hremembered hsync hsyncs
  | _ => exact sat_done trivial

theorem rule (cfg : Config Geometry) :
    Rule cfg observe Faithful (fun s m e => takesOwnForCopy s m e = false) (fun _ _ => True)
      fun (_ : Rdp.Live Geometry) _ => True where
  toLiveRule := liveRule
  closing m loop cmd hcmd := by
    rcases hcmd with rfl | rfl <;> exact ⟨trivial, rfl⟩
  actor_congr _ _ := trivial
  leave _ := trivial
  receive s m loop cmd cmds _ _ _ _ _ _ := ⟨trivial, trivial⟩
  command s m redirects leg cmd cmds hphase hcmds _ hP _ := by
    refine ⟨trivial, (onCommand_sat cmd ?_ ?_).mono fun e _ _ _ => by cases e <;> trivial⟩
    · rintro contents sync rfl hremembered hsync hsyncs
      have hclipboard : s.actor.clipboard = some sync := hsync
      have hown : m.reports.head?.getD false = true := hremembered
      simpa [takesOwnForCopy, hphase, hcmds, hclipboard, hsyncs, hown] using hP
    · rintro sync rfl hknown hsync
      have hclipboard : s.actor.clipboard = some sync := hsync
      have hknown' : m.known = true := hknown
      simpa [takesOwnForCopy, hphase, hcmds, hclipboard, hknown'] using hP
  activate s m redirects request desktop clipboard link a _ _ _ _ hnew :=
    (onActivated_sat hnew).mono fun e _ _ _ => by cases e <;> trivial
  channels s m leg pdu _ _ _ := ⟨(Transition.holds_of_forall (channels_keep m leg pdu)).1, trivial⟩
  callbacks s m redirects leg pdu l hphase hP _ hclipboard _ := by
    rw [(Transition.holds_of_forall (channels_keep m leg pdu)).2]
    refine callbacks_feeds ?_
    intro sync hsync hknown hmem hfocused hon hsome
    by_contra hformats
    rw [hclipboard] at hsync
    simp [takesOwnForCopy, hphase, hsync, hknown, hfocused, hon, hsome, hformats] at hP
    cases hP _ hmem
  tick l m now _ := by
    intro sync _
    exact ⟨⟨fun _ => rfl, trivial⟩, trivial⟩
  present _ _ _ _ := trivial
  drain _ _ _ := trivial

theorem step_faithful (cfg : DeskConfig Geometry) {d : Desk Geometry} {m : Provenance}
    {e : DeskEvent Geometry}
    (h : Related cfg.session (fun _ _ => True) (fun _ _ => True) d.session m)
    (he : takesOwn d m e = false) :
    Transition.Holds observeDesk FaithfulDesk m (d.step cfg e).2 ∧
      Related cfg.session (fun _ _ => True) (fun _ _ => True) (d.step cfg e).1.session
        ((d.step cfg e).2.foldl observeDesk m) := by
  cases e with
  | session event =>
      simp only [Desk.step]
      split
      · exact ⟨trivial, h⟩
      · have hturn := (rule cfg.session).turn_sat h he
        rw [Transition.holds_map, List.foldl_map]
        exact ⟨hturn.holds, hturn.post⟩
  | write =>
      simp only [Desk.step]
      split <;> exact ⟨trivial, h⟩
  | copy text png tiff => exact ⟨trivial, h⟩
  | tick others =>
      simp only [Desk.step]
      split
      · exact ⟨trivial, h⟩
      · split
        · exact ⟨⟨trivial, trivial⟩, Rule.related_onApp h⟩
        · exact ⟨trivial, h⟩

/-- **The remote clipboard is not advertised back.** In a run in which the session takes no write of its
own for a local copy, no report of such a write is advertised, neither at once nor later. -/
theorem faithful_history (cfg : DeskConfig Geometry) (pasteboard : Pasteboard)
    (es : List (DeskEvent Geometry))
    (hes : Transition.Along (Desk.step cfg) observeDesk (fun d m e => takesOwn d m e = false)
      (.new cfg pasteboard) start es) :
    Transition.Holds observeDesk FaithfulDesk start (Desk.history cfg pasteboard es).2 := by
  have hstart : Related cfg.session (fun _ _ => True) (fun _ _ => True)
      (Desk.new cfg pasteboard).session start := trivial
  exact (Transition.run_holds
    (fun d m => Related cfg.session (fun _ _ => True) (fun _ _ => True) d.session m)
    (fun _ _ _ h he => step_faithful cfg h he) hstart hes).1

/-- A sample desk, on which every image can be converted. -/
def sampleDesk : DeskConfig Nat where
  session := sampleConfig (some [])
  reps := ⟨fun image => some (pngSignature ++ image), some⟩
  window := "main"
  generation := 1

/-- A focused leg whose clipboard channel is ready. -/
def focusedLeg : List (DeskEvent Nat) :=
  let events : List (Rdp.Event Nat) := [.graceOver] ++ connects [] ++ commands (.focus true) ++
    [.pdu ⟨[.cliprdrReady], [.initialFormatList], .ok []⟩]
  events.map .session

def remoteCopy (formatId : Nat) (data : Bytes) : List (DeskEvent Nat) :=
  [.session (.pdu ⟨[], [.remoteCopy [.standard formatId]], .ok []⟩),
    .session (.pdu ⟨[], [.dataResponse (some data)], .ok []⟩)]

/-- The write goes to the pasteboard and the pump reports it. -/
def writeAndReport : List (DeskEvent Nat) := [.write, .tick []]

theorem faithful_history_remoteCopy :
    Transition.Holds observeDesk FaithfulDesk start (Desk.history sampleDesk ⟨0, none, none, none⟩
      (focusedLeg ++ remoteCopy cfText [97] ++ writeAndReport ++ [.session .receive])).2 :=
  faithful_history sampleDesk ⟨0, none, none, none⟩ _ (by decide)

/-- A second remote copy is complete before the report of the first one is received, and an image reads
back as more than was written. -/
theorem not_faithful_secondCopy_tiff :
    (¬ Transition.Holds observeDesk FaithfulDesk start (Desk.history sampleDesk ⟨0, none, none, none⟩
      (focusedLeg ++ remoteCopy cfText [97] ++ writeAndReport ++ remoteCopy cfText [98] ++
        [.session .receive])).2) ∧
    ¬ Transition.Holds observeDesk FaithfulDesk start (Desk.history sampleDesk ⟨0, none, none, none⟩
      (focusedLeg ++ remoteCopy cfTiff [73, 73, 42, 0] ++ writeAndReport ++
        [.session .receive])).2 := by
  decide

end Provenance

end Drift.App
