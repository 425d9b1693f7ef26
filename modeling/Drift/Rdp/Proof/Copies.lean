import Drift.Clipboard.Proof.Advertising
import Drift.Rdp.Proof.Rule
import Drift.Rdp.Record

/-!
# Local copies are advertised

The actor counts the local changes itself and never acknowledges a write, so a channel swallows exactly
the local changes that equal its last write.
-/

namespace Drift.Rdp

open Input Clipboard Gfx Outcome

variable {Geometry : Type} {prefs : ClipboardPrefs} {m : List ClipboardContents}

namespace Copies

/-- A channel of the session: no write is acknowledged, and the changes are numbered. -/
structure Numbered (prefs : ClipboardPrefs) (changeCount : Int) (sync : ClipboardSync) : Prop where
  prefs_eq : sync.prefs = prefs
  ownWrites : sync.ownWrites = []
  lastLocalChangeCount : ∀ count, sync.lastLocalChangeCount = some count → count ≤ changeCount

def Channel (prefs : ClipboardPrefs) (l : Live Geometry) (_ : List ClipboardContents) : Prop :=
  ∀ sync, l.actor.clipboard = some sync → Numbered prefs l.actor.changeCount sync

theorem numbered_new (focused : Bool) (changeCount : Int) :
    Numbered prefs changeCount (.new prefs focused) :=
  ⟨rfl, rfl, by simp [ClipboardSync.new]⟩

theorem Numbered.mono {changeCount changeCount' : Int} {sync : ClipboardSync}
    (h : Numbered prefs changeCount sync) (hle : changeCount ≤ changeCount') :
    Numbered prefs changeCount' sync :=
  ⟨h.prefs_eq, h.ownWrites, fun count hcount => (h.lastLocalChangeCount count hcount).trans hle⟩

theorem Numbered.isOwn_eq {changeCount : Int} {sync : ClipboardSync}
    (h : Numbered prefs changeCount sync) (count : Int) (contents : ClipboardContents) :
    sync.isOwn count contents = decide (sync.unackedWrite = some contents) := by
  simp [ClipboardSync.isOwn, h.ownWrites]

/-- The session feeds neither acknowledged writes nor preferences; its other inputs are not about
local changes. -/
def Foreign : SyncInput → Bool
  | .localChanged _ _ | .localWritten _ | .prefs _ => false
  | _ => true

theorem Numbered.handle_foreign {changeCount : Int} {sync : ClipboardSync}
    (h : Numbered prefs changeCount sync) (images : ImageCodec) (now : Instant) {input : SyncInput}
    (hinput : Foreign input = true) : Numbered prefs changeCount (sync.handle images now input).1 := by
  have hframe : (sync.handle images now input).1.prefs = _ ∧ _ := sync.handle_frame images now
    (by rintro _ _ rfl; cases hinput) (by rintro _ rfl; cases hinput) (by rintro _ rfl; cases hinput)
  obtain ⟨hprefs, howns, hlast, -⟩ := hframe
  exact ⟨hprefs.trans h.prefs_eq, howns.trans h.ownWrites, by rw [hlast]; exact h.lastLocalChangeCount⟩

theorem Numbered.handle_next {changeCount : Int} {sync : ClipboardSync}
    (h : Numbered prefs changeCount sync) (images : ImageCodec) (now : Instant)
    (contents : ClipboardContents) :
    let call := sync.handle images now (.localChanged (changeCount + 1) contents)
    Numbered prefs (changeCount + 1) call.1 ∧
      call.2.filterMap SyncAction.formatList? =
        if sync.canSync && decide (sync.unackedWrite ≠ some contents) then
          [outboundFormats (filterLocal contents prefs).1 prefs] else [] := by
  have hnew : sync.lastLocalChangeCount ≠ some (changeCount + 1) := by
    intro hsome
    have hle := h.lastLocalChangeCount _ hsome
    omega
  obtain ⟨-, hprefs, howns, hlast⟩ := sync.onLocalChange_frame (changeCount + 1) contents now
  refine ⟨⟨hprefs.trans h.prefs_eq, howns.trans h.ownWrites, ?_⟩, ?_⟩
  · intro count hcount
    rw [ClipboardSync.handle, hlast] at hcount
    cases hcount
    exact le_refl _
  · rw [ClipboardSync.handle, ClipboardSync.formatLists_onLocalChange hnew, h.isOwn_eq, h.prefs_eq]
    simp

theorem liveRule : LiveRule observe (Advertised prefs) fun (l : Live Geometry) m =>
    Channel prefs l m where
  neutral m o ho := by
    cases o <;> simp_all [Out.isNeutral, Advertised, observe]
  live_congr hcore h := by
    obtain ⟨hactor, hclipboard, -⟩ := LiveCore.ext_iff.mp hcore
    obtain ⟨-, -, -, -, hcount, -⟩ := Core.ext_iff.mp hactor
    intro sync hsync
    rw [hcount]
    exact h sync (hclipboard.symm.trans hsync)

theorem feeds_foreign {platform : Platform Geometry} {now : Instant} {l : Live Geometry}
    {inputs : List SyncInput} (hinputs : ∀ input ∈ inputs, Foreign input = true)
    (h : Channel prefs l m) :
    Feeds platform observe (Advertised prefs) (fun l m => Channel prefs l m) now l m inputs := by
  refine feeds_of_handle ?_ h
  intro l m sync input hinput hsync h
  refine ⟨?_, ?_⟩
  · cases input with
    | localChanged count contents => cases hinputs _ hinput
    | _ => trivial
  · rintro _ ⟨⟩
    exact (h sync hsync).handle_foreign platform.images now (hinputs input hinput)

/-- A local change of which the channel is either not aware or not the writer, unless its report is
owed. -/
theorem feedLocal_sat {platform : Platform Geometry} {now : Instant} {l : Live Geometry}
    {contents : ClipboardContents} (h : Channel prefs l m)
    (hwrite : ∀ sync, l.actor.clipboard = some sync → sync.canSync = true →
      sync.unackedWrite = some contents → contents ∈ m) :
    Sat observe (Advertised prefs) m (l.feedLocal platform now contents) fun _ l m =>
      Channel prefs l m := by
  have hcounted : Channel prefs { l with
      actor := { l.actor with changeCount := l.actor.changeCount + 1 } } m :=
    fun sync hsync => (h sync hsync).mono (Int.le_add_one le_rfl)
  refine liveRule.feed_sat hcounted ?_
  intro sync hsync
  obtain ⟨hnext, hlists⟩ := (h sync hsync).handle_next platform.images now contents
  refine ⟨⟨?_, trivial⟩, ?_⟩
  · intro hcanSync
    by_cases hown : sync.unackedWrite = some contents
    · exact .inl (hwrite sync hsync hcanSync hown)
    · refine .inr ?_
      rw [hlists]
      simp [hcanSync, hown]
  · rintro _ ⟨⟩
    exact hnext

theorem kept_of_channel {e : Option LegEnd} {l : Live Geometry} (h : Channel prefs l m) :
    Kept (fun _ _ => True) (fun l m => Channel prefs l m) e l m := by
  cases e with
  | none => exact h
  | some e => trivial

/-- A channel that is not ready takes the replayed contents for later. -/
theorem onActivated_sat {cfg : Config Geometry} {now : Instant} {l : Live Geometry}
    (hnew : l.actor.clipboard =
      some (ClipboardSync.new cfg.profile.clipboard l.actor.view.focused)) :
    Sat observe (Advertised cfg.profile.clipboard) m (l.onActivated cfg now) fun _ l m =>
      Channel cfg.profile.clipboard l m := by
  -- Until the replay the channel is the new one.
  let Fresh := fun (l : Live Geometry) (_ : List ClipboardContents) =>
    ∃ focused, l.actor.clipboard = some (ClipboardSync.new cfg.profile.clipboard focused)
  have hchannel : ∀ l m, Fresh l m → Channel cfg.profile.clipboard l m := by
    rintro l m ⟨focused, heq⟩ sync hsync
    cases heq.symm.trans hsync
    exact numbered_new focused l.actor.changeCount
  have hrule : LiveRule observe (Advertised cfg.profile.clipboard) Fresh := by
    refine ⟨liveRule.neutral, ?_⟩
    rintro l l' m hcore ⟨focused, heq⟩
    exact ⟨focused, (LiveCore.ext_iff.mp hcore).2.1.trans heq⟩
  refine hrule.onActivated_sat (K := Fresh) trivial ⟨_, hnew⟩ (fun _ l m h => hchannel l m h)
    (fun l m hfresh => ?_) ?_
  · unfold Live.applyHidden
    split
    · exact sat_done hfresh
    · refine Sat.mono (Q := fun _ l m => Fresh l m)
        (hrule.applyVisibility_sat (fun _ => ⟨trivial, rfl⟩) hfresh hfresh) fun e l m h => ?_
      cases e with
      | none => exact h
      | some e => exact hchannel l m h
  · intro l m hfresh
    unfold Live.replayLocal
    split
    · exact sat_done (hchannel l m hfresh)
    · refine feedLocal_sat (hchannel l m hfresh) ?_
      obtain ⟨focused, heq⟩ := hfresh
      intro sync hsync hcanSync
      cases heq.symm.trans hsync
      simp [ClipboardSync.canSync, ClipboardSync.new] at hcanSync

variable [BEq Geometry]

theorem onCommand_sat {cfg : Config Geometry} {now : Instant} {l : Live Geometry}
    (cmd : SessionCommand Geometry) (h : Channel prefs l m)
    (hwrite : ∀ contents sync, cmd = .clipboardLocalChanged contents →
      l.actor.clipboard = some sync → sync.canSync = true → sync.unackedWrite = some contents →
        contents ∈ m) :
    Sat observe (Advertised prefs) m (l.onCommand cfg now cmd) fun _ l m => Channel prefs l m := by
  cases cmd with
  | input event =>
      have hinput : Channel prefs { l with
          actor := { l.actor with
            typist := l.actor.typist.onInput event now
            input := (l.actor.input.encode event).1 } } m := h
      exact liveRule.keeps_sat (Live.sendInputEvents_keeps _ _) hinput
  | setVisible visible =>
      have hset : Channel prefs { l with actor := l.actor.remember now (.setVisible visible) } m := h
      simp only [Live.onCommand]
      split
      · exact sat_done h
      · exact liveRule.applyVisibility_sat (fun _ => ⟨trivial, rfl⟩) hset hset
  | focus focused =>
      have hfocus : Channel prefs { l with actor := l.actor.remember now (.focus focused) } m := h
      exact liveRule.feed_sat hfocus (feeds_foreign (by simp [Foreign]) hfocus)
  | clipboardLocalChanged contents =>
      have hlocal : Channel prefs
          { l with actor := l.actor.remember now (.clipboardLocalChanged contents) } m := h
      exact feedLocal_sat hlocal fun sync => hwrite contents sync rfl
  | _ => exact sat_done h

theorem rule (cfg : Config Geometry) :
    Rule cfg observe (Advertised cfg.profile.clipboard) (fun s m e => s.repeatsWrite m e = false)
      (fun _ _ => True) (fun l m => Channel cfg.profile.clipboard l m) where
  toLiveRule := liveRule
  closing m loop cmd _ := ⟨trivial, rfl⟩
  actor_congr _ _ := trivial
  leave _ := trivial
  receive s m loop cmd cmds _ _ _ _ _ _ := ⟨trivial, trivial⟩
  command s m redirects leg cmd cmds hphase hcmds _ hP h := by
    refine ⟨trivial, (onCommand_sat cmd h ?_).mono fun _ _ _ h => kept_of_channel h⟩
    rintro contents sync rfl hsync hcanSync hunacked
    have hclipboard : s.actor.clipboard = some sync := hsync
    simpa [Session.repeatsWrite, hphase, hcmds, hclipboard, hcanSync, hunacked] using hP
  activate s m redirects request desktop clipboard link a _ _ _ _ hnew :=
    (onActivated_sat hnew).mono fun _ _ _ h => kept_of_channel h
  channels s m leg pdu _ _ h := by
    have houts : ∀ o ∈ (leg.onChannels pdu.channels : Leg × List (Out Geometry)).2,
        Advertised cfg.profile.clipboard m o ∧ observe m o = m := by
      intro o ho
      obtain ⟨frameId, hidden, rfl⟩ := Leg.frameEnded_of_mem_onChannels ho
      exact ⟨trivial, rfl⟩
    obtain ⟨hholds, hsame⟩ := Transition.holds_of_forall houts
    exact ⟨hholds, by rw [hsame]; exact h⟩
  callbacks s m redirects leg pdu l _ _ _ _ h := by
    refine feeds_foreign ?_ h
    intro input hinput
    obtain ⟨callback, _, rfl⟩ := List.mem_map.mp hinput
    cases callback <;> rfl
  tick l m now h := feeds_foreign (by simp [Foreign]) h
  present l m index h := h
  drain l m h := h

/-- A focused leg whose server copies a text, and what the app reports then. -/
def remoteText (texts : List String) : List (Event Nat) :=
  [.graceOver] ++ connects [] ++ commands (.focus true) ++
    [.pdu ⟨[.cliprdrReady], [.initialFormatList], .ok []⟩,
      .pdu ⟨[], [.remoteCopy [.standard cfText]], .ok []⟩,
      .pdu ⟨[], [.dataResponse (some [97])], .ok []⟩] ++
    texts.flatMap fun text => commands (.clipboardLocalChanged ⟨[.text text]⟩)

end Copies

end Drift.Rdp
