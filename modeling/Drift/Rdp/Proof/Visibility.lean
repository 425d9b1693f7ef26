import Drift.Rdp.Proof.Rule
import Drift.Rdp.Record

/-!
# The sink, the server and the acknowledgements follow the visibility

The visibility lives in the view of the app, in the sink, in what the server was told, and in the
acknowledgement policy of the graphics channel. `Shown.Live` ties the four together on a live leg. Its
part about the sink and its part about the policy are guarded, since they rest on different conditions
on the run.
-/

namespace Drift.Rdp

open Input Clipboard Gfx Outcome

variable {Geometry : Type} {sink policy : Prop}

/-- Between legs the view holds the last command, whatever the sink and the server show. -/
def Shown.Viewed (m : Shown) (a : Actor Geometry) : Prop := a.view.visible = m.last

/-- On a live leg. A registered channel has a fresh policy. -/
structure Shown.Live (sink policy : Prop) (m : Shown) (l : Live Geometry) : Prop where
  viewed : m.Viewed l.actor
  followed : sink → m.Followed l.actor
  registered : policy → l.leg.gfx = .registered → l.leg.acks.acks.hidden = false
  opened : policy → l.leg.gfx = .opened → l.leg.acks.acks.hidden = !m.last

namespace Shown

variable {m : Shown}

def Owes (policy : Prop) (m : Shown) (o : Out Geometry) : Prop := policy → m.Acked o

theorem Viewed.congr {a a' : Actor Geometry} (hcore : a'.core = a.core) (h : m.Viewed a) :
    m.Viewed a' := by
  obtain ⟨-, hview, -⟩ := Core.ext_iff.mp hcore
  rw [Viewed, hview]
  exact h

theorem Followed.congr {a a' : Actor Geometry} (hgraphics : a'.graphics = a.graphics)
    (h : m.Followed a) : m.Followed a' :=
  ⟨by rw [hgraphics]; exact h.sink, h.server⟩

theorem Live.congr {l l' : Rdp.Live Geometry} (hcore : l'.core = l.core)
    (h : m.Live sink policy l) : m.Live sink policy l' := by
  obtain ⟨hactor, -, hgfx, hacks⟩ := LiveCore.ext_iff.mp hcore
  obtain ⟨hgraphics, -⟩ := Core.ext_iff.mp hactor
  refine ⟨h.viewed.congr hactor, fun hsink => (h.followed hsink).congr hgraphics, ?_, ?_⟩
  · rw [hgfx, hacks]
    exact h.registered
  · rw [hgfx, hacks]
    exact h.opened

/-- Acknowledgements of presented and drained frames do not touch the policy. -/
theorem Live.acks {l : Rdp.Live Geometry} {acks : Gfx.System}
    (hhidden : acks.acks.hidden = l.leg.acks.acks.hidden) (h : m.Live sink policy l) :
    m.Live sink policy { l with leg := { l.leg with acks := acks } } := by
  refine ⟨h.viewed, h.followed, ?_, ?_⟩
  · simp only [hhidden]
    exact h.registered
  · simp only [hhidden]
    exact h.opened

theorem neutral (m : Shown) (o : Out Geometry) (ho : o.isNeutral = true) :
    Owes policy m o ∧ observe m o = m := by
  cases o with
  | wrote frame => cases frame <;> simp_all [Out.isNeutral, Owes, Acked, observe]
  | _ => simp_all [Out.isNeutral, Owes, Acked, observe]

theorem liveRule : LiveRule observe (Owes policy)
    fun (l : Rdp.Live Geometry) m => m.Live sink policy l where
  neutral := neutral
  live_congr hcore h := h.congr hcore

theorem feeds {platform : Platform Geometry} {now : Instant} {l : Rdp.Live Geometry}
    {inputs : List SyncInput} (h : m.Live sink policy l) :
    Feeds platform observe (Owes policy) (fun l m => m.Live sink policy l) now l m inputs := by
  refine feeds_of_handle ?_ h
  intro l m sync input _ _ h
  exact ⟨fun _ => trivial, h.viewed, fun hsink => Followed.congr (a := l.actor) rfl (h.followed hsink),
    h.registered, h.opened⟩

/-- A change of visibility brings the sink, the server and the policy into line with the view. -/
theorem applyVisibility_sat {l : Rdp.Live Geometry} {visible : Bool} (hlast : m.last = visible)
    (hviewed : m.Viewed l.actor)
    (hregistered : policy → l.leg.gfx = .registered → l.leg.acks.acks.hidden = false) :
    Sat observe (Owes policy) m (l.applyVisibility visible)
      (Kept (fun a m => m.Viewed a) fun l m => m.Live sink policy l) := by
  have hset : m.Viewed (l.setVisible visible).actor := hviewed
  refine Rdp.applyVisibility_sat ?_ ?_
  · rintro l' e (hcore | hcore)
    · exact hviewed.congr (LiveCore.ext_iff.mp hcore).1
    · exact hset.congr (LiveCore.ext_iff.mp hcore).1
  · intro l' rect hcore hrect
    refine ⟨fun _ => trivial, Live.congr hcore ⟨hviewed, ?_, ?_, ?_⟩⟩
    · intro _
      exact ⟨hlast.symm, by simp [observe, hrect, hlast]⟩
    · intro hpolicy hgfx
      simp only [Live.setVisible] at hgfx ⊢
      split at hgfx
      · next hopened => simp_all
      · next hopened => simpa [hopened] using hregistered hpolicy hgfx
    · intro hpolicy hgfx
      simp only [Live.setVisible] at hgfx ⊢
      split at hgfx
      · next hopened => simp [observe, hopened, AckState.setHidden, hlast]
      · next hopened => exact absurd hgfx hopened

theorem replayLocal_sat {platform : Platform Geometry} {now : Instant} {l : Rdp.Live Geometry}
    (h : m.Live sink policy l) :
    Sat observe (Owes policy) m (l.replayLocal platform now) fun _ l m =>
      m.Live sink policy l := by
  unfold Live.replayLocal
  split
  · exact sat_done h
  · next contents _ =>
      have hcounted : m.Live sink policy { l with
          actor := { l.actor with changeCount := l.actor.changeCount + 1 } } :=
        ⟨h.viewed, fun hsink => Followed.congr (a := l.actor) rfl (h.followed hsink),
          h.registered, h.opened⟩
      exact liveRule.feed_sat hcounted (feeds hcounted)

theorem kept_of_live {e : Option LegEnd} {l : Rdp.Live Geometry} (h : m.Live sink policy l) :
    Kept (fun a m => m.Viewed a) (fun l m => m.Live sink policy l) e l m := by
  cases e with
  | none => exact h
  | some e => exact h.viewed

/-- The activation of a leg, hidden, or visible over a sink that shows. -/
theorem onActivated_sat {cfg : Config Geometry} {now : Instant} {a : Actor Geometry}
    {desktop : Size} {clipboard : Bool} {link : Option (Nat × IoFailure)} (hviewed : m.Viewed a)
    (hsink : sink → a.view.visible = true → a.graphics.visible = true) :
    Sat observe (Owes policy) m (Live.onActivated cfg now ⟨a, Leg.new desktop clipboard link⟩)
      (Kept (fun a m => m.Viewed a) fun l m => m.Live sink policy l) := by
  -- What holds until the visibility is applied.
  let Fresh := fun (l : Rdp.Live Geometry) (m : Shown) =>
    m.Viewed l.actor ∧ m.told = none ∧ l.leg.gfx = .registered ∧
      l.leg.acks.acks.hidden = false ∧
      (sink → l.actor.view.visible = true → l.actor.graphics.visible = true)
  have hfresh : ∀ {l l' : Rdp.Live Geometry} {m}, l'.core = l.core → Fresh l m → Fresh l' m := by
    rintro l l' m hcore ⟨hviewed, htold, hgfx, hhidden, hsink⟩
    obtain ⟨hactor, -, hgfx', hacks⟩ := LiveCore.ext_iff.mp hcore
    obtain ⟨hgraphics, hview, -⟩ := Core.ext_iff.mp hactor
    exact ⟨hviewed.congr hactor, htold, hgfx'.trans hgfx, by rw [hacks]; exact hhidden,
      by rw [hview, hgraphics]; exact hsink⟩
  have hrule : LiveRule observe (Owes policy) Fresh := ⟨neutral, hfresh⟩
  refine hrule.onActivated_sat (fun _ => trivial)
    ⟨hviewed, rfl, rfl, rfl, hsink⟩ (fun _ _ _ h => h.1) ?_
    fun _ _ h => (replayLocal_sat h).mono fun _ _ _ h => kept_of_live h
  rintro l m ⟨hviewed, htold, hgfx, hhidden, hsink⟩
  unfold Live.applyHidden
  split
  · next hvisible =>
      have hlast : m.last = true := Eq.trans (Eq.symm hviewed) hvisible
      refine sat_done ⟨hviewed, fun h => ⟨?_, ?_⟩, fun _ _ => hhidden, ?_⟩
      · exact (hsink h hvisible).trans hlast.symm
      · rw [htold, hlast]
        rfl
      · intro _ hopened
        exact absurd (hgfx.symm.trans hopened) (by decide)
  · next hvisible =>
      have hlast : m.last = false := Eq.trans (Eq.symm hviewed) (Bool.eq_false_iff.mpr hvisible)
      refine Sat.mono (Q := Kept (fun a m => m.Viewed a) fun l m => m.Live sink policy l)
        (applyVisibility_sat hlast ?_ ?_) fun e _ _ h => by cases e <;> exact h
      · exact hviewed
      · exact fun _ _ => hhidden

theorem onCommand_sat {cfg : Config Geometry} {now : Instant} {l : Rdp.Live Geometry}
    (cmd : SessionCommand Geometry) [BEq Geometry] (h : m.Live sink policy l) :
    Sat observe (Owes policy) (observe m (.received .active (some cmd))) (l.onCommand cfg now cmd)
      (Kept (fun a m => m.Viewed a) fun l m => m.Live sink policy l) := by
  have hactor : ∀ a : Actor Geometry, a.view.visible = l.actor.view.visible →
      a.graphics = l.actor.graphics → m.Live sink policy { l with actor := a } := by
    intro a hview hgraphics
    exact ⟨hview.trans h.viewed, fun hsink => (h.followed hsink).congr hgraphics, h.registered,
      h.opened⟩
  cases cmd with
  | setVisible visible =>
      simp only [Live.onCommand]
      split
      · next hsame =>
          have hlast : m.last = visible := Eq.trans (Eq.symm h.viewed) hsame
          have hobserve : observe m (.received .active
              (some (.setVisible visible : SessionCommand Geometry))) = m := by
            rw [observe, ← hlast]
          rw [hobserve]
          exact sat_done h
      · exact applyVisibility_sat rfl rfl h.registered
  | input event =>
      have hinput := hactor { l.actor with
        typist := l.actor.typist.onInput event now
        input := (l.actor.input.encode event).1 } rfl rfl
      exact (liveRule.keeps_sat (Live.sendInputEvents_keeps _ _) hinput).mono
        fun _ _ _ h => kept_of_live h
  | resize geometry => exact sat_done (hactor _ rfl rfl)
  | focus focused =>
      have hfocus := hactor (l.actor.remember now (.focus focused)) rfl rfl
      exact (liveRule.feed_sat hfocus (feeds hfocus)).mono fun _ _ _ h => kept_of_live h
  | clipboardLocalChanged contents =>
      have hlocal := hactor { l.actor.remember now (.clipboardLocalChanged contents) with
        changeCount := l.actor.changeCount + 1 } rfl rfl
      exact (liveRule.feed_sat hlocal (feeds hlocal)).mono fun _ _ _ h => kept_of_live h
  | networkReachable reachable => exact sat_done (hactor _ rfl rfl)
  | _ => exact sat_done h

theorem onChannel_holds {a : Actor Geometry} {leg : Leg} (event : ChannelEvent)
    (hopens : policy → leg.gfx = .registered → event = .gfxOpened → a.view.visible = true)
    (h : m.Live sink policy ⟨a, leg⟩) :
    Transition.Holds observe (Owes policy) m (leg.onChannel event : Leg × List (Out Geometry)).2 ∧
      ((leg.onChannel event : Leg × List (Out Geometry)).2.foldl observe m).Live sink policy
        ⟨a, (leg.onChannel event : Leg × List (Out Geometry)).1⟩ := by
  have hleg : ∀ leg' : Leg, leg'.gfx = leg.gfx → leg'.acks = leg.acks →
      m.Live sink policy ⟨a, leg'⟩ := by
    intro leg' hgfx hacks
    exact Live.congr (l := ⟨a, leg⟩) (LiveCore.ext_iff.mpr ⟨rfl, rfl, hgfx, hacks⟩) h
  cases event with
  | gfxOpened =>
      simp only [Leg.onChannel]
      split
      · next hgfx =>
          refine ⟨trivial, h.viewed, h.followed, fun _ hother => (by cases hother), fun hpolicy _ => ?_⟩
          have hlast : m.last = true :=
            Eq.trans (Eq.symm h.viewed) (hopens hpolicy hgfx rfl)
          simpa [hlast] using h.registered hpolicy hgfx
      · exact ⟨trivial, h⟩
  | gfxClosed =>
      simp only [Leg.onChannel]
      split
      · exact ⟨trivial, h.viewed, h.followed, fun _ hother => (by cases hother),
          fun _ hother => by cases hother⟩
      · exact ⟨trivial, h⟩
  | frameEnded frameId =>
      simp only [Leg.onChannel]
      split
      · next hgfx =>
          exact ⟨⟨fun hpolicy => h.opened hpolicy hgfx, trivial⟩, Live.acks (l := ⟨a, leg⟩) rfl h⟩
      · exact ⟨trivial, h⟩
  | resetGraphics output =>
      simp only [Leg.onChannel]
      split
      · exact ⟨trivial, hleg _ rfl rfl⟩
      · exact ⟨trivial, h⟩
  | displayControlReady caps =>
      simp only [Leg.onChannel]
      split
      · exact ⟨trivial, h⟩
      · exact ⟨trivial, hleg _ rfl rfl⟩
  | displayControlClosed =>
      simp only [Leg.onChannel]
      split
      · exact ⟨trivial, hleg _ rfl rfl⟩
      · exact ⟨trivial, h⟩
  | cliprdrReady =>
      simp only [Leg.onChannel]
      split
      · exact ⟨trivial, hleg _ rfl rfl⟩
      · exact ⟨trivial, h⟩

theorem gfx_onChannel {leg : Leg} {event : ChannelEvent}
    (h : (leg.onChannel event : Leg × List (Out Geometry)).1.gfx = .registered) :
    leg.gfx = .registered := by
  cases event <;> simp only [Leg.onChannel] at h <;> split at h <;> simp_all

/-- The channels keep the policy, unless one opens on a hidden session. -/
theorem onChannels_holds {a : Actor Geometry} {leg : Leg} {channels : List ChannelEvent}
    (hopens : policy → leg.gfx = .registered → .gfxOpened ∈ channels → a.view.visible = true)
    (h : m.Live sink policy ⟨a, leg⟩) :
    Transition.Holds observe (Owes policy) m (leg.onChannels channels : Leg × List (Out Geometry)).2 ∧
      ((leg.onChannels channels : Leg × List (Out Geometry)).2.foldl observe m).Live sink policy
        ⟨a, (leg.onChannels channels : Leg × List (Out Geometry)).1⟩ := by
  induction channels generalizing leg m with
  | nil => exact ⟨trivial, h⟩
  | cons event events ih =>
      obtain ⟨hfirst, hlive⟩ := onChannel_holds event (fun hpolicy hgfx hevent =>
        hopens hpolicy hgfx (hevent ▸ List.mem_cons_self)) h
      obtain ⟨hrest, hend⟩ := ih (fun hpolicy hgfx hmem =>
        hopens hpolicy (gfx_onChannel hgfx) (List.mem_cons_of_mem event hmem)) hlive
      simp only [Leg.onChannels, Transition.holds_append, List.foldl_append]
      exact ⟨⟨hfirst, hrest⟩, hend⟩

/-- The conditions on a step: no prompt takes the visibility, no leg is activated over a hidden sink,
no graphics channel opens on a hidden session. -/
def Steps (sink policy : Prop) (s : Session Geometry) (_ : Shown) (e : Event Geometry) : Prop :=
  s.promptTakesVisibility e = false ∧ (sink → s.activatesOverHiddenSink e = false) ∧
    (policy → s.opensWhileHidden e = false)

variable [BEq Geometry]

theorem viewed_afterReceive {s : Session Geometry} {loop : CommandLoop}
    {cmd : SessionCommand Geometry} {cmds : List (SessionCommand Geometry)}
    (hloop : s.phase.loop = some loop) (hcmds : s.cmds = cmd :: cmds)
    (hprompt : s.promptTakesVisibility .receive = false) (h : m.Viewed s.actor) :
    (observe m (.received loop (some cmd))).Viewed (s.actor.afterReceive loop s.now cmd) := by
  cases cmd with
  | setVisible visible =>
      cases loop with
      | prompt =>
          obtain ⟨redirects, request, leafDer, hphase⟩ := Phase.prompting_of_loop hloop
          have hsame : s.actor.view.visible = visible := by
            simpa [Session.promptTakesVisibility, hphase, hcmds] using hprompt
          exact hsame
      | _ => rfl
  | _ => cases loop <;> exact h

theorem rule (cfg : Config Geometry) (sink policy : Prop) :
    Rule cfg observe (Owes policy) (Steps sink policy) (fun a m => m.Viewed a)
      (fun l m => m.Live sink policy l) where
  toLiveRule := liveRule
  closing m loop cmd hcmd := by
    rcases hcmd with rfl | rfl <;> exact ⟨fun _ => trivial, rfl⟩
  actor_congr hcore h := h.congr hcore
  leave h := h.viewed
  receive s m loop cmd cmds hloop _ hcmds _ hP h :=
    ⟨fun _ => trivial, viewed_afterReceive hloop hcmds hP.1 h⟩
  command s m redirects leg cmd cmds _ _ _ _ h := ⟨fun _ => trivial, onCommand_sat cmd h⟩
  activate s m redirects request desktop clipboard link a hphase hP h hcore _ := by
    obtain ⟨hgraphics, hview, -⟩ := Core.ext_iff.mp hcore
    refine onActivated_sat (h.congr hcore) ?_
    intro hsink
    have hover := hP.2.1 hsink
    rw [hview, hgraphics]
    simpa [Session.activatesOverHiddenSink, hphase] using hover
  channels s m leg pdu hleg hP h := by
    refine onChannels_holds ?_ h
    intro hpolicy hgfx hmem
    have hopens := hP.2.2 hpolicy
    simp only [Session.opensWhileHidden, hleg, hgfx] at hopens
    have hany : pdu.channels.any (·.opensGfx) = true := List.any_eq_true.mpr ⟨_, hmem, rfl⟩
    rw [hany] at hopens
    simpa using hopens
  callbacks s m redirects leg pdu l _ _ _ _ h := feeds h
  tick l m now h := feeds h
  present l m index h := by
    refine h.acks ?_
    simp only [Gfx.System.step]
    split
    · rfl
    · next frameId _ =>
        unfold AckState.presented
        cases l.leg.acks.acks.hidden <;> cases l.leg.acks.acks.suspendSent <;>
          simp [AckState.queueAck]
  drain l m h := h.acks rfl

/-- **The sink and the server follow the visibility.** In a run in which no certificate prompt takes a
change of the visibility and no visible leg is activated over a hidden sink, whenever a leg is up its
sink and its server show what the last command asked for. -/
theorem followed_history (cfg : Config Geometry) (es : List (Event Geometry))
    (hes : Transition.Along (Session.step cfg) observe
      (fun s _ e => s.promptTakesVisibility e = false ∧ s.activatesOverHiddenSink e = false)
      (.new cfg) start es) :
    let now := Session.history cfg es
    now.1.phase.leg.isSome → (now.2.foldl observe start).Followed now.1.actor := by
  intro now hleg
  obtain ⟨leg, hleg⟩ := Option.isSome_iff_exists.mp hleg
  have hsteps : Transition.Along (Session.step cfg) observe (Steps True False) (.new cfg) start es :=
    hes.mono fun s m e h => ⟨h.1, fun _ => h.2, False.elim⟩
  have hrelated := ((rule cfg True False).history_holds (m := start) rfl hsteps).2
  exact (hrelated.live hleg).followed trivial

/-- A hidden session that loses its leg and is activated anew, then shown. -/
def hiddenAcrossLegs : List (Event Nat) :=
  [.graceOver] ++ connects [] ++ commands (.setVisible false) ++
    [.readFailed .connectionReset, .elapse (.fromSecs 60), .tick] ++ connects [] ++
    commands (.setVisible true)

theorem followed_history_hiddenAcrossLegs :
    let now := Session.history (sampleConfig (some [])) hiddenAcrossLegs
    now.1.actor.activations = 2 ∧ (now.2.foldl observe start).Followed now.1.actor :=
  ⟨by decide, followed_history _ _ (by decide) (by decide)⟩

/-- A hidden session that loses its leg and is shown before the next one: the sink stays hidden. -/
theorem not_followed_shownInBackoff :
    let now := Session.history (sampleConfig (some []))
      ([.graceOver] ++ connects [] ++ commands (.setVisible false) ++
        [.readFailed .connectionReset] ++ commands (.setVisible true) ++
        [.elapse (.fromSecs 60), .tick] ++ connects [])
    ¬ (now.1.phase.leg.isSome → (now.2.foldl observe start).Followed now.1.actor) := by
  decide

/-- **The acknowledgements follow the visibility.** In a run in which no certificate prompt takes a
change of the visibility and no graphics channel opens on a hidden session, the policy at the end of
every frame is the hidden one exactly when the last command hid the session. -/
theorem acked_history (cfg : Config Geometry) (es : List (Event Geometry))
    (hes : Transition.Along (Session.step cfg) observe
      (fun s _ e => s.promptTakesVisibility e = false ∧ s.opensWhileHidden e = false)
      (.new cfg) start es) :
    Transition.Holds observe Acked start (Session.history cfg es).2 := by
  have hsteps : Transition.Along (Session.step cfg) observe (Steps False True) (.new cfg) start es :=
    hes.mono fun s m e h => ⟨h.1, False.elim, fun _ => h.2⟩
  have howes := ((rule cfg False True).history_holds (m := start) rfl hsteps).1
  exact howes.mono fun m o h => h trivial

/-- A server that opens the graphics channel and ends a frame. -/
def endsFrame : Event Nat := .pdu ⟨[.gfxOpened, .frameEnded 7], [], .ok []⟩

theorem acked_history_hidden :
    Transition.Holds observe Acked start (Session.history (sampleConfig (some []))
      ([.graceOver] ++ connects [] ++ [endsFrame] ++ commands (.setVisible false) ++
        [endsFrame])).2 :=
  acked_history _ _ (by decide)

/-- The channel of a leg that was activated hidden opens with the visible policy. -/
theorem not_acked_openedHidden :
    ¬ Transition.Holds observe Acked start (Session.history (sampleConfig (some []))
      (commands (.setVisible false) ++ [.graceOver] ++ connects [] ++ [endsFrame])).2 := by
  decide

end Shown

end Drift.Rdp
