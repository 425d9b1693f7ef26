import Drift.Rdp.Proof.Frame

/-!
# Invariants of a session

A property of the record of a session is proved with a summary of the record, kept by an observer, and
two relations between the summary and the state: `J` for the actor between legs and `I` for the actor
with a live leg. `Rule` lists what has to be shown about the few operations that the app's commands,
the clipboard and the graphics channel are about; the theorems of this file carry it through the loops
of the actor to every turn and every run.
-/

namespace Drift.Rdp

open Input Clipboard Gfx Outcome

variable {Geometry μ : Type} [BEq Geometry]

section Phases

omit [BEq Geometry]

variable {phase : Phase Geometry}

theorem Phase.prompting_of_loop (h : phase.loop = some .prompt) :
    ∃ redirects request leafDer, phase = .prompting redirects request leafDer := by
  cases phase <;> simp_all [Phase.loop]

theorem Phase.startUp_of_loop (h : phase.loop = some .startUp) : phase = .startUp := by
  cases phase <;> simp_all [Phase.loop]

theorem Phase.idle_of_loop (h : phase.loop = some .idle) : phase = .idle := by
  cases phase <;> simp_all [Phase.loop]

end Phases

/-- What a command received outside a leg changes in the core of the actor. -/
def Actor.afterReceive (a : Actor Geometry) (loop : CommandLoop) (now : Instant)
    (cmd : SessionCommand Geometry) : Actor Geometry :=
  match loop, cmd with
  | .prompt, _ => a
  | .backoff, .networkReachable reachable | .idle, .networkReachable reachable =>
    { a with policy := a.policy.setNetworkReachable reachable }
  | .idle, .reconnectNow => { a with policy := a.policy.reset.setNetworkReachable true }
  | _, cmd => a.remember now cmd

/-- Between legs when the operation ended the leg, on the leg otherwise. -/
def Kept (J : Actor Geometry → μ → Prop) (I : Live Geometry → μ → Prop) :
    Option LegEnd → Live Geometry → μ → Prop
  | none, l, m => I l m
  | some _, l, m => J l.actor m

def Feeds (platform : Platform Geometry) (observe : μ → Out Geometry → μ)
    (accepts : μ → Out Geometry → Prop) (I : Live Geometry → μ → Prop) (now : Instant)
    (l : Live Geometry) (m : μ) (inputs : List SyncInput) : Prop :=
  ∀ sync, l.actor.clipboard = some sync →
    Transition.Holds observe accepts m (Live.handleAll platform now sync inputs).2.1 ∧
      I { l with
          actor := { l.actor with
            clipboard := some (Live.handleAll platform now sync inputs).1 } }
        ((Live.handleAll platform now sync inputs).2.1.foldl observe m)

section Leg

variable {observe : μ → Out Geometry → μ} {accepts : μ → Out Geometry → Prop}

omit [BEq Geometry] in
theorem feeds_of_handle {platform : Platform Geometry} {I : Live Geometry → μ → Prop}
    {now : Instant} {l : Live Geometry} {m : μ} {inputs : List SyncInput}
    (hhandle : ∀ (l : Live Geometry) m sync, ∀ input ∈ inputs, l.actor.clipboard = some sync → I l m →
      let call := sync.handle platform.images now input
      accepts m (.clip sync.canSync input call.2) ∧
        I { l with actor := { l.actor with clipboard := some call.1 } }
          (observe m (.clip sync.canSync input call.2)))
    (h : I l m) : Feeds platform observe accepts I now l m inputs := by
  induction inputs generalizing l m with
  | nil =>
      intro sync hsync
      refine ⟨trivial, ?_⟩
      have hsame : ({ l with actor := { l.actor with clipboard := some sync } } : Live Geometry) =
          l := by rw [← hsync]
      exact hsame ▸ h
  | cons input inputs ih =>
      intro sync hsync
      obtain ⟨haccepts, hnext⟩ := hhandle l m sync input List.mem_cons_self hsync h
      obtain ⟨hholds, hend⟩ := ih (fun l m sync i hi => hhandle l m sync i
        (List.mem_cons_of_mem input hi)) hnext _ rfl
      exact ⟨⟨haccepts, hholds⟩, hend⟩

omit [BEq Geometry] in
theorem Live.core_setVisible_congr {l k : Live Geometry} (h : l.core = k.core) (visible : Bool) :
    (l.setVisible visible).core = (k.setVisible visible).core := by
  obtain ⟨hactor, hclipboard, hgfx, hacks⟩ := LiveCore.ext_iff.mp h
  obtain ⟨-, hview, hgeometry, hlocal, hcount, hreachable⟩ := Core.ext_iff.mp hactor
  simp only [LiveCore.ext_iff, Core.ext_iff, Live.setVisible, hgfx]
  refine ⟨⟨trivial, hview, hgeometry, hlocal, hcount, hreachable⟩, hclipboard, ?_⟩
  split <;> simp [hacks, hgfx]

omit [BEq Geometry] in
/-- The write of Suppress Output fails, or the server is told and the change is applied. -/
theorem applyVisibility_sat {l : Live Geometry} {visible : Bool} {m : μ}
    {Q : Option LegEnd → Live Geometry → μ → Prop}
    (hfail : ∀ l' e, l'.core = l.core ∨ l'.core = (l.setVisible visible).core → Q (some e) l' m)
    (hok : ∀ (l' : Live Geometry) rect, l'.core = (l.setVisible visible).core →
      rect.isSome = visible →
        accepts m (.wrote (.suppressOutput rect)) ∧
          Q none l' (observe m (.wrote (.suppressOutput rect)))) :
    Sat observe accepts m (l.applyVisibility visible) Q := by
  -- The three ways a write goes.
  have hwrite : ∀ (k : Live Geometry) (rect : Option InclusiveRectangle)
      (R : Option LegEnd → Live Geometry → μ → Prop),
      (∀ k' e, k'.core = k.core → R (some e) k' m) →
      (∀ k' : Live Geometry, k'.core = k.core → accepts m (.wrote (.suppressOutput rect)) ∧
        R none k' (observe m (.wrote (.suppressOutput rect)))) →
      Sat observe accepts m (k.write (.suppressOutput rect)) R := by
    intro k rect R hR hR'
    unfold Live.write
    split
    · exact sat_output (hR' k rfl).1 (hR' k rfl).2
    · exact sat_stop (hR k _ rfl)
    · next writes error _ =>
        have hcore := hR' { k with leg := { k.leg with link := some (writes, error) } } rfl
        exact sat_output hcore.1 hcore.2
  cases visible with
  | true =>
      exact hwrite _ _ _ (fun k' e hk => hfail k' e (.inr hk)) fun k' hk => hok k' _ hk rfl
  | false =>
      refine Sat.andThen (hwrite l none (fun e l' m' => match e with
        | some e => Q (some e) l' m'
        | none => Q none (l'.setVisible false) m') ?_ ?_) (fun _ _ _ h => h)
        fun _ _ h => sat_done h
      · exact fun k' e hk => hfail k' e (.inl hk)
      · exact fun k' hk => hok _ none (Live.core_setVisible_congr hk false) rfl

end Leg

/-- The relation does not look at what the frame lemmas leave open. -/
structure LiveRule (observe : μ → Out Geometry → μ) (accepts : μ → Out Geometry → Prop)
    (I : Live Geometry → μ → Prop) : Prop where
  neutral : ∀ m (o : Out Geometry), o.isNeutral = true → accepts m o ∧ observe m o = m
  live_congr : ∀ {l l' : Live Geometry} {m}, l'.core = l.core → I l m → I l' m

namespace LiveRule

variable {observe : μ → Out Geometry → μ} {accepts : μ → Out Geometry → Prop}
  {I : Live Geometry → μ → Prop}

omit [BEq Geometry] in
theorem keeps_sat (rule : LiveRule observe accepts I) {l : Live Geometry} {m : μ}
    {run : LegRun Geometry} (hrun : l.Keeps run) (h : I l m) :
    Sat observe accepts m run fun _ l m => I l m :=
  Within.sat hrun (fun o ho => rule.neutral m o (Out.isNeutral_of_isAside ho)) fun _ _ hrest =>
    rule.live_congr (congrArg Prod.fst hrest) h

omit [BEq Geometry] in
theorem feed_sat (rule : LiveRule observe accepts I) {platform : Platform Geometry}
    {now : Instant} {l : Live Geometry} {m : μ} {inputs : List SyncInput} (h : I l m)
    (hfeeds : Feeds platform observe accepts I now l m inputs) :
    Sat observe accepts m (l.feed platform now inputs) fun _ l m => I l m := by
  unfold Live.feed
  split
  · exact sat_done h
  · next sync hsync =>
      obtain ⟨hholds, hend⟩ := hfeeds sync hsync
      exact sat_prefix hholds (rule.keeps_sat (Live.applyClipboard_keeps ..) hend)

omit [BEq Geometry] in
theorem applyVisibility_sat (rule : LiveRule observe accepts I) {l : Live Geometry} {m : μ}
    {visible : Bool} (hwrote : ∀ rect, accepts m (.wrote (.suppressOutput rect)) ∧
      observe m (.wrote (.suppressOutput rect)) = m) (h : I l m) (hset : I (l.setVisible visible) m) :
    Sat observe accepts m (l.applyVisibility visible) fun _ l m => I l m := by
  refine Rdp.applyVisibility_sat ?_ ?_
  · rintro l' e (hcore | hcore)
    · exact rule.live_congr hcore h
    · exact rule.live_congr hcore hset
  · intro l' rect hcore _
    refine ⟨(hwrote rect).1, ?_⟩
    rw [(hwrote rect).2]
    exact rule.live_congr hcore hset

omit [BEq Geometry] in
/-- The activation of a leg, with the relations before and after the visibility is applied. -/
theorem onActivated_sat {K : Live Geometry → μ → Prop} {Q : Option LegEnd → Live Geometry → μ → Prop}
    {cfg : Config Geometry} {now : Instant} {l : Live Geometry} {m : μ}
    (rule : LiveRule observe accepts I) (haccepts : accepts m (.activated l.activation))
    (h : I (l.welcome cfg now) (observe m (.activated l.activation)))
    (hexit : ∀ e l m, I l m → Q (some e) l m)
    (hhidden : ∀ (l : Live Geometry) m, I l m →
      Sat observe accepts m
        (Live.applyHidden { l with
          actor := { l.actor with activations := l.actor.activations + 1 } }) fun e l m =>
            match e with
            | none => K l m
            | some e => Q (some e) l m)
    (hreplay : ∀ (l : Live Geometry) m, K l m →
      Sat observe accepts m (l.replayLocal cfg.platform now) Q) :
    Sat observe accepts m (l.onActivated cfg now) Q := by
  obtain ⟨hevent, hsame⟩ := rule.neutral (observe m (.activated l.activation))
    (.event (.capabilities (modeHasDisplayControl cfg.profile.mode) (l.leg.cliprdr ≠ .absent))) rfl
  unfold Live.onActivated
  refine sat_prefix ⟨haccepts, hevent, trivial⟩ ?_
  simp only [List.foldl_cons, List.foldl_nil, hsame]
  refine (rule.keeps_sat (Live.resyncInput_keeps _) h).andThen (fun e l m h => hexit e l m h) ?_
  intro l m h
  exact (hhidden l m h).andThen (fun _ _ _ h => h) hreplay

end LiveRule

/-- What keeps `J` and `I` along the outputs, under a condition `P` on the steps. -/
structure Rule (cfg : Config Geometry) (observe : μ → Out Geometry → μ)
    (accepts : μ → Out Geometry → Prop) (P : Session Geometry → μ → Event Geometry → Prop)
    (J : Actor Geometry → μ → Prop) (I : Live Geometry → μ → Prop) : Prop
    extends LiveRule observe accepts I where
  closing : ∀ m loop (cmd : Option (SessionCommand Geometry)), cmd = none ∨ cmd = some .close →
    accepts m (.received loop cmd) ∧ observe m (.received loop cmd) = m
  actor_congr : ∀ {a a' : Actor Geometry} {m}, a'.core = a.core → J a m → J a' m
  leave : ∀ {l : Live Geometry} {m}, I l m → J l.actor m
  /-- A command received outside a leg. -/
  receive : ∀ s m loop cmd cmds, s.phase.loop = some loop → loop ≠ .active →
    s.cmds = cmd :: cmds → cmd ≠ .close → P s m .receive → J s.actor m →
    accepts m (.received loop (some cmd)) ∧
      J (s.actor.afterReceive loop s.now cmd) (observe m (.received loop (some cmd)))
  /-- A command received on a leg. -/
  command : ∀ s m redirects leg cmd cmds, s.phase = .active redirects leg →
    s.cmds = cmd :: cmds → cmd ≠ .close → P s m .receive → I ⟨s.actor, leg⟩ m →
    accepts m (.received .active (some cmd)) ∧
      Sat observe accepts (observe m (.received .active (some cmd)))
        (Live.onCommand cfg s.now ⟨s.actor, leg⟩ cmd) (Kept J I)
  /-- The activation of a leg, whose clipboard is new. -/
  activate : ∀ s m redirects request desktop clipboard link a,
    s.phase = .connecting redirects request .finalizing → P s m (.finalized desktop clipboard link) →
    J s.actor m → a.core = s.actor.core →
    a.clipboard = some (ClipboardSync.new cfg.profile.clipboard a.view.focused) →
    Sat observe accepts m (Live.onActivated cfg s.now ⟨a, Leg.new desktop clipboard link⟩) (Kept J I)
  channels : ∀ s m leg pdu, s.phase.leg = some leg → P s m (.pdu pdu) → I ⟨s.actor, leg⟩ m →
    Transition.Holds observe accepts m (leg.onChannels pdu.channels).2 ∧
      I ⟨s.actor, (leg.onChannels pdu.channels : Leg × List (Out Geometry)).1⟩
        ((leg.onChannels pdu.channels).2.foldl observe m)
  callbacks : ∀ s m redirects leg pdu (l : Live Geometry), s.phase = .active redirects leg →
    P s m (.pdu pdu) → I ⟨s.actor, leg⟩ m → l.actor.clipboard = s.actor.clipboard →
    I l ((leg.onChannels pdu.channels).2.foldl observe m) →
    Feeds cfg.platform observe accepts I s.now l
      ((leg.onChannels pdu.channels).2.foldl observe m) (pdu.callbacks.map BackendEvent.toInput)
  tick : ∀ (l : Live Geometry) m now, I l m →
    Feeds cfg.platform observe accepts I now l m [.tick]
  present : ∀ (l : Live Geometry) m index, I l m →
    I { l with leg := { l.leg with acks := (l.leg.acks.step (.present index)).1 } } m
  drain : ∀ (l : Live Geometry) m, I l m →
    I { l with leg := { l.leg with acks := { l.leg.acks with acks := l.leg.acks.acks.drain.1 } } } m

/-- The relation of a session to the summary of its record. -/
def Related (cfg : Config Geometry) (J : Actor Geometry → μ → Prop)
    (I : Live Geometry → μ → Prop) (s : Session Geometry) (m : μ) : Prop :=
  match s.phase with
  | .active _ leg | .shuttingDown leg => I ⟨s.actor, leg⟩ m
  | .connecting _ _ _ | .prompting _ _ _ =>
    J s.actor m ∧
      s.actor.clipboard = some (ClipboardSync.new cfg.profile.clipboard s.actor.view.focused)
  | .startUp | .backoff _ _ | .idle | .exited => J s.actor m

omit [BEq Geometry] in
theorem Related.live {cfg : Config Geometry} {J : Actor Geometry → μ → Prop}
    {I : Live Geometry → μ → Prop} {s : Session Geometry} {m : μ} {leg : Leg}
    (h : Related cfg J I s m) (hleg : s.phase.leg = some leg) : I ⟨s.actor, leg⟩ m := by
  unfold Related at h
  cases hphase : s.phase <;> simp_all [Phase.leg]

namespace Rule

variable {cfg : Config Geometry} {observe : μ → Out Geometry → μ}
  {accepts : μ → Out Geometry → Prop} {P : Session Geometry → μ → Event Geometry → Prop}
  {J : Actor Geometry → μ → Prop} {I : Live Geometry → μ → Prop}

section

variable (rule : Rule cfg observe accepts P J I)

include rule

/-! ### Operations on a leg -/

theorem kept_of_live {e : Option LegEnd} {l : Live Geometry} {m : μ} (h : I l m) :
    Kept J I e l m := by
  cases e with
  | none => exact h
  | some e => exact rule.leave h

theorem onTick_sat {now : Instant} {l : Live Geometry} {m : μ} (h : I l m) :
    Sat observe accepts m (l.onTick cfg now) fun _ l m => I l m := by
  have hpoll := rule.keeps_sat (l.pollResize_keeps cfg.platform now) h
  refine hpoll.andThen (fun _ _ _ h => h) ?_
  intro l m h
  have htype := rule.keeps_sat (l.typePassword_keeps cfg.secrets now) h
  refine htype.andThen (fun _ _ _ h => h) ?_
  intro l m h
  exact rule.feed_sat h (rule.tick l m now h)

theorem flushAcks_sat {l : Live Geometry} {m : μ} (h : I l m) :
    Sat observe accepts m l.flushAcks fun _ l m => I l m := by
  unfold Live.flushAcks
  split
  · simp only
    split
    · exact sat_done h
    · exact rule.keeps_sat (Live.write_keeps _ _ rfl) (rule.drain l m h)
  · exact sat_done h

theorem present_sat {l : Live Geometry} {m : μ} {index : Nat} (h : I l m) :
    Sat observe accepts m (l.present index) fun _ l m => I l m := by
  have houts : ∀ o ∈ (l.present index).outs, accepts m o ∧ observe m o = m := by
    intro o ho
    obtain ⟨frameId, ack, rfl⟩ := Live.presented_of_mem_present ho
    apply rule.neutral
    rfl
  obtain ⟨hholds, hsame⟩ := Transition.holds_of_forall houts
  refine ⟨hholds, ?_⟩
  rw [hsame]
  exact rule.present l m index h

/-! ### Between legs -/

theorem setState_sat {s : Session Geometry} {m : μ} {next : SessionState}
    {f : Session Geometry → Turn Geometry} {Q : Option Empty → Session Geometry → μ → Prop}
    (hf : ∀ a : Actor Geometry, a.core = s.actor.core → a.clipboard = s.actor.clipboard →
      Sat observe accepts m (f { s with actor := a }) Q) :
    Sat observe accepts m ((s.setState next).andThen f) Q := by
  obtain ⟨hholds, hsame⟩ := Transition.holds_of_forall fun o ho =>
    rule.neutral m o (s.actor.isNeutral_of_mem_setState ho)
  refine sat_prefix hholds ?_
  rw [hsame]
  exact hf _ (s.actor.core_setState next) (s.actor.clipboard_setState next)

theorem exitUserClosed_sat {s : Session Geometry} {m : μ} (h : J s.actor m) :
    Sat observe accepts m s.exitUserClosed fun _ s m => Related cfg J I s m :=
  rule.setState_sat fun _ hcore _ => sat_done (rule.actor_congr hcore h)

theorem stop_sat {s : Session Geometry} {m : μ} {state : SessionState} (h : J s.actor m) :
    Sat observe accepts m (s.stop state) fun _ s m => Related cfg J I s m :=
  rule.setState_sat fun _ hcore _ => sat_done (rule.actor_congr hcore h)

theorem connectOne_sat {s : Session Geometry} {m : μ} {redirects : RedirectLoop}
    {request : LegRequest} (h : J s.actor m) :
    Sat observe accepts m (s.connectOne cfg redirects request) fun _ s m =>
      Related cfg J I s m := by
  unfold Session.connectOne
  simp only
  split
  · exact rule.exitUserClosed_sat (rule.actor_congr (a := s.actor) rfl h)
  · refine rule.setState_sat fun a hcore hclipboard => sat_done ⟨rule.actor_congr hcore ?_, ?_⟩
    · exact rule.actor_congr (a := s.actor) rfl h
    · have hview : a.view = s.actor.view := congrArg Core.view hcore
      simp only [hclipboard, hview]

theorem connectLoop_sat {s : Session Geometry} {m : μ} (h : J s.actor m) :
    Sat observe accepts m (s.connectLoop cfg) fun _ s m => Related cfg J I s m :=
  rule.connectOne_sat (rule.actor_congr (s.actor.core_requestDesktop cfg.platform) h)

theorem waitBackoff_sat {s : Session Geometry} {m : μ} {deadline : Option Instant}
    {reason : DisconnectReason} (h : J s.actor m) :
    Sat observe accepts m (s.waitBackoff cfg deadline reason) fun _ s m =>
      Related cfg J I s m := by
  unfold Session.waitBackoff
  split
  · exact rule.connectLoop_sat h
  · exact sat_done h

theorem enterBackoff_sat {s : Session Geometry} {m : μ} {attempt : Nat} {delay : Duration}
    {reason : DisconnectReason} (h : J s.actor m) :
    Sat observe accepts m (s.enterBackoff cfg attempt delay reason) fun _ s m =>
      Related cfg J I s m :=
  rule.setState_sat fun _ hcore _ => rule.waitBackoff_sat (rule.actor_congr hcore h)

theorem afterDisconnect_sat {s : Session Geometry} {m : μ} {reason : DisconnectReason}
    (h : J s.actor m) :
    Sat observe accepts m (s.afterDisconnect cfg reason) fun _ s m => Related cfg J I s m := by
  have hpolicy : ({ s.actor with
      policy := (s.actor.policy.onDisconnect reason s.now).1 } : Actor Geometry).core =
        s.actor.core := by
    simp [Core.ext_iff]
  unfold Session.afterDisconnect
  split
  · exact rule.exitUserClosed_sat h
  split
  · exact rule.stop_sat h
  · simp only
    split
    · exact rule.enterBackoff_sat (rule.actor_congr hpolicy h)
    · exact rule.enterBackoff_sat (rule.actor_congr hpolicy h)
    · exact rule.stop_sat (rule.actor_congr hpolicy h)

theorem afterCertificate_sat {s : Session Geometry} {m : μ} {redirects : RedirectLoop}
    {request : LegRequest} {leafDer : Bytes} (h : J s.actor m)
    (hnew : s.actor.clipboard =
      some (ClipboardSync.new cfg.profile.clipboard s.actor.view.focused)) :
    Sat observe accepts m (s.afterCertificate cfg redirects request leafDer) fun _ s m =>
      Related cfg J I s m := by
  unfold Session.afterCertificate
  split
  · refine rule.setState_sat fun a hcore hclipboard => ?_
    obtain ⟨haccepts, hsame⟩ :=
      rule.neutral m (.authenticating request.auth leafDer : Out Geometry) rfl
    refine sat_prefix ⟨haccepts, trivial⟩ ?_
    have hview : a.view = s.actor.view := congrArg Core.view hcore
    refine sat_done ⟨?_, by simp only [hclipboard, hview, hnew]⟩
    simpa only [List.foldl_cons, List.foldl_nil, hsame] using rule.actor_congr hcore h
  · exact rule.afterDisconnect_sat h

theorem checkLeaf_sat {s : Session Geometry} {m : μ} {redirects : RedirectLoop}
    {request : LegRequest} {leafDer : Bytes} (h : J s.actor m)
    (hnew : s.actor.clipboard =
      some (ClipboardSync.new cfg.profile.clipboard s.actor.view.focused)) :
    Sat observe accepts m (s.checkLeaf cfg redirects request leafDer) fun _ s m =>
      Related cfg J I s m := by
  unfold Session.checkLeaf
  split
  · exact rule.afterCertificate_sat h hnew
  · exact rule.afterDisconnect_sat h
  · next fingerprint _ =>
      split
      · exact rule.afterCertificate_sat h hnew
      · obtain ⟨haccepts, hsame⟩ := rule.neutral m (.event (.certificatePrompt
          request.tlsServerName request.port fingerprint request.role) : Out Geometry) rfl
        refine sat_prefix ⟨haccepts, trivial⟩ (sat_done ⟨?_, hnew⟩)
        simpa only [List.foldl_cons, List.foldl_nil, hsame] using h

theorem redirect_sat {s : Session Geometry} {m : μ} {redirects : RedirectLoop}
    {pdu : ServerRedirectionPdu} (h : J s.actor m) :
    Sat observe accepts m (s.redirect cfg redirects pdu) fun _ s m => Related cfg J I s m := by
  unfold Session.redirect
  simp only
  split
  · exact rule.afterDisconnect_sat h
  · exact rule.connectOne_sat (rule.actor_congr (s.actor.core_requestDesktop cfg.platform) h)

theorem endLeg_sat {s : Session Geometry} {m : μ} {redirects : RedirectLoop} {legEnd : LegEnd}
    (h : J s.actor m) :
    Sat observe accepts m (s.endLeg cfg redirects legEnd) fun _ s m => Related cfg J I s m := by
  cases legEnd with
  | redirect pdu => exact rule.redirect_sat h
  | closed => exact rule.exitUserClosed_sat h
  | ended reason => exact rule.afterDisconnect_sat h

theorem continueLeg_sat {s : Session Geometry} {m : μ} {redirects : RedirectLoop}
    {run : LegRun Geometry} (h : Sat observe accepts m run (Kept J I)) :
    Sat observe accepts m (s.continueLeg cfg redirects run) fun _ s m => Related cfg J I s m := by
  obtain ⟨hholds, hpost⟩ := h
  refine sat_prefix hholds ?_
  split
  · next hexit =>
      rw [hexit] at hpost
      exact sat_done hpost
  · next legEnd hexit =>
      rw [hexit] at hpost
      exact rule.endLeg_sat hpost

theorem shutdown_sat {s : Session Geometry} {m : μ} {leg : Leg} (h : I ⟨s.actor, leg⟩ m) :
    Sat observe accepts m (s.shutdown leg) fun _ s m => Related cfg J I s m := by
  have hkeeps := Live.write_keeps ⟨s.actor, leg⟩ .shutdownRequest rfl
  obtain ⟨hholds, hsame⟩ := Transition.holds_of_forall fun o ho =>
    rule.neutral m o (Out.isNeutral_of_isAside (hkeeps.2 o ho))
  unfold Session.shutdown
  refine sat_prefix hholds ?_
  rw [hsame]
  split
  · have hcore := (LiveCore.ext_iff.mp (congrArg Prod.fst hkeeps.1)).2.2
    exact sat_done (rule.live_congr (l := ⟨s.actor, leg⟩) (LiveCore.ext_iff.mpr ⟨rfl, rfl, hcore⟩) h)
  · exact rule.exitUserClosed_sat (rule.leave h)

theorem onPdu_sat {s : Session Geometry} {m : μ} {redirects : RedirectLoop} {leg : Leg}
    {pdu : ServerPdu} (hphase : s.phase = .active redirects leg) (hP : P s m (.pdu pdu))
    (h : I ⟨s.actor, leg⟩ m) :
    Sat observe accepts m (Live.onPdu cfg.platform s.now ⟨s.actor, leg⟩ pdu) (Kept J I) := by
  obtain ⟨hholds, hchannels⟩ := rule.channels s m leg pdu (by rw [hphase]; rfl) hP h
  unfold Live.onPdu
  refine sat_prefix hholds ?_
  split
  · exact sat_stop (rule.leave hchannels)
  · next outputs _ =>
      have hkeeps := Live.handleOutputs_keeps
        ⟨s.actor, (leg.onChannels pdu.channels : Leg × List (Out Geometry)).1⟩ outputs
      have houtputs := Within.sat hkeeps
        (fun o ho => rule.neutral _ o (Out.isNeutral_of_isAside ho))
        (Q := fun _ l m' => I l m' ∧ l.actor.clipboard = s.actor.clipboard ∧
          m' = (leg.onChannels pdu.channels).2.foldl observe m)
        fun _ l hrest => ⟨rule.live_congr (congrArg Prod.fst hrest) hchannels,
          (LiveCore.ext_iff.mp (congrArg Prod.fst hrest)).2.1, rfl⟩
      refine houtputs.andThen (fun _ l m h => rule.leave h.1) ?_
      rintro l _ ⟨hlive, hclipboard, rfl⟩
      have htaken := rule.live_congr (l.core_takeDispCaps s.now) hlive
      have hsame := (LiveCore.ext_iff.mp (l.core_takeDispCaps s.now)).2.1
      exact (rule.feed_sat htaken (rule.callbacks s m redirects leg pdu _ hphase hP h
        (hsame.trans hclipboard) htaken)).mono fun _ _ _ h => rule.kept_of_live h

theorem activate_sat {s : Session Geometry} {m : μ} {redirects : RedirectLoop}
    {request : LegRequest} {desktop : Size} {clipboard : Bool}
    {link : Option (Nat × IoFailure)}
    (hphase : s.phase = .connecting redirects request .finalizing)
    (hP : P s m (.finalized desktop clipboard link)) (h : J s.actor m)
    (hnew : s.actor.clipboard =
      some (ClipboardSync.new cfg.profile.clipboard s.actor.view.focused)) :
    Sat observe accepts m (s.activate cfg redirects desktop clipboard link) fun _ s m =>
      Related cfg J I s m := by
  unfold Session.activate
  simp only
  split
  · exact sat_prefix trivial
      (rule.continueLeg_sat (rule.activate s m redirects request desktop clipboard link s.actor hphase
        hP h rfl hnew))
  · refine rule.setState_sat fun a hcore hclipboard => ?_
    have hview : a.view = s.actor.view := congrArg Core.view hcore
    exact rule.continueLeg_sat (rule.activate s m redirects request desktop clipboard link a hphase hP h
      hcore (by rw [hclipboard, hview, hnew]))

theorem shutdownPdu_sat {s : Session Geometry} {m : μ} {leg : Leg} {pdu : ServerPdu}
    (hphase : s.phase = .shuttingDown leg) (hP : P s m (.pdu pdu)) (h : I ⟨s.actor, leg⟩ m) :
    Sat observe accepts m (s.shutdownPdu leg pdu) fun _ s m => Related cfg J I s m := by
  obtain ⟨hholds, hchannels⟩ := rule.channels s m leg pdu (by rw [hphase]; rfl) hP h
  unfold Session.shutdownPdu
  refine sat_prefix hholds ?_
  split
  · exact rule.exitUserClosed_sat (rule.leave hchannels)
  · split
    · exact rule.exitUserClosed_sat (rule.leave hchannels)
    · exact sat_done hchannels

theorem onLeg_sat {s : Session Geometry} {m : μ} {redirects : RedirectLoop} {leg : Leg}
    {e : Event Geometry} (hphase : s.phase = .active redirects leg) (hP : P s m e)
    (h : I ⟨s.actor, leg⟩ m) :
    Sat observe accepts m (s.onLeg cfg redirects leg e) fun _ s m => Related cfg J I s m := by
  have hsame : Related cfg J I s m := by
    rw [Related, hphase]
    exact h
  cases e with
  | breakLink writes error =>
      exact sat_done (rule.live_congr (l := ⟨s.actor, leg⟩) rfl h)
  | readFailed error =>
      simp only [Session.onLeg]
      exact rule.endLeg_sat (rule.leave h)
  | pdu pdu => exact rule.continueLeg_sat (rule.onPdu_sat hphase hP h)
  | present index =>
      exact rule.continueLeg_sat ((rule.present_sat h).mono fun _ _ _ h => rule.kept_of_live h)
  | flushAcks =>
      exact rule.continueLeg_sat ((rule.flushAcks_sat h).mono fun _ _ _ h => rule.kept_of_live h)
  | outputChanged =>
      exact rule.continueLeg_sat ((rule.keeps_sat (Live.onOutputSize_keeps _) h).mono
        fun _ _ _ h => rule.kept_of_live h)
  | tick =>
      exact rule.continueLeg_sat ((rule.onTick_sat h).mono fun _ _ _ h => rule.kept_of_live h)
  | _ => exact sat_done hsame

theorem onConnect_sat {s : Session Geometry} {m : μ} {redirects : RedirectLoop}
    {request : LegRequest} {handshake : Handshake} {e : Event Geometry}
    (hphase : s.phase = .connecting redirects request handshake) (hP : P s m e) (h : J s.actor m)
    (hnew : s.actor.clipboard =
      some (ClipboardSync.new cfg.profile.clipboard s.actor.view.focused)) :
    Sat observe accepts m (s.onConnect cfg redirects request handshake e) fun _ s m =>
      Related cfg J I s m := by
  have hsame : Related cfg J I s m := by
    rw [Related, hphase]
    exact ⟨h, hnew⟩
  unfold Session.onConnect
  split
  · refine rule.setState_sat fun a hcore hclipboard => ?_
    have hview : a.view = s.actor.view := congrArg Core.view hcore
    exact sat_done ⟨rule.actor_congr hcore h, by simp only [hclipboard, hview, hnew]⟩
  · exact rule.checkLeaf_sat h hnew
  · exact rule.activate_sat hphase hP h hnew
  · exact rule.afterDisconnect_sat h
  · split
    · exact rule.exitUserClosed_sat h
    · exact sat_done hsame
  · exact sat_done hsame

/-! ### Commands -/

theorem handle_close_sat {s : Session Geometry} {m : μ} {cmd : Option (SessionCommand Geometry)}
    (hcmd : cmd = none ∨ cmd = some .close) (h : Related cfg J I s m) :
    Sat observe accepts m (s.handle cfg cmd) fun _ s m => Related cfg J I s m := by
  rw [Session.handle_of_close hcmd]
  unfold Session.onClose
  unfold Related at h
  split at h
  · next redirects leg hphase =>
      simp only [hphase]
      exact rule.shutdown_sat h
  · next leg hphase =>
      simp only [hphase]
      exact sat_done (by rw [Related, hphase]; exact h)
  · next redirects request handshake hphase =>
      simp only [hphase]
      exact sat_done (by rw [Related, hphase]; exact h)
  · next redirects request leafDer hphase =>
      simp only [hphase]
      exact rule.exitUserClosed_sat h.1
  · next hphase =>
      simp only [hphase]
      exact rule.connectLoop_sat h
  · next deadline reason hphase =>
      simp only [hphase]
      exact rule.exitUserClosed_sat h
  · next hphase =>
      simp only [hphase]
      exact sat_done h
  · next hphase =>
      simp only [hphase]
      exact sat_done (by rw [Related, hphase]; exact h)

omit rule in
theorem collectInitialState_sat {s : Session Geometry} {m : μ} {cmd : SessionCommand Geometry}
    (hphase : s.phase = .startUp) (hcmd : cmd ≠ .close)
    (h : J (s.actor.afterReceive .startUp s.now cmd) m) :
    Sat observe accepts m (s.collectInitialState cfg (some cmd)) fun _ s m =>
      Related cfg J I s m := by
  rw [Session.collectInitialState_of_ne hcmd]
  refine sat_done ?_
  rw [Related, Session.rememberCmd, hphase]
  exact h

theorem decideCertificate_sat {s : Session Geometry} {m : μ} {redirects : RedirectLoop}
    {request : LegRequest} {leafDer : Bytes} {cmd : SessionCommand Geometry}
    (hphase : s.phase = .prompting redirects request leafDer) (h : J s.actor m)
    (hnew : s.actor.clipboard =
      some (ClipboardSync.new cfg.profile.clipboard s.actor.view.focused)) :
    Sat observe accepts m (s.decideCertificate cfg redirects request leafDer (some cmd))
      fun _ s m => Related cfg J I s m := by
  have hsame : Related cfg J I s m := by
    rw [Related, hphase]
    exact ⟨h, hnew⟩
  cases cmd with
  | close => exact rule.afterDisconnect_sat h
  | rejectCertificate => exact rule.afterDisconnect_sat h
  | acceptCertificate accepted pin =>
      simp only [Session.decideCertificate]
      split
      · have hpinned : ∀ o ∈ (if pin then [.event (.certificatePinned accepted)] else [] :
            List (Out Geometry)), accepts m o ∧ observe m o = m := by
          intro o ho
          apply rule.neutral
          split at ho <;> simp_all [Out.isNeutral]
        obtain ⟨hholds, hkeep⟩ := Transition.holds_of_forall hpinned
        refine sat_prefix hholds ?_
        rw [hkeep]
        exact rule.afterCertificate_sat (rule.actor_congr (a := s.actor) rfl h) hnew
      · exact sat_done hsame
  | _ => exact sat_done hsame

theorem receiveBackoff_sat {s : Session Geometry} {m : μ} {deadline : Option Instant}
    {reason : DisconnectReason} {cmd : SessionCommand Geometry} (hcmd : cmd ≠ .close)
    (h : J (s.actor.afterReceive .backoff s.now cmd) m) :
    Sat observe accepts m (s.receiveBackoff cfg deadline reason (some cmd)) fun _ s m =>
      Related cfg J I s m := by
  cases cmd with
  | close => exact absurd rfl hcmd
  | cancel => exact rule.stop_sat (rule.actor_congr (a := s.actor) rfl h)
  | reconnectNow =>
      simp only [Session.receiveBackoff]
      split
      · exact rule.connectLoop_sat h
      · exact rule.waitBackoff_sat h
  | networkReachable reachable =>
      simp only [Session.receiveBackoff]
      split
      · exact rule.connectLoop_sat h
      · exact rule.waitBackoff_sat h
  | _ => exact rule.waitBackoff_sat h

theorem receiveIdle_sat {s : Session Geometry} {m : μ} {cmd : SessionCommand Geometry}
    (hphase : s.phase = .idle) (hcmd : cmd ≠ .close)
    (h : J (s.actor.afterReceive .idle s.now cmd) m) :
    Sat observe accepts m (s.receiveIdle cfg (some cmd)) fun _ s m => Related cfg J I s m := by
  have hidle : ∀ a : Actor Geometry, J a m → Related cfg J I { s with actor := a } m := by
    intro a ha
    rw [Related, hphase]
    exact ha
  cases cmd with
  | close => exact absurd rfl hcmd
  | reconnectNow => exact rule.connectLoop_sat h
  | networkReachable reachable => exact sat_done (hidle _ h)
  | _ => exact sat_done (hidle _ h)

theorem handle_sat {s : Session Geometry} {m : μ} {loop : CommandLoop}
    {cmd : SessionCommand Geometry} {cmds : List (SessionCommand Geometry)}
    (hloop : s.phase.loop = some loop) (hcmds : s.cmds = cmd :: cmds) (hcmd : cmd ≠ .close)
    (hP : P s m .receive) (h : Related cfg J I s m) :
    accepts m (.received loop (some cmd)) ∧
      Sat observe accepts (observe m (.received loop (some cmd)))
        (Session.handle cfg { s with cmds := cmds } (some cmd)) fun _ s m =>
          Related cfg J I s m := by
  unfold Related at h
  unfold Session.handle
  split at h
  · next redirects leg hphase =>
      obtain rfl : CommandLoop.active = loop := by simpa [hphase, Phase.loop] using hloop
      obtain ⟨haccepts, hsat⟩ := rule.command s m redirects leg cmd cmds hphase hcmds hcmd hP h
      refine ⟨haccepts, ?_⟩
      simp only [hphase]
      have hreceive : ∀ t : Session Geometry, t.receiveActive cfg redirects leg (some cmd) =
          t.continueLeg cfg redirects (Live.onCommand cfg t.now ⟨t.actor, leg⟩ cmd) := by
        intro t
        cases cmd with
        | close => exact absurd rfl hcmd
        | _ => rfl
      rw [hreceive]
      exact rule.continueLeg_sat hsat
  · next leg hphase => simp [hphase, Phase.loop] at hloop
  · next redirects request handshake hphase => simp [hphase, Phase.loop] at hloop
  · next redirects request leafDer hphase =>
      obtain rfl : CommandLoop.prompt = loop := by simpa [hphase, Phase.loop] using hloop
      obtain ⟨haccepts, hreceived⟩ := rule.receive s m .prompt cmd cmds hloop (by decide) hcmds
        hcmd hP h.1
      refine ⟨haccepts, ?_⟩
      simp only [hphase]
      exact rule.decideCertificate_sat (s := { s with phase := _, cmds := cmds }) rfl hreceived h.2
  · next hphase =>
      obtain rfl : CommandLoop.startUp = loop := by simpa [hphase, Phase.loop] using hloop
      obtain ⟨haccepts, hreceived⟩ := rule.receive s m .startUp cmd cmds hloop (by decide) hcmds
        hcmd hP h
      refine ⟨haccepts, ?_⟩
      simp only [hphase]
      exact collectInitialState_sat (s := { s with phase := _, cmds := cmds }) rfl hcmd hreceived
  · next deadline reason hphase =>
      obtain rfl : CommandLoop.backoff = loop := by simpa [hphase, Phase.loop] using hloop
      obtain ⟨haccepts, hreceived⟩ := rule.receive s m .backoff cmd cmds hloop (by decide) hcmds
        hcmd hP h
      refine ⟨haccepts, ?_⟩
      simp only [hphase]
      exact rule.receiveBackoff_sat (s := { s with phase := _, cmds := cmds }) hcmd hreceived
  · next hphase =>
      obtain rfl : CommandLoop.idle = loop := by simpa [hphase, Phase.loop] using hloop
      obtain ⟨haccepts, hreceived⟩ := rule.receive s m .idle cmd cmds hloop (by decide) hcmds
        hcmd hP h
      refine ⟨haccepts, ?_⟩
      simp only [hphase]
      exact rule.receiveIdle_sat (s := { s with phase := _, cmds := cmds }) rfl hcmd hreceived
  · next hphase => simp [hphase, Phase.loop] at hloop

theorem receive_sat {s : Session Geometry} {m : μ} (hP : P s m .receive)
    (h : Related cfg J I s m) :
    Sat observe accepts m (s.receive cfg) fun _ s m => Related cfg J I s m := by
  unfold Session.receive
  split
  · next loop t cmd hloop hnext =>
      unfold Session.next at hnext
      split at hnext
      · next cmd' cmds hcmds =>
          obtain ⟨rfl, rfl⟩ : { s with cmds := cmds } = t ∧ some cmd' = cmd := by
            simpa using hnext
          by_cases hclose : cmd' = .close
          · subst hclose
            obtain ⟨haccepts, hsame⟩ := rule.closing m loop (some .close) (.inr rfl)
            refine sat_prefix ⟨haccepts, trivial⟩ ?_
            simp only [List.foldl_cons, List.foldl_nil, hsame]
            exact rule.handle_close_sat (.inr rfl) h
          · obtain ⟨haccepts, hsat⟩ := rule.handle_sat hloop hcmds hclose hP h
            exact sat_prefix ⟨haccepts, trivial⟩ hsat
      · split at hnext
        · cases hnext
        · obtain ⟨rfl, rfl⟩ : s = t ∧ none = cmd := by simpa using hnext
          obtain ⟨haccepts, hsame⟩ := rule.closing m loop none (.inl rfl)
          refine sat_prefix ⟨haccepts, trivial⟩ ?_
          simp only [List.foldl_cons, List.foldl_nil, hsame]
          exact rule.handle_close_sat (.inl rfl) h
  · exact sat_done h

/-! ### Turns and runs -/

omit rule [BEq Geometry] in
theorem related_onApp {s : Session Geometry} {m : μ} {e : Event Geometry}
    (h : Related cfg J I s m) : Related cfg J I (s.onApp e) m := by
  unfold Session.onApp
  split
  · split <;> exact h
  · exact h
  · exact h
  · exact h

theorem onPhase_sat {s : Session Geometry} {m : μ} {e : Event Geometry}
    (h : Related cfg J I s m) (hP : P s m e) :
    Sat observe accepts m (s.onPhase cfg e) fun _ s m => Related cfg J I s m := by
  have h' := h
  unfold Related at h'
  unfold Session.onPhase
  split
  · next hphase =>
      simp only [hphase] at h'
      exact rule.connectLoop_sat h'
  · next redirects request handshake hphase =>
      simp only [hphase] at h'
      exact rule.onConnect_sat hphase hP h'.1 h'.2
  · next hphase =>
      simp only [hphase] at h'
      split
      · exact rule.exitUserClosed_sat h'.1
      · exact sat_done h
  · next redirects leg hphase =>
      simp only [hphase] at h'
      exact rule.onLeg_sat hphase hP h'
  · next leg pdu hphase =>
      simp only [hphase] at h'
      exact rule.shutdownPdu_sat hphase hP h'
  · next leg hphase =>
      simp only [hphase] at h'
      exact rule.exitUserClosed_sat (rule.leave h')
  · next deadline reason hphase =>
      simp only [hphase] at h'
      exact rule.waitBackoff_sat h'
  · exact sat_done h

/-- **Turn rule.** -/
theorem turn_sat {s : Session Geometry} {m : μ} {e : Event Geometry} (h : Related cfg J I s m)
    (hP : P s m e) :
    Sat observe accepts m (s.turn cfg e) fun _ s m => Related cfg J I s m := by
  unfold Session.turn
  split
  · exact sat_done (related_onApp h)
  · exact sat_done (related_onApp h)
  · exact sat_done (related_onApp h)
  · exact rule.receive_sat hP h
  · exact rule.onPhase_sat h hP

/-- **Run rule.** -/
theorem history_holds {m : μ} (hnew : J (Actor.new cfg) m) {es : List (Event Geometry)}
    (hP : Transition.Along (Session.step cfg) observe P (.new cfg) m es) :
    Transition.Holds observe accepts m (Session.history cfg es).2 ∧
      Related cfg J I (Session.history cfg es).1
        ((Session.history cfg es).2.foldl observe m) := by
  have hstart : Related cfg J I (Session.new cfg) m := hnew
  refine Transition.run_holds (Related cfg J I) ?_ hstart hP
  intro s m e h hstep
  have hturn := rule.turn_sat h hstep
  exact ⟨hturn.holds, hturn.post⟩

end

end Rule

end Drift.Rdp
