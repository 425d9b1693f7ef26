import Drift.Rdp.Proof.Local
import Drift.Rdp.Steps

/-!
# What one turn can do

A turn seen from the session: the stage before and after, what changes of what belongs to the session,
and the milestones in between. `turned` says once what a turn can do; invariants of sessions follow by
cases.
-/

namespace Drift.Rdp

open Outcome Transition

variable {Geometry : Type}

/-- A phase without what only matters on a leg. -/
inductive Stage where
  | startUp
  | connecting (request : LegRequest) (handshake : Handshake)
  | prompting (request : LegRequest) (leafDer : Bytes)
  | active
  | backoff (deadline : Option Instant)
  | idle
  | over

def Phase.stage : Phase Geometry → Stage
  | .startUp => .startUp
  | .connecting _ request handshake => .connecting request handshake
  | .prompting _ request leafDer => .prompting request leafDer
  | .active _ _ => .active
  | .backoff deadline _ => .backoff deadline
  | .idle => .idle
  | .shuttingDown _ | .exited => .over

/-- The event settles the handshake that the stage is in. -/
def Stage.decides : Stage → Event Geometry → Bool
  | .connecting _ _, .connectFailed _ | .connecting _ .securing, .secured _ => true
  | _, _ => false

/-- A first leg is dialed, unless the app has closed the session. -/
inductive Dialed (cfg : Config Geometry) (b : Base) : Stage × Base → Prop
  | closed : Dialed cfg b (.over, b)
  | first (desktop : Size) (scale : Nat) :
      Dialed cfg b (.connecting (cfg.firstLeg desktop scale) .negotiating, b)

def Base.dropped (b : Base) (reason : DisconnectReason) (now : Instant) : Base :=
  { b with policy := (b.policy.onDisconnect reason now).1 }

def Base.activated (b : Base) (activations : Nat) (now : Instant) : Base :=
  { b with policy := b.policy.onConnected now, activations := activations }

/-- What follows the end of a connection. -/
inductive Ended (cfg : Config Geometry) (now : Instant) (b : Base) : Stage × Base → Prop
  | closed : Ended cfg now b (.over, b)
  | never (h : b.activations = 0) : Ended cfg now b (.idle, b)
  | gaveUp (reason : DisconnectReason) (why : GiveUpReason) (h : b.activations ≠ 0)
      (hdecision : (b.policy.onDisconnect reason now).2 = .giveUp why) :
      Ended cfg now b (.idle, b.dropped reason now)
  | waits (reason : DisconnectReason) (attempt : Nat) (delay : Duration) (h : b.activations ≠ 0)
      (hdecision : (b.policy.onDisconnect reason now).2 = .retry attempt delay) :
      Ended cfg now b (.backoff (Instant.checkedAdd now delay), b.dropped reason now)
  | offline (reason : DisconnectReason) (attempt : Nat) (h : b.activations ≠ 0)
      (hdecision : (b.policy.onDisconnect reason now).2 = .waitForNetwork attempt) :
      Ended cfg now b (.backoff none, b.dropped reason now)
  | retries (reason : DisconnectReason) (attempt : Nat) (delay : Duration) (x : Stage × Base)
      (h : b.activations ≠ 0)
      (hdecision : (b.policy.onDisconnect reason now).2 = .retry attempt delay)
      (hx : Dialed cfg (b.dropped reason now) x) : Ended cfg now b x

/-! ### Operations between legs -/

/-- The program makes milestones, and ends at a stage with a base, for which `Q` holds. -/
abbrev Reaches (Q : List (Out Geometry) → Stage → Base → Prop) (ms : List (Out Geometry))
    (r : Turn Geometry) : Prop :=
  Sat (collect Out.isMilestone) (fun _ _ => True) ms r fun _ s ms => Q ms s.phase.stage s.actor.base

section Between

variable {Q : List (Out Geometry) → Stage → Base → Prop} {ms : List (Out Geometry)}
  {s : Session Geometry}

theorem foldl_collect_of_forall {os : List (Out Geometry)} (h : ∀ o ∈ os, o.isMilestone = false) :
    os.foldl (collect Out.isMilestone) ms = ms := by
  rw [foldl_collect, List.filter_eq_nil_iff.mpr (by simpa using h), List.append_nil]

theorem base_setState (a : Actor Geometry) (next : SessionState) :
    (a.setState next).1.base = a.base := by
  unfold Actor.setState
  split_ifs <;> rfl

theorem not_isMilestone_of_mem_setState {a : Actor Geometry} {next : SessionState}
    {o : Out Geometry} (h : o ∈ (a.setState next).2) : o.isMilestone = false := by
  unfold Actor.setState at h
  split_ifs at h <;> simp_all [Out.isMilestone]

theorem setState_reaches {next : SessionState} {f : Session Geometry → Turn Geometry}
    (hf : ∀ a : Actor Geometry, a.base = s.actor.base → Reaches Q ms (f { s with actor := a })) :
    Reaches Q ms ((s.setState next).andThen f) := by
  refine sat_prefix (holds_true ..) ?_
  rw [foldl_collect_of_forall fun o ho => not_isMilestone_of_mem_setState ho]
  exact hf _ (base_setState s.actor next)

theorem exitUserClosed_reaches (h : Q ms .over s.actor.base) : Reaches Q ms s.exitUserClosed :=
  setState_reaches fun a ha => sat_done (by rw [← ha] at h; exact h)

theorem stop_reaches {state : SessionState} (h : Q ms .idle s.actor.base) :
    Reaches Q ms (s.stop state) :=
  setState_reaches fun a ha => sat_done (by rw [← ha] at h; exact h)

section Config

variable {cfg : Config Geometry}

theorem connectOne_reaches {redirects : RedirectLoop} {request : LegRequest}
    (hclosed : Q ms .over s.actor.base)
    (hdial : Q ms (.connecting request .negotiating) s.actor.base) :
    Reaches Q ms (s.connectOne cfg redirects request) := by
  unfold Session.connectOne
  simp only
  split
  · exact exitUserClosed_reaches hclosed
  · refine setState_reaches fun a ha => sat_done ?_
    have hbase : a.base = s.actor.base := ha
    rw [← hbase] at hdial
    exact hdial

theorem base_requestDesktop (platform : Platform Geometry) (a : Actor Geometry) :
    (a.requestDesktop platform).1.base = a.base := by
  unfold Actor.requestDesktop
  split <;> rfl

theorem connectLoop_reaches (h : ∀ x, Dialed cfg s.actor.base x → Q ms x.1 x.2) :
    Reaches Q ms (s.connectLoop cfg) := by
  have hbase := base_requestDesktop cfg.platform s.actor
  unfold Session.connectLoop
  refine connectOne_reaches ?_ ?_
  · simpa only [hbase] using h _ .closed
  · simpa only [hbase] using h _ (.first _ _)

theorem waitBackoff_reaches {deadline : Option Instant} {reason : DisconnectReason}
    (hwait : Q ms (.backoff deadline) s.actor.base)
    (hdue : deadline ≠ none → s.actor.policy.networkReachable = true →
      ∀ x, Dialed cfg s.actor.base x → Q ms x.1 x.2) :
    Reaches Q ms (s.waitBackoff cfg deadline reason) := by
  unfold Session.waitBackoff
  split
  · next hready =>
      obtain ⟨hany, hreachable⟩ := Bool.and_eq_true_iff.mp hready
      refine connectLoop_reaches (hdue ?_ hreachable)
      rintro rfl
      cases hany
  · exact sat_done hwait

theorem checkedAdd_max (now : Instant) : Instant.checkedAdd now Duration.max = none := by
  have hfar : Instant.max < now + Duration.max :=
    Nat.lt_of_lt_of_le (by decide) (Nat.le_add_left Duration.max now)
  exact if_neg (Nat.not_le.mpr hfar)

theorem afterDisconnect_reaches {reason : DisconnectReason}
    (h : ∀ x, Ended cfg s.now s.actor.base x → Q ms x.1 x.2) :
    Reaches Q ms (s.afterDisconnect cfg reason) := by
  unfold Session.afterDisconnect
  split
  · exact exitUserClosed_reaches (h _ .closed)
  split
  · next hnever => exact stop_reaches (h _ (.never hnever))
  next hactivated =>
  simp only
  split
  · next attempt delay hdecision =>
      refine setState_reaches fun a ha => ?_
      have hbase : a.base = s.actor.base.dropped reason s.now := ha
      refine waitBackoff_reaches ?_ fun _ _ x hx => ?_
      · simpa only [hbase] using h _ (.waits reason attempt delay hactivated hdecision)
      · simp only [hbase] at hx
        exact h x (.retries reason attempt delay x hactivated hdecision hx)
  · next attempt hdecision =>
      refine setState_reaches fun a ha => ?_
      have hbase : a.base = s.actor.base.dropped reason s.now := ha
      simp only [checkedAdd_max]
      refine waitBackoff_reaches ?_ fun hnone => absurd rfl hnone
      simpa only [hbase] using h _ (.offline reason attempt hactivated hdecision)
  · next why hdecision =>
      exact stop_reaches (h _ (.gaveUp reason why hactivated hdecision))

theorem afterCertificate_reaches {redirects : RedirectLoop} {request : LegRequest}
    {leafDer : Bytes}
    (hsent : Q (ms ++ [.authenticating request.auth leafDer]) (.connecting request .finalizing)
      s.actor.base)
    (hended : ∀ x, Ended cfg s.now s.actor.base x → Q ms x.1 x.2) :
    Reaches Q ms (s.afterCertificate cfg redirects request leafDer) := by
  unfold Session.afterCertificate
  split
  · refine setState_reaches fun a ha => sat_prefix ⟨trivial, trivial⟩ (sat_done ?_)
    rw [← ha] at hsent
    simpa [collect, Out.isMilestone, Phase.stage] using hsent
  · exact afterDisconnect_reaches hended

theorem redirect_reaches {redirects : RedirectLoop} {pdu : ServerRedirectionPdu}
    (hended : ∀ x, Ended cfg s.now s.actor.base x → Q ms x.1 x.2)
    (hclosed : Q ms .over s.actor.base)
    (hdial : ∀ next desktop scale, next.targetCertificate = pdu.target? →
      Q ms (.connecting (cfg.redirectedLeg s.actor.io.sessionPin next desktop scale) .negotiating)
        s.actor.base) :
    Reaches Q ms (s.redirect cfg redirects pdu) := by
  have hbase := base_requestDesktop cfg.platform s.actor
  unfold Session.redirect
  simp only
  split
  · exact afterDisconnect_reaches hended
  · next next hnext =>
      have htarget : next.targetCertificate = pdu.target? := by
        unfold RedirectLoop.onRedirect at hnext
        split_ifs at hnext
        split at hnext
        · cases hnext
        split at hnext
        · cases hnext
        next target htarget =>
        cases hnext
        simp [ServerRedirectionPdu.target?, htarget, Except.toOption]
      refine connectOne_reaches ?_ ?_
      · simpa only [hbase] using hclosed
      · simpa only [hbase] using hdial next _ _ htarget

/-! ### Operations on a leg -/

/-- What has to hold where an operation on a leg ends. -/
def Post (cfg : Config Geometry) (now : Instant) (Q : List (Out Geometry) → Stage → Base → Prop)
    (e : Option LegEnd) (l : Live Geometry) (ms : List (Out Geometry)) : Prop :=
  match e with
  | none => Q ms .active l.actor.base
  | some .closed => Q ms .over l.actor.base
  | some (.ended _) => ∀ x, Ended cfg now l.actor.base x → Q ms x.1 x.2
  | some (.redirect pdu) =>
    (∀ x, Ended cfg now l.actor.base x → Q ms x.1 x.2) ∧ Q ms .over l.actor.base ∧
      ∀ next desktop scale, next.targetCertificate = pdu.target? →
        Q ms (.connecting (cfg.redirectedLeg l.actor.base.pin next desktop scale) .negotiating)
          l.actor.base

theorem continueLeg_reaches {redirects : RedirectLoop} {run : LegRun Geometry}
    (h : Sat (collect Out.isMilestone) (fun _ _ => True) ms run (Post cfg s.now Q)) :
    Reaches Q ms (s.continueLeg cfg redirects run) := by
  have hpost := h.post
  unfold Session.continueLeg
  refine sat_prefix h.holds ?_
  split
  · next hexit =>
      rw [hexit] at hpost
      exact sat_done hpost
  · next legEnd hexit =>
      rw [hexit] at hpost
      cases legEnd with
      | redirect pdu => exact redirect_reaches hpost.1 hpost.2.1 hpost.2.2
      | closed => exact exitUserClosed_reaches hpost
      | ended reason => exact afterDisconnect_reaches hpost

/-- After a local operation the leg goes on, or what follows its end does. -/
theorem Live.Local.sat {l : Live Geometry} {run : LegRun Geometry} {now : Instant}
    (h : l.Local run) (hlive : Q ms .active l.actor.base)
    (hended : ∀ x, Ended cfg now l.actor.base x → Q ms x.1 x.2) :
    Sat (collect Out.isMilestone) (fun _ _ => True) ms run (Post cfg now Q) := by
  refine ⟨holds_true .., ?_⟩
  rw [foldl_collect_of_forall h.within.2]
  rw [← h.within.1] at hlive hended
  cases hexit : run.exit with
  | none => exact hlive
  | some legEnd =>
      obtain ⟨reason, rfl⟩ := h.stays legEnd hexit
      exact hended

theorem handleOutputs_redirects {l : Live Geometry} {outputs : List ActiveStageOutput}
    {r : ServerRedirectionPdu} (h : (l.handleOutputs outputs).exit = some (.redirect r)) :
    (outputs.findSome? fun
      | .serverRedirect pdu => some pdu
      | _ => none) = some r := by
  induction outputs generalizing l with
  | nil => cases h
  | cons output outputs ih =>
      have hrest : ∀ run : LegRun Geometry, (∀ r, run.exit ≠ some (.redirect r)) →
          (run.andThen (.forEach Live.onOutput · outputs)).exit = some (.redirect r) →
            (outputs.findSome? fun
              | .serverRedirect pdu => some pdu
              | _ => none) = some r := by
        intro run hrun hexit
        unfold Outcome.andThen at hexit
        split at hexit
        · exact absurd hexit (hrun r)
        · exact ih hexit
      cases output with
      | serverRedirect pdu =>
          cases h
          rfl
      | responseFrame =>
          refine hrest _ (fun r hr => ?_) h
          obtain ⟨reason, hreason⟩ := l.write_stays .response _ hr
          cases hreason
      | terminate reason => cases reason <;> cases h
      | pointer => exact hrest _ (fun r hr => by cases hr) h
      | other => exact hrest _ (fun r hr => by cases hr) h

theorem not_isMilestone_of_mem_onChannels (leg : Leg) (pdu : ServerPdu) :
    ∀ o ∈ (leg.onChannels pdu.channels : Leg × List (Out Geometry)).2, o.isMilestone = false := by
  intro o ho
  obtain ⟨frameId, hidden, rfl⟩ := Leg.frameEnded_of_mem_onChannels ho
  rfl

theorem onPdu_sat {l : Live Geometry} {pdu : ServerPdu} {platform : Platform Geometry}
    {now : Instant} (hlive : Q ms .active l.actor.base) (hover : Q ms .over l.actor.base)
    (hended : ∀ x, Ended cfg now l.actor.base x → Q ms x.1 x.2)
    (hredirect : ∀ r next desktop scale, pdu.redirection? = some r →
      next.targetCertificate = r.target? →
        Q ms (.connecting (cfg.redirectedLeg l.actor.base.pin next desktop scale) .negotiating)
          l.actor.base) :
    Sat (collect Out.isMilestone) (fun _ _ => True) ms (l.onPdu platform now pdu)
      (Post cfg now Q) := by
  unfold Live.onPdu
  refine sat_prefix (holds_true ..) ?_
  rw [foldl_collect_of_forall (not_isMilestone_of_mem_onChannels l.leg pdu)]
  split
  · exact sat_stop hended
  · next outputs hresult =>
      have hkeeps := (Live.handleOutputs_keeps
        ⟨l.actor, (l.leg.onChannels pdu.channels : Leg × List (Out Geometry)).1⟩ outputs).within_base
      have hbase : ∀ k : Live Geometry, k.actor.base = l.actor.base →
          Sat (collect Out.isMilestone) (fun _ _ => True) ms
            (k.afterChannelIo platform now pdu.callbacks) (Post cfg now Q) := by
        intro k hk
        rw [← hk] at hlive hended
        have htaken : (k.takeDispCaps now).actor.base = k.actor.base := by
          unfold Live.takeDispCaps
          split <;> rfl
        exact ((Live.feed_local ..).of_base_eq htaken).sat hlive hended
      refine Sat.andThen (Q := fun e k ms' => k.actor.base = l.actor.base ∧ ms' = ms ∧
        ∀ r, e = some (.redirect r) → pdu.redirection? = some r) ⟨holds_true .., hkeeps.1, ?_, ?_⟩
        ?_ ?_
      · exact foldl_collect_of_forall hkeeps.2
      · intro r hr
        rw [ServerPdu.redirection?, hresult]
        exact handleOutputs_redirects hr
      · rintro legEnd k _ ⟨hk, rfl, hr⟩
        rw [← hk] at hover hended hredirect
        cases legEnd with
        | redirect r =>
            exact ⟨hended, hover, fun next desktop scale => hredirect r next desktop scale (hr r rfl)⟩
        | closed => exact hover
        | ended reason => exact hended
      · rintro k _ ⟨hk, rfl, -⟩
        exact hbase k hk

theorem onActivated_sat {l : Live Geometry} {now : Instant}
    (hlive : Q (ms ++ [.activated l.activation]) .active
      (l.actor.base.activated (l.actor.activations + 1) now))
    (hended : ∀ activations x, activations ≠ 0 →
      Ended cfg now (l.actor.base.activated activations now) x →
        Q (ms ++ [.activated l.activation]) x.1 x.2) :
    Sat (collect Out.isMilestone) (fun _ _ => True) ms (l.onActivated cfg now) (Post cfg now Q) := by
  have hactivated : ∀ k : Live Geometry, k.actor.base = (l.welcome cfg now).actor.base →
      Sat (collect Out.isMilestone) (fun _ _ => True) (ms ++ [.activated l.activation])
        ((Live.applyHidden { k with
          actor := { k.actor with activations := k.actor.activations + 1 } }).andThen fun l =>
            l.replayLocal cfg.platform now) (Post cfg now Q) := by
    intro k hk
    have hbase : ({ k.actor with activations := k.actor.activations + 1 } : Actor Geometry).base =
        l.actor.base.activated (l.actor.activations + 1) now := by
      have hpin := congrArg Base.pin hk
      have hpolicy := congrArg Base.policy hk
      have hcount := congrArg Base.activations hk
      simp only [Actor.base] at hpin hpolicy hcount
      simp [Actor.base, hpin, hpolicy, hcount, Base.activated, Live.welcome]
    have hlocal := (Live.applyHidden_local
      { k with actor := { k.actor with activations := k.actor.activations + 1 } }).andThen
        fun l => l.replayLocal_local cfg.platform now
    rw [← hbase] at hlive
    refine hlocal.sat hlive fun x hx => hended (l.actor.activations + 1) x (Nat.succ_ne_zero _) ?_
    rw [← hbase]
    exact hx
  unfold Live.onActivated
  refine sat_prefix (holds_true ..) ?_
  by_cases hnone : l.actor.activations = 0
  · have hresync : (l.welcome cfg now).resyncInput = .done (l.welcome cfg now) := if_pos hnone
    rw [hresync]
    exact hactivated _ rfl
  · have hlocal := (Live.resyncInput_keeps (l.welcome cfg now)).isLocal (Live.resyncInput_stays _)
    refine Sat.andThen (Q := fun e k ms' => k.actor.base = (l.welcome cfg now).actor.base ∧
      ms' = ms ++ [.activated l.activation] ∧ ∀ legEnd, e = some legEnd →
        ∃ reason, legEnd = LegEnd.ended reason) ⟨holds_true .., hlocal.within.1, ?_, hlocal.stays⟩ ?_ ?_
    · exact foldl_collect_of_forall hlocal.within.2
    · rintro legEnd k _ ⟨hk, rfl, hreason⟩
      obtain ⟨reason, rfl⟩ := hreason legEnd rfl
      intro x hx
      rw [hk] at hx
      exact hended l.actor.activations x hnone hx
    · rintro k _ ⟨hk, rfl, -⟩
      exact hactivated k hk

end Config

end Between

/-! ### Turns -/

def isClosing : Out Geometry → Bool
  | .received _ none | .received _ (some .close) => true
  | _ => false

/-- A command was received that does not reset the policy. -/
def isPlainCommand : Out Geometry → Bool
  | .received loop (some cmd) => !Budget.isUserReset (.received loop (some cmd) : Out Geometry)
  | _ => false

/-- What a turn on an event can do: its milestones, and the stage and the base after it. -/
inductive Turned (cfg : Config Geometry) (s : Session Geometry) (e : Event Geometry) :
    List (Out Geometry) → Stage → Base → Prop
  | quiet (hquiet : s.phase.stage.decides e = false) :
      Turned cfg s e [] s.phase.stage s.actor.base
  | secures (request : LegRequest) (hstage : s.phase.stage = .connecting request .negotiating) :
      Turned cfg s e [] (.connecting request .securing) s.actor.base
  | hears (o : Out Geometry) (policy : ReconnectPolicy) (he : e = .receive)
      (ho : isPlainCommand o = true)
      (hpolicy : policy = s.actor.policy ∨
        ∃ reachable, policy = s.actor.policy.setNetworkReachable reachable) :
      Turned cfg s e [o] s.phase.stage { s.actor.base with policy := policy }
  | leaves (ms : List (Out Geometry)) (hms : ∀ o ∈ ms, isClosing o = true) :
      Turned cfg s e ms .over s.actor.base
  | starts (ms : List (Out Geometry)) (x : Stage × Base) (hstage : s.phase.stage = .startUp)
      (hms : ∀ o ∈ ms, isClosing o = true) (hx : Dialed cfg s.actor.base x) :
      Turned cfg s e ms x.1 x.2
  | trusts (request : LegRequest) (leafDer : Bytes)
      (hstage : s.phase.stage = .connecting request .securing) (he : e = .secured leafDer)
      (hcheck : checkCertificate cfg.platform.ofDer request.expectation leafDer = .trusted ∨
        checkCertificate cfg.platform.ofDer request.expectation leafDer =
            .unknown (cfg.platform.ofDer leafDer) ∧
          s.actor.io.sessionPin = some (cfg.platform.ofDer leafDer)) :
      Turned cfg s e [.authenticating request.auth leafDer] (.connecting request .finalizing)
        s.actor.base
  | asks (request : LegRequest) (leafDer : Bytes)
      (hstage : s.phase.stage = .connecting request .securing) (he : e = .secured leafDer)
      (hcheck : checkCertificate cfg.platform.ofDer request.expectation leafDer =
        .unknown (cfg.platform.ofDer leafDer)) :
      Turned cfg s e
        [.event (.certificatePrompt request.tlsServerName request.port (cfg.platform.ofDer leafDer)
          request.role)]
        (.prompting request leafDer) s.actor.base
  | accepts (request : LegRequest) (leafDer : Bytes) (pin : Bool)
      (hstage : s.phase.stage = .prompting request leafDer) :
      Turned cfg s e
        [.received .prompt (some (.acceptCertificate (cfg.platform.ofDer leafDer) pin)),
          .authenticating request.auth leafDer]
        (.connecting request .finalizing)
        { s.actor.base with pin := some (cfg.platform.ofDer leafDer) }
  | acceptsInVain (request : LegRequest) (leafDer : Bytes) (pin : Bool) (x : Stage × Base)
      (hstage : s.phase.stage = .prompting request leafDer)
      (hx : Ended cfg s.now { s.actor.base with pin := some (cfg.platform.ofDer leafDer) } x) :
      Turned cfg s e
        [.received .prompt (some (.acceptCertificate (cfg.platform.ofDer leafDer) pin))] x.1 x.2
  | activates (request : LegRequest) (a : Activation Geometry)
      (hstage : s.phase.stage = .connecting request .finalizing) :
      Turned cfg s e [.activated a] .active
        (s.actor.base.activated (s.actor.activations + 1) s.now)
  | activatesInVain (request : LegRequest) (a : Activation Geometry) (activations : Nat)
      (x : Stage × Base) (hstage : s.phase.stage = .connecting request .finalizing)
      (hactivations : activations ≠ 0)
      (hx : Ended cfg s.now (s.actor.base.activated activations s.now) x) :
      Turned cfg s e [.activated a] x.1 x.2
  | ends (ms : List (Out Geometry)) (x : Stage × Base)
      (hstage : (∃ request handshake, s.phase.stage = .connecting request handshake ∧
          (handshake = .negotiating → ∃ failure, e = .connectFailed failure)) ∨
        (∃ request leafDer, s.phase.stage = .prompting request leafDer) ∨ s.phase.stage = .active)
      (hms : ∀ o ∈ ms, isPlainCommand o = true) (hx : Ended cfg s.now s.actor.base x) :
      Turned cfg s e ms x.1 x.2
  | redirects (pdu : ServerPdu) (r : ServerRedirectionPdu) (next : NextLeg) (desktop : Size)
      (scale : Nat) (hstage : s.phase.stage = .active) (he : e = .pdu pdu)
      (hr : pdu.redirection? = some r) (htarget : next.targetCertificate = r.target?) :
      Turned cfg s e []
        (.connecting (cfg.redirectedLeg s.actor.io.sessionPin next desktop scale) .negotiating)
        s.actor.base
  | due (deadline : Option Instant) (ms : List (Out Geometry)) (x : Stage × Base)
      (hstage : s.phase.stage = .backoff deadline) (hdeadline : deadline ≠ none)
      (hms : ∀ o ∈ ms, isPlainCommand o = true) (hx : Dialed cfg s.actor.base x) :
      Turned cfg s e ms x.1 x.2
  | now (deadline : Option Instant) (x : Stage × Base)
      (hstage : s.phase.stage = .backoff deadline) (hx : Dialed cfg s.actor.base x) :
      Turned cfg s e [.received .backoff (some .reconnectNow)] x.1 x.2
  | online (deadline : Option Instant) (cmds : List (SessionCommand Geometry)) (x : Stage × Base)
      (hstage : s.phase.stage = .backoff deadline) (he : e = .receive)
      (hcmds : s.cmds = .networkReachable true :: cmds)
      (hx : Dialed cfg
        { s.actor.base with policy := s.actor.policy.setNetworkReachable true } x) :
      Turned cfg s e [.received .backoff (some (.networkReachable true))] x.1 x.2
  | cancels (deadline : Option Instant) (hstage : s.phase.stage = .backoff deadline) :
      Turned cfg s e [.received .backoff (some .cancel)] .idle
        { s.actor.base with policy := s.actor.policy.reset }
  | restarts (x : Stage × Base) (hstage : s.phase.stage = .idle)
      (hx : Dialed cfg
        { s.actor.base with policy := s.actor.policy.reset.setNetworkReachable true } x) :
      Turned cfg s e [.received .idle (some .reconnectNow)] x.1 x.2

section Turn

variable {cfg : Config Geometry} {s : Session Geometry} {e : Event Geometry}

theorem done_turned (hquiet : s.phase.stage.decides e = false) :
    Reaches (Turned cfg s e) [] (.done s) :=
  sat_done (.quiet hquiet)

theorem checkLeaf_turned {redirects : RedirectLoop} {request : LegRequest} {leafDer : Bytes}
    (hphase : s.phase = .connecting redirects request .securing) :
    Reaches (Turned cfg s (.secured leafDer)) [] (s.checkLeaf cfg redirects request leafDer) := by
  have hstage : s.phase.stage = .connecting request .securing := by rw [hphase, Phase.stage]
  have hended : ∀ x, Ended cfg s.now s.actor.base x →
      Turned cfg s (.secured leafDer) [] x.1 x.2 := fun x hx =>
    .ends [] x (.inl ⟨request, .securing, hstage, nofun⟩) (List.forall_mem_nil _) hx
  unfold Session.checkLeaf
  split
  · next hcheck =>
      exact afterCertificate_reaches (.trusts request leafDer hstage rfl (.inl hcheck)) hended
  · exact afterDisconnect_reaches hended
  · next fingerprint hcheck =>
      have hfingerprint : fingerprint = cfg.platform.ofDer leafDer := by
        unfold checkCertificate at hcheck
        split at hcheck
        · split_ifs at hcheck
        · split_ifs at hcheck
        · exact (CertVerdict.unknown.inj hcheck).symm
      subst hfingerprint
      split
      · next hpin =>
          exact afterCertificate_reaches (.trusts request leafDer hstage rfl (.inr ⟨hcheck, hpin⟩))
            hended
      · exact sat_prefix ⟨trivial, trivial⟩ (sat_done (.asks request leafDer hstage rfl hcheck))

theorem activate_turned {redirects : RedirectLoop} {request : LegRequest} {desktop : Size}
    {clipboard : Bool} {link : Option (Nat × IoFailure)}
    (hphase : s.phase = .connecting redirects request .finalizing) :
    Reaches (Turned cfg s e) [] (s.activate cfg redirects desktop clipboard link) := by
  have hstage : s.phase.stage = .connecting request .finalizing := by rw [hphase, Phase.stage]
  have hcontinue : ∀ a : Actor Geometry, a.base = s.actor.base →
      Reaches (Turned cfg s e) [] (Session.continueLeg cfg { s with actor := a } redirects
        (Live.onActivated cfg s.now ⟨a, Leg.new desktop clipboard link⟩)) := by
    intro a ha
    have hcount : a.activations = s.actor.activations := congrArg Base.activations ha
    refine continueLeg_reaches (onActivated_sat ?_ ?_)
    · simp only [ha, hcount]
      exact .activates request _ hstage
    · intro activations x hactivations hx
      simp only [ha] at hx
      exact .activatesInVain request _ activations x hstage hactivations hx
  unfold Session.activate
  simp only
  split
  · exact sat_prefix trivial (hcontinue s.actor rfl)
  · exact setState_reaches fun a ha => hcontinue a ha

theorem onConnect_turned {redirects : RedirectLoop} {request : LegRequest} {handshake : Handshake}
    (hphase : s.phase = .connecting redirects request handshake) :
    Reaches (Turned cfg s e) [] (s.onConnect cfg redirects request handshake e) := by
  unfold Session.onConnect
  split
  · refine setState_reaches fun a ha => sat_done ?_
    have hsecures : Turned cfg s .negotiated [] (.connecting request .securing) a.base := by
      rw [ha]
      exact .secures request (by rw [hphase, Phase.stage])
    exact hsecures
  · exact checkLeaf_turned hphase
  · exact activate_turned hphase
  · next failure =>
      refine afterDisconnect_reaches fun x hx => ?_
      exact .ends [] x (.inl ⟨request, handshake, by rw [hphase, Phase.stage], fun _ => ⟨failure, rfl⟩⟩)
        (List.forall_mem_nil _) hx
  · split
    · exact exitUserClosed_reaches (.leaves [] (List.forall_mem_nil _))
    · exact done_turned (by simp [hphase, Phase.stage, Stage.decides])
  · next hfailed _ _ hsecured _ =>
      refine done_turned ?_
      rw [hphase, Phase.stage]
      unfold Stage.decides
      split
      · exact (hfailed _ rfl).elim
      · next heq _ _ _ =>
          cases heq
          exact (hsecured _ rfl rfl).elim
      · rfl

theorem onLeg_turned {redirects : RedirectLoop} {leg : Leg}
    (hphase : s.phase = .active redirects leg) :
    Reaches (Turned cfg s e) [] (s.onLeg cfg redirects leg e) := by
  have hstage : s.phase.stage = .active := by rw [hphase, Phase.stage]
  have hquiet : s.phase.stage.decides e = false := by
    rw [hstage]
    rfl
  have hlive : Turned cfg s e [] .active s.actor.base := by
    rw [← hstage]
    exact .quiet hquiet
  have hended : ∀ x, Ended cfg s.now s.actor.base x → Turned cfg s e [] x.1 x.2 := fun x hx =>
    .ends [] x (.inr (.inr hstage)) (List.forall_mem_nil _) hx
  cases e with
  | breakLink writes error => exact sat_done hlive
  | readFailed error =>
      simp only [Session.onLeg, Session.endLeg]
      exact afterDisconnect_reaches hended
  | pdu pdu =>
      refine continueLeg_reaches (onPdu_sat hlive (.leaves [] (List.forall_mem_nil _)) hended ?_)
      intro r next desktop scale hr htarget
      exact .redirects pdu r next desktop scale hstage rfl hr htarget
  | present index => exact continueLeg_reaches ((Live.present_local _ _).sat hlive hended)
  | flushAcks => exact continueLeg_reaches ((Live.flushAcks_local _).sat hlive hended)
  | outputChanged =>
      exact continueLeg_reaches
        (((Live.onOutputSize_keeps _).isLocal (Live.onOutputSize_stays _)).sat hlive hended)
  | tick => exact continueLeg_reaches ((Live.onTick_local _ _ _).sat hlive hended)
  | _ => exact done_turned hquiet

theorem shutdown_reaches {Q : List (Out Geometry) → Stage → Base → Prop}
    {ms : List (Out Geometry)} {leg : Leg} (h : Q ms .over s.actor.base) :
    Reaches Q ms (s.shutdown leg) := by
  have hlocal := Live.write_local ⟨s.actor, leg⟩ .shutdownRequest
  unfold Session.shutdown
  refine sat_prefix (holds_true ..) ?_
  rw [foldl_collect_of_forall hlocal.within.2]
  split
  · exact sat_done h
  · exact exitUserClosed_reaches h

theorem shutdownPdu_reaches {Q : List (Out Geometry) → Stage → Base → Prop}
    {ms : List (Out Geometry)} {leg : Leg} {pdu : ServerPdu} (h : Q ms .over s.actor.base) :
    Reaches Q ms (s.shutdownPdu leg pdu) := by
  unfold Session.shutdownPdu
  refine sat_prefix (holds_true ..) ?_
  rw [foldl_collect_of_forall (not_isMilestone_of_mem_onChannels leg pdu)]
  split
  · exact exitUserClosed_reaches h
  · split
    · exact exitUserClosed_reaches h
    · exact sat_done h

theorem onPhase_turned : Reaches (Turned cfg s e) [] (s.onPhase cfg e) := by
  unfold Session.onPhase
  split
  · next hphase =>
      exact connectLoop_reaches fun x hx => .starts [] x (by rw [hphase, Phase.stage])
        (List.forall_mem_nil _) hx
  · next hphase => exact onConnect_turned hphase
  · next hphase =>
      split
      · exact exitUserClosed_reaches (.leaves [] (List.forall_mem_nil _))
      · exact done_turned (by rw [hphase]; rfl)
  · next hphase => exact onLeg_turned hphase
  · exact shutdownPdu_reaches (.leaves [] (List.forall_mem_nil _))
  · exact exitUserClosed_reaches (.leaves [] (List.forall_mem_nil _))
  · next deadline reason hphase =>
      have hstage : s.phase.stage = .backoff deadline := by rw [hphase, Phase.stage]
      refine waitBackoff_reaches ?_ fun hdeadline _ x hx => ?_
      · rw [← hstage]
        exact .quiet (by rw [hstage]; rfl)
      · exact .due deadline [] x hstage hdeadline (List.forall_mem_nil _) hx
  · next hconnecting _ _ _ _ _ _ =>
      refine done_turned ?_
      cases hphase : s.phase with
      | connecting redirects request handshake => exact (hconnecting _ _ _ hphase).elim
      | _ => rfl

/-! ### Commands -/

section Commands

theorem hears_same {o : Out Geometry} (he : e = .receive) (ho : isPlainCommand o = true) :
    Turned cfg s e [o] s.phase.stage s.actor.base :=
  .hears o s.actor.policy he ho (.inl rfl)

theorem closing_of_eq {loop : CommandLoop} {cmd : Option (SessionCommand Geometry)}
    (hcmd : cmd = none ∨ cmd = some .close) :
    ∀ o ∈ ([.received loop cmd] : List (Out Geometry)), isClosing o = true := by
  intro o ho
  obtain rfl := List.mem_singleton.mp ho
  rcases hcmd with rfl | rfl <;> rfl

theorem plain_of_eq {o : Out Geometry} (ho : isPlainCommand o = true) :
    ∀ p ∈ [o], isPlainCommand p = true := by
  intro p hp
  obtain rfl := List.mem_singleton.mp hp
  exact ho

variable [BEq Geometry] {cmds : List (SessionCommand Geometry)}

theorem base_remember (a : Actor Geometry) (now : Instant) (cmd : SessionCommand Geometry) :
    (a.remember now cmd).base = a.base := by
  cases cmd <;> rfl

theorem handle_close_turned {loop : CommandLoop} {cmd : Option (SessionCommand Geometry)}
    (hloop : s.phase.loop = some loop) (hcmd : cmd = none ∨ cmd = some .close) :
    Reaches (Turned cfg s .receive) [.received loop cmd]
      (Session.handle cfg { s with cmds := cmds } cmd) := by
  have hleaves : Turned cfg s .receive [.received loop cmd] .over s.actor.base :=
    .leaves _ (closing_of_eq hcmd)
  rw [Session.handle_of_close hcmd]
  unfold Session.onClose
  split
  · next hphase =>
      have hstage : s.phase.stage = .startUp := congrArg Phase.stage hphase
      exact connectLoop_reaches fun x hx => .starts _ x hstage (closing_of_eq hcmd) hx
  · exact exitUserClosed_reaches hleaves
  · exact exitUserClosed_reaches hleaves
  · exact shutdown_reaches hleaves
  · exact sat_done hleaves
  · next hphase => simp [show s.phase = _ from hphase, Phase.loop] at hloop
  · next hphase => simp [show s.phase = _ from hphase, Phase.loop] at hloop
  · next hphase => simp [show s.phase = _ from hphase, Phase.loop] at hloop

theorem collectInitialState_turned {cmd : SessionCommand Geometry} (hcmd : cmd ≠ .close) :
    Reaches (Turned cfg s .receive) [.received .startUp (some cmd)]
      (Session.collectInitialState cfg { s with cmds := cmds } (some cmd)) := by
  have hears : Turned cfg s .receive [.received .startUp (some cmd)] s.phase.stage
      (s.actor.remember s.now cmd).base := by
    rw [base_remember]
    exact hears_same rfl (by cases cmd <;> rfl)
  rw [Session.collectInitialState_of_ne hcmd]
  exact sat_done hears

omit [BEq Geometry] in
theorem decideCertificate_turned {redirects : RedirectLoop} {request : LegRequest}
    {leafDer : Bytes} {cmd : SessionCommand Geometry}
    (hphase : s.phase = .prompting redirects request leafDer) (hcmd : cmd ≠ .close) :
    Reaches (Turned cfg s .receive) [.received .prompt (some cmd)]
      (Session.decideCertificate cfg { s with cmds := cmds } redirects request leafDer
        (some cmd)) := by
  have hstage : s.phase.stage = .prompting request leafDer := congrArg Phase.stage hphase
  have hplain : isPlainCommand (.received .prompt (some cmd) : Out Geometry) = true := by
    cases cmd <;> rfl
  have hears : Turned cfg s .receive [.received .prompt (some cmd)] s.phase.stage s.actor.base :=
    hears_same rfl hplain
  cases cmd with
  | close => exact absurd rfl hcmd
  | rejectCertificate =>
      have hended : ∀ x, Ended cfg s.now s.actor.base x →
          Turned cfg s .receive [.received .prompt (some .rejectCertificate)] x.1 x.2 := fun x hx =>
        .ends _ x (.inr (.inl ⟨request, leafDer, hstage⟩)) (plain_of_eq hplain) hx
      exact afterDisconnect_reaches hended
  | acceptCertificate accepted pin =>
      simp only [Session.decideCertificate]
      split
      · next haccepted =>
          subst haccepted
          refine sat_prefix (holds_true ..) ?_
          rw [foldl_collect_of_forall (by split <;> simp [Out.isMilestone])]
          exact afterCertificate_reaches (.accepts request leafDer pin hstage)
            fun x hx => .acceptsInVain request leafDer pin x hstage hx
      · exact sat_done hears
  | _ => exact sat_done hears

theorem receiveActive_turned {redirects : RedirectLoop} {leg : Leg} {cmd : SessionCommand Geometry}
    (hphase : s.phase = .active redirects leg) (hcmd : cmd ≠ .close) :
    Reaches (Turned cfg s .receive) [.received .active (some cmd)]
      (Session.receiveActive cfg { s with cmds := cmds } redirects leg (some cmd)) := by
  have hstage : s.phase.stage = .active := congrArg Phase.stage hphase
  have hplain : isPlainCommand (.received .active (some cmd) : Out Geometry) = true := by
    cases cmd <;> rfl
  have hlive : Turned cfg s .receive [.received .active (some cmd)] .active s.actor.base := by
    rw [← hstage]
    exact hears_same rfl hplain
  have hended : ∀ x, Ended cfg s.now s.actor.base x →
      Turned cfg s .receive [.received .active (some cmd)] x.1 x.2 := fun x hx =>
    .ends _ x (.inr (.inr hstage)) (plain_of_eq hplain) hx
  have hcontinue : Session.receiveActive cfg { s with cmds := cmds } redirects leg (some cmd) =
      Session.continueLeg cfg { s with cmds := cmds } redirects
        (Live.onCommand cfg s.now ⟨s.actor, leg⟩ cmd) := by
    cases cmd with
    | close => exact absurd rfl hcmd
    | _ => rfl
  rw [hcontinue]
  refine continueLeg_reaches ?_
  cases cmd with
  | networkReachable reachable =>
      have hset : Turned cfg s .receive [.received .active (some (.networkReachable reachable))]
          .active { s.actor.base with policy := s.actor.policy.setNetworkReachable reachable } := by
        rw [← hstage]
        exact .hears _ _ rfl rfl (.inr ⟨reachable, rfl⟩)
      exact sat_done hset
  | _ =>
      exact (Live.onCommand_local cfg s.now ⟨s.actor, leg⟩ fun _ h => by cases h).sat hlive hended

theorem receiveBackoff_turned {deadline : Option Instant} {reason : DisconnectReason}
    {cmd : SessionCommand Geometry} (hphase : s.phase = .backoff deadline reason)
    (hcmds : ∃ cmds, s.cmds = cmd :: cmds) (hcmd : cmd ≠ .close) :
    Reaches (Turned cfg s .receive) [.received .backoff (some cmd)]
      (Session.receiveBackoff cfg { s with cmds := cmds } deadline reason (some cmd)) := by
  have hstage : s.phase.stage = .backoff deadline := congrArg Phase.stage hphase
  -- Commands after which the backoff goes on, unless it is over.
  have hwait : ∀ t : Session Geometry,
      isPlainCommand (.received .backoff (some cmd) : Out Geometry) = true →
      t.actor.base = s.actor.base →
        Reaches (Turned cfg s .receive) [.received .backoff (some cmd)]
          (t.waitBackoff cfg deadline reason) := by
    intro t hplain hbase
    refine waitBackoff_reaches ?_ fun hdeadline _ x hx => ?_
    · rw [hbase, ← hstage]
      exact hears_same rfl hplain
    · rw [hbase] at hx
      exact .due deadline _ x hstage hdeadline (plain_of_eq hplain) hx
  cases cmd with
  | close => exact absurd rfl hcmd
  | cancel => exact stop_reaches (.cancels deadline hstage)
  | reconnectNow =>
      simp only [Session.receiveBackoff]
      split
      · exact connectLoop_reaches fun x hx => .now deadline x hstage hx
      · exact hwait _ rfl rfl
  | networkReachable reachable =>
      obtain ⟨cmds', hcmds⟩ := hcmds
      simp only [Session.receiveBackoff]
      split
      · next hreachable =>
          subst hreachable
          exact connectLoop_reaches fun x hx => .online deadline cmds' x hstage rfl hcmds hx
      · next hreachable =>
          obtain rfl : reachable = false := by simpa using hreachable
          refine waitBackoff_reaches ?_ fun _ hset => by cases hset
          have hset : Turned cfg s .receive [.received .backoff (some (.networkReachable false))]
              s.phase.stage
              { s.actor.base with policy := s.actor.policy.setNetworkReachable false } :=
            .hears _ _ rfl rfl (.inr ⟨false, rfl⟩)
          rw [hstage] at hset
          exact hset
  | input event => exact hwait _ rfl rfl
  | resize geometry => exact hwait _ rfl (base_remember ..)
  | setVisible visible => exact hwait _ rfl (base_remember ..)
  | focus focused => exact hwait _ rfl (base_remember ..)
  | clipboardLocalChanged contents => exact hwait _ rfl (base_remember ..)
  | acceptCertificate fingerprint pin => exact hwait _ rfl rfl
  | rejectCertificate => exact hwait _ rfl rfl

theorem receiveIdle_turned {cmd : SessionCommand Geometry} (hphase : s.phase = .idle)
    (hcmd : cmd ≠ .close) :
    Reaches (Turned cfg s .receive) [.received .idle (some cmd)]
      (Session.receiveIdle cfg { s with cmds := cmds } (some cmd)) := by
  have hstage : s.phase.stage = .idle := congrArg Phase.stage hphase
  have hears : isPlainCommand (.received .idle (some cmd) : Out Geometry) = true →
      Turned cfg s .receive [.received .idle (some cmd)] s.phase.stage
        (s.actor.remember s.now cmd).base := by
    rw [base_remember]
    exact hears_same rfl
  cases cmd with
  | close => exact absurd rfl hcmd
  | reconnectNow => exact connectLoop_reaches fun x hx => .restarts x hstage hx
  | networkReachable reachable =>
      have hset : Turned cfg s .receive [.received .idle (some (.networkReachable reachable))]
          s.phase.stage
          { s.actor.base with policy := s.actor.policy.setNetworkReachable reachable } :=
        .hears _ _ rfl rfl (.inr ⟨reachable, rfl⟩)
      exact sat_done hset
  | _ => exact sat_done (hears rfl)

theorem handle_turned {loop : CommandLoop} {cmd : SessionCommand Geometry}
    (hloop : s.phase.loop = some loop) (hcmds : ∃ cmds, s.cmds = cmd :: cmds)
    (hcmd : cmd ≠ .close) :
    Reaches (Turned cfg s .receive) [.received loop (some cmd)]
      (Session.handle cfg { s with cmds := cmds } (some cmd)) := by
  unfold Session.handle
  split
  · next hphase =>
      obtain rfl : CommandLoop.startUp = loop := by
        simpa [show s.phase = _ from hphase, Phase.loop] using hloop
      exact collectInitialState_turned hcmd
  · next hphase =>
      obtain rfl : CommandLoop.prompt = loop := by
        simpa [show s.phase = _ from hphase, Phase.loop] using hloop
      exact decideCertificate_turned hphase hcmd
  · next hphase =>
      obtain rfl : CommandLoop.active = loop := by
        simpa [show s.phase = _ from hphase, Phase.loop] using hloop
      exact receiveActive_turned hphase hcmd
  · next hphase =>
      obtain rfl : CommandLoop.backoff = loop := by
        simpa [show s.phase = _ from hphase, Phase.loop] using hloop
      exact receiveBackoff_turned hphase hcmds hcmd
  · next hphase =>
      obtain rfl : CommandLoop.idle = loop := by
        simpa [show s.phase = _ from hphase, Phase.loop] using hloop
      exact receiveIdle_turned hphase hcmd
  · next hphase => simp [show s.phase = _ from hphase, Phase.loop] at hloop
  · next hphase => simp [show s.phase = _ from hphase, Phase.loop] at hloop
  · next hphase => simp [show s.phase = _ from hphase, Phase.loop] at hloop

theorem receive_turned : Reaches (Turned cfg s .receive) [] (s.receive cfg) := by
  unfold Session.receive
  split
  · next loop t cmd hloop hnext =>
      refine sat_prefix ⟨trivial, trivial⟩ ?_
      unfold Session.next at hnext
      split at hnext
      · next cmd' cmds hcmds =>
          cases hnext
          by_cases hclose : cmd' = .close
          · exact handle_close_turned hloop (.inr (congrArg some hclose))
          · exact handle_turned hloop ⟨cmds, hcmds⟩ hclose
      · split at hnext
        · cases hnext
        · cases hnext
          exact handle_close_turned hloop (.inl rfl)
  · exact done_turned (by cases s.phase.stage <;> rfl)

/-- **Turns.** A turn does one of the things of `Turned`. -/
theorem turned (cfg : Config Geometry) (s : Session Geometry) (e : Event Geometry) :
    Turned cfg s e ((s.step cfg e).2.filter Out.isMilestone) (s.step cfg e).1.phase.stage
      (s.step cfg e).1.actor.base := by
  have hturn : Reaches (Turned cfg s e) [] (s.turn cfg e) := by
    have happ : (s.onApp e).phase = s.phase ∧ (s.onApp e).actor = s.actor := by
      unfold Session.onApp
      split
      · split <;> exact ⟨rfl, rfl⟩
      · exact ⟨rfl, rfl⟩
      · exact ⟨rfl, rfl⟩
      · exact ⟨rfl, rfl⟩
    have hquiet : (∀ stage : Stage, stage.decides e = false) →
        Reaches (Turned cfg s e) [] (.done (s.onApp e)) := by
      intro hquiet
      refine sat_done ?_
      rw [happ.1, happ.2]
      exact .quiet (hquiet _)
    unfold Session.turn
    split
    · exact hquiet fun stage => by cases stage <;> simp [Stage.decides]
    · exact hquiet fun stage => by cases stage <;> simp [Stage.decides]
    · exact hquiet fun stage => by cases stage <;> simp [Stage.decides]
    · exact receive_turned
    · exact onPhase_turned
  have hpost := hturn.post
  rw [foldl_collect, List.nil_append] at hpost
  exact hpost

end Commands

end Turn

end Drift.Rdp
