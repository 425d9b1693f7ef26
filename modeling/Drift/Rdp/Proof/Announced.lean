import Drift.Rdp.Announced
import Drift.Rdp.Proof.Local
import Drift.Rdp.Proof.Quiet

/-!
# The session shows its states

The actor's loops are followed by the table of the states: every operation between and on legs asks for
a state that the table admits from the one of its phase. The same pass over the operations tells what they
do once the app has closed the session: no operation starts to connect again.
-/

namespace Drift

/-! ### States -/

namespace SessionState

def isPending : SessionState → Bool
  | .disconnected _ | .failed _ => false
  | _ => true

def isUp : SessionState → Bool
  | .connecting _ _ | .awaitingGreeterLogin | .connected _ _ => true
  | _ => false

theorem isPending_of_isUp {s : SessionState} (h : s.isUp = true) : s.isPending = true := by
  cases s <;> first | rfl | cases h

theorem allows_userClosed {s : SessionState} (h : s.isPending = true) :
    s.allows (.disconnected .userClosed) = true := by
  cases s <;> first | rfl | cases h

theorem ne_disconnected_of_isPending {s : SessionState} {reason : DisconnectReason}
    (h : s.isPending = true) : s ≠ .disconnected reason := by
  rintro rfl
  cases h

theorem allows_terminalState {s : SessionState} (h : s.isUp = true) (reason : DisconnectReason) :
    s.allows (terminalState reason) = true := by
  unfold terminalState
  split <;> cases s <;> first | rfl | cases h

theorem allows_reconnecting {s : SessionState} {attempt : Nat} {nextIn : Duration}
    {reason : DisconnectReason} (h : s.isUp = true) (hattempt : attempt ≠ 0)
    (hreason : reason.isRetryable = true) :
    s.allows (.reconnecting attempt nextIn reason) = true := by
  cases s <;> simp_all [isUp, allows, validTarget]

theorem allows_first {s : SessionState} (h : s.isUp = false) :
    s.allows (.connecting 1 .tcp) = true := by
  cases s <;> first | rfl | cases h

end SessionState

/-- The decisions about a drop are about a retryable reason, with an attempt that counts from one. -/
theorem ReconnectPolicy.onDisconnect_attempt {p : ReconnectPolicy} {reason : DisconnectReason}
    {now : Instant} {attempt : Nat}
    (h : (∃ delay, (p.onDisconnect reason now).2 = .retry attempt delay) ∨
      (p.onDisconnect reason now).2 = .waitForNetwork attempt) :
    reason.isRetryable = true ∧ attempt ≠ 0 := by
  have hpos : ∀ n, ReconnectPolicy.saturatingSucc n ≠ 0 := by
    intro n
    unfold ReconnectPolicy.saturatingSucc u32Max
    omega
  rw [ReconnectPolicy.onDisconnect_eq] at h
  split at h
  · next hretryable =>
      refine ⟨hretryable, ?_⟩
      simp only [ReconnectPolicy.nextDecision] at h
      rcases h with ⟨delay, h⟩ | h
      · split_ifs at h
        · cases h
          exact hpos _
      · split_ifs at h
        cases h
        exact hpos _
  · rcases h with ⟨delay, h⟩ | h <;> cases h

end Drift

namespace Drift.Rdp

open Outcome Transition

variable {Geometry : Type}

theorem RedirectLoop.Shows.isUp {r : RedirectLoop} {state : SessionState} (h : r.Shows state) :
    state.isUp = true := by
  unfold Shows at h
  split_ifs at h
  · rw [h]
    rfl
  · rw [h]
    rfl
  · obtain ⟨desktop, scale, rfl⟩ := h
    rfl

theorem RedirectLoop.Shows.allows_next {r : RedirectLoop} {state : SessionState}
    (h : r.Shows state) (hpos : 1 ≤ r.leg) (hmax : r.leg + 1 ≤ maxLeg) :
    state.allows (.connecting (r.leg + 1) .tcp) = true := by
  unfold Shows at h
  split_ifs at h with hfirst
  · rw [h, hfirst.2]
    rfl
  · subst h
    simp [SessionState.allows, SessionState.validTarget, hmax]
    omega
  · obtain ⟨desktop, scale, rfl⟩ := h
    simp [SessionState.allows, SessionState.validTarget, hmax]
    omega

/-! ### The relation between the session and what it shows -/

/-- How far a phase is from the end of the actor, in turns other than the ones that receive. -/
def Phase.rank : Phase Geometry → Nat
  | .exited => 0
  | .shuttingDown _ => 1
  | .startUp | .active _ _ | .backoff _ _ | .idle => 2
  | .connecting _ _ .finalizing => 3
  | .prompting _ _ _ => 4
  | .connecting _ _ .securing => 5
  | .connecting _ _ .negotiating => 6

/-- The request is for the given leg: the first one goes to the server of the profile. -/
structure LegRequest.Numbered (request : LegRequest) (leg : Nat) : Prop where
  leg_eq : request.leg = leg
  pos : 1 ≤ leg
  le_max : leg ≤ maxLeg
  first : request.role = .server ↔ leg = 1
  auth : leg = 1 → request.auth.stage = .nla

def Phase.Numbered (leg : Nat) : Phase Geometry → Nat → Prop
  | .connecting redirects request _, ioLeg | .prompting redirects request _, ioLeg =>
    redirects.leg = leg ∧ request.Numbered leg ∧ ioLeg = leg
  | .active redirects _, _ => redirects.leg = leg ∧ 1 ≤ leg ∧ leg ≤ maxLeg
  | _, _ => True

structure Session.Shows (s : Session Geometry) (m : Announced) : Prop where
  state : m.state = s.actor.io.state
  leg : legShown m.leg m.state = m.leg
  phase : s.phase.Shows s.actor.io.state
  numbered : s.phase.Numbered m.leg s.actor.io.leg
  ended : s.phase = .exited → m.last = some (.state (.disconnected .userClosed))

/-- What the actor knows of the app: its commands, its handles, and whether it closed the session. -/
structure Mailbox (Geometry : Type) where
  cmds : List (SessionCommand Geometry)
  handles : Bool
  closed : Bool

def Session.mailbox (s : Session Geometry) : Mailbox Geometry := ⟨s.cmds, s.handles, s.closed⟩

/-- Where an operation ends: it leaves the mailbox alone, in a closed session it does not get beyond the
given rank, and a redirected leg has the given number. -/
structure Lands (box : Mailbox Geometry) (rank leg : Nat) (s : Session Geometry) (m : Announced) :
    Prop where
  shows_ : s.Shows m
  mailbox : s.mailbox = box
  rank_le : box.closed = true → s.phase.rank ≤ rank
  redirected : ∀ redirects request handshake, s.phase = .connecting redirects request handshake →
    request.role = .redirectTarget → request.leg = leg

def Phase.isConnecting : Phase Geometry → Bool
  | .connecting _ _ _ => true
  | _ => false

theorem lands_of_isConnecting {box : Mailbox Geometry} {rank leg : Nat} {s : Session Geometry}
    {m : Announced} (hshows : s.Shows m) (hbox : s.mailbox = box)
    (hrank : box.closed = true → s.phase.rank ≤ rank) (hphase : s.phase.isConnecting = false) :
    Lands box rank leg s m := by
  refine ⟨hshows, hbox, hrank, ?_⟩
  intro redirects request handshake heq
  rw [heq] at hphase
  cases hphase

/-- The operation shows the states it goes through, and ends where it should. -/
abbrev Announces (box : Mailbox Geometry) (rank leg : Nat) (m : Announced) (r : Turn Geometry) :
    Prop :=
  Sat Announced.hear Announced.Accepts m r fun _ s m => Lands box rank leg s m

/-! ### Operations between legs -/

section Between

variable {box : Mailbox Geometry} {rank leg : Nat} {m : Announced} {s : Session Geometry}
  {cfg : Config Geometry}

def Session.withState (s : Session Geometry) (state : SessionState) : Session Geometry :=
  { s with actor := { s.actor with io := { s.actor.io with state := state } } }

theorem setState_announces {next : SessionState} {f : Session Geometry → Turn Geometry}
    (hm : m.state = s.actor.io.state) (hleg : legShown m.leg m.state = m.leg)
    (hallows : s.actor.io.state.allows next = true) (hfollows : m.Follows next)
    (hf : ∀ last, (s.actor.io.state ≠ next → last = some (.state next)) →
      Announces box rank leg ⟨next, legShown m.leg next, last⟩ (f (s.withState next))) :
    Announces box rank leg m ((s.setState next).andThen f) := by
  by_cases heq : s.actor.io.state = next
  · have hset : s.setState next = ⟨s.withState next, [], none⟩ := by
      subst heq
      simp [Session.setState, Actor.setState, Session.withState]
    have hsame : m = ⟨next, legShown m.leg next, m.last⟩ := by
      rw [hm, heq] at hleg
      rw [hleg, ← heq, ← hm]
    rw [hset]
    refine sat_prefix (holds_nil ..) ?_
    rw [List.foldl_nil, hsame]
    exact hf m.last fun hne => absurd heq hne
  · have hset : s.setState next = ⟨s.withState next, [.event (.state next)], none⟩ := by
      simp [Session.setState, Actor.setState, Session.withState, heq, hallows]
    rw [hset]
    exact sat_prefix ⟨hfollows, trivial⟩ (hf _ fun _ => rfl)

theorem exitUserClosed_announces (hbox : s.mailbox = box) (hm : m.state = s.actor.io.state)
    (hleg : legShown m.leg m.state = m.leg) (hpending : s.actor.io.state.isPending = true) :
    Announces box rank leg m s.exitUserClosed := by
  refine setState_announces hm hleg (SessionState.allows_userClosed hpending) trivial ?_
  intro last hlast
  have hne : s.actor.io.state ≠ .disconnected .userClosed :=
    SessionState.ne_disconnected_of_isPending hpending
  refine sat_done (lands_of_isConnecting ⟨rfl, rfl, trivial, trivial, fun _ => hlast hne⟩ hbox ?_
    rfl)
  exact fun _ => Nat.zero_le rank

theorem stop_announces {reason : DisconnectReason} {state : SessionState} (hbox : s.mailbox = box)
    (hm : m.state = s.actor.io.state) (hleg : legShown m.leg m.state = m.leg)
    (hallows : s.actor.io.state.allows state = true) (hreason : reason ≠ .userClosed)
    (hstate : state = .disconnected reason ∨ state = .failed reason) (hrank : 2 ≤ rank) :
    Announces box rank leg m (s.stop state) := by
  have hfollows : m.Follows state := by
    rcases hstate with rfl | rfl <;> trivial
  have hshown : legShown m.leg state = m.leg := by
    rcases hstate with rfl | rfl <;> rfl
  refine setState_announces hm hleg hallows hfollows ?_
  intro last _
  refine sat_done (lands_of_isConnecting ⟨rfl, ?_, ⟨reason, hreason, hstate⟩, trivial, nofun⟩ hbox
    (fun _ => hrank) rfl)
  rw [hshown]
  exact hshown

theorem connectOne_announces {redirects : RedirectLoop} {request : LegRequest}
    (hbox : s.mailbox = box) (hm : m.state = s.actor.io.state)
    (hleg : legShown m.leg m.state = m.leg)
    (hclosed : box.closed = true → s.actor.io.state.isPending = true)
    (hallows : s.actor.io.state.allows (.connecting request.leg .tcp) = true)
    (hfollows : m.Follows (.connecting request.leg .tcp))
    (hredirects : redirects.leg = request.leg) (hnumbered : request.Numbered request.leg)
    (hnext : request.role = .redirectTarget → request.leg = leg) :
    Announces box rank leg m (s.connectOne cfg redirects request) := by
  unfold Session.connectOne
  simp only
  split
  · next hc =>
      have hc' : box.closed = true := by
        rw [← hbox]
        exact hc
      exact exitUserClosed_announces hbox hm hleg (hclosed hc')
  · next hc =>
      refine setState_announces hm hleg hallows hfollows ?_
      intro last _
      refine sat_done ⟨⟨rfl, rfl, rfl, ⟨hredirects, hnumbered, rfl⟩, nofun⟩, hbox, ?_, ?_⟩
      · intro hc'
        rw [← hbox] at hc'
        exact absurd hc' hc
      · rintro _ _ _ ⟨⟩ hrole
        exact hnext hrole

theorem io_requestDesktop (platform : Platform Geometry) (a : Actor Geometry) :
    (a.requestDesktop platform).1.io = a.io := by
  unfold Actor.requestDesktop
  split <;> rfl

theorem connectLoop_announces (hbox : s.mailbox = box) (hm : m.state = s.actor.io.state)
    (hleg : legShown m.leg m.state = m.leg)
    (hclosed : box.closed = true → s.actor.io.state.isPending = true)
    (hdown : s.actor.io.state.isUp = false) : Announces box rank leg m (s.connectLoop cfg) := by
  have hio := io_requestDesktop cfg.platform s.actor
  have hmax : 1 ≤ maxLeg := by decide
  unfold Session.connectLoop
  refine connectOne_announces hbox ?_ hleg ?_ ?_ ⟨Nat.le_refl 1, hmax, .inl rfl⟩ rfl ?_ nofun
  · rw [hio]
    exact hm
  · rw [hio]
    exact hclosed
  · rw [hio]
    exact SessionState.allows_first hdown
  · exact ⟨rfl, Nat.le_refl 1, hmax, ⟨fun _ => rfl, fun _ => rfl⟩, fun _ => rfl⟩

theorem waitBackoff_announces {deadline : Option Instant} {reason : DisconnectReason}
    (hbox : s.mailbox = box) (hm : m.state = s.actor.io.state)
    (hleg : legShown m.leg m.state = m.leg)
    (hstate : (Phase.backoff deadline reason : Phase Geometry).Shows s.actor.io.state)
    (hrank : 2 ≤ rank) : Announces box rank leg m (s.waitBackoff cfg deadline reason) := by
  unfold Session.waitBackoff
  split
  · obtain ⟨_, attempt, nextIn, hio⟩ := hstate
    refine connectLoop_announces hbox hm hleg (fun _ => ?_) ?_
    · rw [hio]
      rfl
    · rw [hio]
      rfl
  · exact sat_done (lands_of_isConnecting ⟨hm, hleg, hstate, trivial, nofun⟩ hbox (fun _ => hrank)
      rfl)

theorem enterBackoff_announces {attempt : Nat} {delay : Duration} {reason : DisconnectReason}
    (hbox : s.mailbox = box) (hm : m.state = s.actor.io.state)
    (hleg : legShown m.leg m.state = m.leg) (hup : s.actor.io.state.isUp = true)
    (hattempt : attempt ≠ 0) (hretryable : reason.isRetryable = true)
    (hreason : reason ≠ .userClosed) (hrank : 2 ≤ rank) :
    Announces box rank leg m (s.enterBackoff cfg attempt delay reason) := by
  have hallows : ∀ nextIn, s.actor.io.state.allows (.reconnecting attempt nextIn reason) = true :=
    fun _ => SessionState.allows_reconnecting hup hattempt hretryable
  refine setState_announces hm hleg (hallows _) trivial fun last _ => ?_
  exact waitBackoff_announces hbox rfl rfl ⟨hreason, attempt, _, rfl⟩ hrank

theorem afterDisconnect_announces {reason : DisconnectReason} (hbox : s.mailbox = box)
    (hm : m.state = s.actor.io.state) (hleg : legShown m.leg m.state = m.leg)
    (hup : s.actor.io.state.isUp = true) (hrank : 2 ≤ rank) :
    Announces box rank leg m (s.afterDisconnect cfg reason) := by
  have hterminal : terminalState reason = .disconnected reason ∨
      terminalState reason = .failed reason := by
    unfold terminalState
    split
    · exact .inl rfl
    · exact .inr rfl
  unfold Session.afterDisconnect
  split
  · exact exitUserClosed_announces hbox hm hleg (SessionState.isPending_of_isUp hup)
  next hreason =>
  split
  · exact stop_announces hbox hm hleg (SessionState.allows_terminalState hup reason) hreason
      hterminal hrank
  simp only
  split
  · next attempt delay hdecision =>
      obtain ⟨hretryable, hattempt⟩ :=
        ReconnectPolicy.onDisconnect_attempt (.inl ⟨delay, hdecision⟩)
      exact enterBackoff_announces hbox hm hleg hup hattempt hretryable hreason hrank
  · next attempt hdecision =>
      obtain ⟨hretryable, hattempt⟩ := ReconnectPolicy.onDisconnect_attempt (.inr hdecision)
      exact enterBackoff_announces hbox hm hleg hup hattempt hretryable hreason hrank
  · exact stop_announces hbox hm hleg (SessionState.allows_terminalState hup reason) hreason
      hterminal hrank

theorem afterCertificate_announces {redirects : RedirectLoop} {request : LegRequest}
    {leafDer : Bytes} (hbox : s.mailbox = box) (hm : m.state = s.actor.io.state)
    (hstate : s.actor.io.state = .connecting request.leg .tls) (hredirects : redirects.leg = m.leg)
    (hnumbered : request.Numbered m.leg) (hio : s.actor.io.leg = m.leg) (hrank : 3 ≤ rank)
    (hnext : request.leg = leg) :
    Announces box rank leg m (s.afterCertificate cfg redirects request leafDer) := by
  have hleg : legShown m.leg m.state = m.leg := by
    rw [hm, hstate]
    exact hnumbered.leg_eq
  unfold Session.afterCertificate
  split
  · refine setState_announces hm hleg ?_ ?_ fun last _ => ?_
    · rw [hstate, hnumbered.leg_eq]
      simp [SessionState.allows, SessionState.validTarget, hio, hnumbered.pos, hnumbered.le_max]
    · rw [hio]
      cases hauth : request.auth <;> rfl
    · rw [hio]
      refine sat_prefix ⟨trivial, trivial⟩ (sat_done ⟨⟨rfl, rfl, ?_, ?_, nofun⟩, hbox, ?_, ?_⟩)
      · show SessionState.connecting m.leg request.auth.stage = _
        rw [← hnumbered.leg_eq]
        rfl
      · exact ⟨hredirects, hnumbered, hio⟩
      · exact fun _ => hrank
      · rintro _ _ _ ⟨⟩ _
        exact hnext
  · refine afterDisconnect_announces hbox hm hleg ?_ (Nat.le_trans (by decide) hrank)
    rw [hstate]
    rfl

theorem checkLeaf_announces {redirects : RedirectLoop} {request : LegRequest} {leafDer : Bytes}
    (hbox : s.mailbox = box) (hm : m.state = s.actor.io.state)
    (hstate : s.actor.io.state = .connecting request.leg .tls) (hredirects : redirects.leg = m.leg)
    (hnumbered : request.Numbered m.leg) (hio : s.actor.io.leg = m.leg) (hrank : 4 ≤ rank)
    (hnext : request.leg = leg) :
    Announces box rank leg m (s.checkLeaf cfg redirects request leafDer) := by
  have hleg : legShown m.leg m.state = m.leg := by
    rw [hm, hstate]
    exact hnumbered.leg_eq
  have hup : s.actor.io.state.isUp = true := by
    rw [hstate]
    rfl
  have haccepted : Announces box rank leg m (s.afterCertificate cfg redirects request leafDer) :=
    afterCertificate_announces hbox hm hstate hredirects hnumbered hio
      (Nat.le_of_succ_le hrank) hnext
  unfold Session.checkLeaf
  split
  · exact haccepted
  · exact afterDisconnect_announces hbox hm hleg hup (Nat.le_trans (by decide) hrank)
  · split
    · exact haccepted
    · refine sat_prefix ⟨trivial, trivial⟩ (sat_done
        (lands_of_isConnecting ⟨hm, hleg, hstate, ?_, nofun⟩ hbox ?_ rfl))
      · exact ⟨hredirects, hnumbered, hio⟩
      · exact fun _ => hrank

end Between

/-! ### Operations on a leg -/

section Legs

variable {box : Mailbox Geometry} {rank : Nat} {m : Announced} {s : Session Geometry}
  {cfg : Config Geometry} {redirects : RedirectLoop}

theorem RedirectLoop.Shows.legShown {state : SessionState} (h : redirects.Shows state) :
    legShown redirects.leg state = redirects.leg := by
  unfold Shows at h
  split_ifs at h with hfirst
  · rw [h, hfirst.2]
    rfl
  · rw [h]
    rfl
  · obtain ⟨desktop, scale, rfl⟩ := h
    rfl

theorem numbered_redirectedLeg {pin : Option CertFingerprint} {next : NextLeg} {desktop : Size}
    {scale : Nat} (hmin : 2 ≤ next.leg) (hmax : next.leg ≤ maxLeg) :
    (cfg.redirectedLeg pin next desktop scale).Numbered next.leg := by
  refine ⟨rfl, Nat.le_of_succ_le hmin, hmax, ⟨nofun, fun hone => ?_⟩, fun hone => ?_⟩
  · omega
  · omega

theorem redirect_announces {pdu : ServerRedirectionPdu} (hbox : s.mailbox = box)
    (hm : m.state = s.actor.io.state) (hshows : redirects.Shows s.actor.io.state)
    (hleg : redirects.leg = m.leg) (hpos : 1 ≤ m.leg) (hrank : 2 ≤ rank) :
    Announces box rank (m.leg + 1) m (s.redirect cfg redirects pdu) := by
  have hio := io_requestDesktop cfg.platform s.actor
  have hshown : legShown m.leg m.state = m.leg := by
    rw [hm, ← hleg]
    exact hshows.legShown
  unfold Session.redirect
  simp only
  split
  · exact afterDisconnect_announces hbox hm hshown hshows.isUp hrank
  · next next hnext =>
      obtain ⟨hbound, hloop, hnumber⟩ : redirects.leg + 1 ≤ maxLeg ∧
          (redirects.onRedirect pdu).1.leg = redirects.leg + 1 ∧ next.leg = redirects.leg + 1 := by
        unfold RedirectLoop.onRedirect at hnext ⊢
        split_ifs at hnext ⊢ with hmany
        split at hnext
        · cases hnext
        split at hnext
        · cases hnext
        cases hnext
        refine ⟨?_, ?_, rfl⟩
        · unfold maxLeg
          omega
        · simp_all
      rw [hleg] at hbound hloop hnumber
      refine connectOne_announces hbox ?_ hshown ?_ ?_ ?_ (hloop.trans hnumber.symm) ?_ ?_
      · rw [hio]
        exact hm
      · rw [hio]
        exact fun _ => SessionState.isPending_of_isUp hshows.isUp
      · rw [hio]
        show s.actor.io.state.allows (.connecting next.leg .tcp) = true
        rw [hnumber, ← hleg]
        exact hshows.allows_next (hleg ▸ hpos) (hleg ▸ hbound)
      · show m.Follows (.connecting next.leg .tcp)
        rw [hnumber]
        exact ⟨Nat.le_add_left 1 _, hbound, .inr rfl⟩
      · exact numbered_redirectedLeg (by omega) (by omega)
      · exact fun _ => hnumber

theorem continueLeg_announces {run : LegRun Geometry} {next : Nat} (hbox : s.mailbox = box)
    (hholds : Holds Announced.hear Announced.Accepts m run.outs)
    (hm : (run.outs.foldl Announced.hear m).state = run.state.actor.io.state)
    (hleg : (run.outs.foldl Announced.hear m).leg = m.leg)
    (hshows : redirects.Shows run.state.actor.io.state) (hredirects : redirects.leg = m.leg)
    (hpos : 1 ≤ m.leg) (hmax : m.leg ≤ maxLeg) (hrank : 2 ≤ rank)
    (hnext : (∃ pdu, run.exit = some (.redirect pdu)) → next = m.leg + 1) :
    Announces box rank next m (s.continueLeg cfg redirects run) := by
  have hshown : legShown (run.outs.foldl Announced.hear m).leg
      (run.outs.foldl Announced.hear m).state = (run.outs.foldl Announced.hear m).leg := by
    rw [hm, hleg, ← hredirects]
    exact hshows.legShown
  unfold Session.continueLeg
  refine sat_prefix hholds ?_
  rw [← hleg] at hredirects hpos hmax hnext
  split
  · exact sat_done (lands_of_isConnecting ⟨hm, hshown, hshows, ⟨hredirects, hpos, hmax⟩, nofun⟩
      hbox (fun _ => hrank) rfl)
  · next legEnd hexit =>
      cases legEnd with
      | redirect pdu =>
          rw [hnext ⟨pdu, hexit⟩]
          exact redirect_announces hbox hm hshows hredirects hpos hrank
      | closed =>
          exact exitUserClosed_announces hbox hm hshown (SessionState.isPending_of_isUp hshows.isUp)
      | ended reason => exact afterDisconnect_announces hbox hm hshown hshows.isUp hrank

theorem holds_of_announces {os : List (Out Geometry)} (h : ∀ o ∈ os, o.announces = false) :
    Holds Announced.hear Announced.Accepts m os ∧
      (os.foldl Announced.hear m).state = m.state ∧ (os.foldl Announced.hear m).leg = m.leg := by
  induction os generalizing m with
  | nil => exact ⟨trivial, rfl, rfl⟩
  | cons o os ih =>
      have hquiet := h o List.mem_cons_self
      obtain ⟨hrest, hstate, hleg⟩ := @ih (m.hear o) fun p hp => h p (List.mem_cons_of_mem o hp)
      have hfirst : m.Accepts o ∧ (m.hear o).state = m.state ∧ (m.hear o).leg = m.leg := by
        cases o with
        | event event => cases event <;> first | exact ⟨trivial, rfl, rfl⟩ | cases hquiet
        | rejected next => cases hquiet
        | _ => exact ⟨trivial, rfl, rfl⟩
      exact ⟨⟨hfirst.1, hrest⟩, hstate.trans hfirst.2.1, hleg.trans hfirst.2.2⟩

theorem quiet_announces {l : Live Geometry} {run : LegRun Geometry} {next : Nat}
    (hquiet : l.Quiet run) (hbox : s.mailbox = box) (hm : m.state = l.actor.io.state)
    (hshows : redirects.Shows l.actor.io.state) (hredirects : redirects.leg = m.leg)
    (hpos : 1 ≤ m.leg) (hmax : m.leg ≤ maxLeg) (hrank : 2 ≤ rank)
    (hnext : (∃ pdu, run.exit = some (.redirect pdu)) → next = m.leg + 1) :
    Announces box rank next m (s.continueLeg cfg redirects run) := by
  obtain ⟨hholds, hstate, hleg⟩ := holds_of_announces (m := m) hquiet.2
  refine continueLeg_announces hbox hholds ?_ hleg ?_ hredirects hpos hmax hrank hnext
  · rw [hstate, hquiet.1]
    exact hm
  · rw [hquiet.1]
    exact hshows

theorem onActivated_stays (now : Instant) (l : Live Geometry) :
    Live.Stays (l.onActivated cfg now) := by
  unfold Live.onActivated
  refine Exits.andThen (exits_of_none rfl) fun l => (l.resyncInput_stays).andThen fun l => ?_
  exact (Live.applyHidden_local _).stays.andThen fun l => (l.replayLocal_local ..).stays

theorem activate_announces {request : LegRequest} {desktop : Size} {clipboard : Bool}
    {link : Option (Nat × IoFailure)} {next : Nat}
    (hbox : s.mailbox = box) (hm : m.state = s.actor.io.state)
    (hstate : s.actor.io.state = .connecting request.leg request.auth.stage)
    (hredirects : redirects.leg = m.leg) (hnumbered : request.Numbered m.leg) (hrank : 2 ≤ rank) :
    Announces box rank next m (s.activate cfg redirects desktop clipboard link) := by
  have hleg : legShown m.leg m.state = m.leg := by
    rw [hm, hstate]
    exact hnumbered.leg_eq
  have hnext : ∀ a : Actor Geometry, (∃ pdu, (Live.onActivated cfg s.now
      ⟨a, Leg.new desktop clipboard link⟩).exit = some (.redirect pdu)) → next = m.leg + 1 := by
    rintro a ⟨pdu, hexit⟩
    obtain ⟨reason, hreason⟩ := onActivated_stays s.now _ _ hexit
    cases hreason
  have hcontinue : ∀ state last, redirects.Shows state →
      Announces box rank next ⟨state, m.leg, last⟩
        ((s.withState state).continueLeg cfg redirects
          (Live.onActivated cfg s.now ⟨(s.withState state).actor, Leg.new desktop clipboard link⟩)) := by
    intro state last hshows
    exact quiet_announces (Live.onActivated_quiet ..) hbox rfl hshows hredirects hnumbered.pos
      hnumbered.le_max hrank (hnext _)
  unfold Session.activate
  simp only
  split
  · next hnone =>
      unfold RedirectLoop.onActivated at hnone
      split_ifs at hnone with hfirst
      have hone : m.leg = 1 := hredirects.symm.trans hfirst.2
      have hshows : redirects.Shows s.actor.io.state := by
        unfold RedirectLoop.Shows
        rw [hstate, hnumbered.leg_eq, hnumbered.auth hone, hone, if_pos hfirst]
      refine sat_prefix (Transition.holds_nil m) ?_
      exact quiet_announces (Live.onActivated_quiet ..) hbox hm hshows hredirects hnumbered.pos
        hnumbered.le_max hrank (hnext _)
  · next state hsome =>
      unfold RedirectLoop.onActivated at hsome
      split_ifs at hsome with hfirst hsecond
      · cases hsome
        refine setState_announces hm hleg ?_ trivial fun last _ => ?_
        · have htwo : request.leg = 2 := by rw [hnumbered.leg_eq, ← hredirects, hsecond.2]
          rw [hstate, htwo]
          rfl
        · refine hcontinue _ last ?_
          unfold RedirectLoop.Shows
          rw [if_neg hfirst, if_pos hsecond]
      · cases hsome
        refine setState_announces hm hleg ?_ trivial fun last _ => ?_
        · rw [hstate]
          rfl
        · refine hcontinue _ last ?_
          unfold RedirectLoop.Shows
          rw [if_neg hfirst, if_neg hsecond]
          exact ⟨desktop, s.actor.scale, rfl⟩

theorem onOutputSize_announces {leg : Leg} (hbox : s.mailbox = box)
    (hm : m.state = s.actor.io.state) (hshows : redirects.Shows s.actor.io.state)
    (hredirects : redirects.leg = m.leg) (hpos : 1 ≤ m.leg) (hmax : m.leg ≤ maxLeg)
    (hrank : 2 ≤ rank) :
    Announces box rank (m.leg + 1) m
      (s.continueLeg cfg redirects (Live.onOutputSize ⟨s.actor, leg⟩)) := by
  have hquiet : ∀ run : LegRun Geometry, (⟨s.actor, leg⟩ : Live Geometry).Quiet run →
      Announces box rank (m.leg + 1) m (s.continueLeg cfg redirects run) :=
    fun run hrun => quiet_announces hrun hbox hm hshows hredirects hpos hmax hrank fun _ => rfl
  unfold Live.onOutputSize
  split
  · exact hquiet _ (Live.quiet_done rfl)
  next size _ =>
  simp only
  split
  · next desktop scale hconnected =>
      have hallows : s.actor.io.state.allows (.connected size s.actor.scale) = true := by
        rw [hconnected]
        rfl
      have hresized : redirects.Shows (.connected size s.actor.scale) := by
        unfold RedirectLoop.Shows at hshows ⊢
        split_ifs at hshows ⊢
        · rw [hconnected] at hshows
          cases hshows
        · rw [hconnected] at hshows
          cases hshows
        · exact ⟨size, s.actor.scale, rfl⟩
      by_cases hsame : s.actor.io.state = .connected size s.actor.scale
      · refine hquiet _ ?_
        simp only [Actor.setState, if_pos hsame]
        exact ⟨rfl, by simp⟩
      · simp only [Actor.setState, if_neg hsame, if_pos hallows]
        exact continueLeg_announces hbox ⟨trivial, trivial⟩ rfl rfl hresized hredirects hpos hmax
          hrank fun _ => rfl
  · exact hquiet _ (Live.quiet_done rfl)

theorem shutdown_announces {leg : Leg} {next : Nat} (hbox : s.mailbox = box)
    (hm : m.state = s.actor.io.state) (hshows : redirects.Shows s.actor.io.state)
    (hredirects : redirects.leg = m.leg) (hrank : 1 ≤ rank) :
    Announces box rank next m (s.shutdown leg) := by
  obtain ⟨hholds, hstate, hleg⟩ := holds_of_announces (m := m)
    (Live.write_aloof ⟨s.actor, leg⟩ .shutdownRequest).2
  have hshown : legShown m.leg m.state = m.leg := by
    rw [hm, ← hredirects]
    exact hshows.legShown
  unfold Session.shutdown
  refine sat_prefix hholds ?_
  rw [← hstate] at hm
  rw [← hleg, ← hstate] at hshown
  split
  · exact sat_done (lands_of_isConnecting ⟨hm, hshown, ⟨redirects, hshows⟩, trivial, nofun⟩ hbox
      (fun _ => hrank) rfl)
  · exact exitUserClosed_announces hbox hm hshown (SessionState.isPending_of_isUp hshows.isUp)

theorem shutdownPdu_announces {leg : Leg} {pdu : ServerPdu} {next : Nat} (hbox : s.mailbox = box)
    (hm : m.state = s.actor.io.state) (hshows : ∃ redirects : RedirectLoop,
      redirects.Shows s.actor.io.state)
    (hshown : legShown m.leg m.state = m.leg) (hrank : 1 ≤ rank) :
    Announces box rank next m (s.shutdownPdu leg pdu) := by
  have hpending : s.actor.io.state.isPending = true := by
    obtain ⟨redirects, h⟩ := hshows
    exact SessionState.isPending_of_isUp h.isUp
  have hchannels : ∀ o ∈ (leg.onChannels pdu.channels : Leg × List (Out Geometry)).2,
      o.announces = false := by
    intro o ho
    obtain ⟨frameId, hidden, rfl⟩ := Leg.frameEnded_of_mem_onChannels ho
    rfl
  obtain ⟨hholds, hstate, hleg⟩ := holds_of_announces (m := m) hchannels
  unfold Session.shutdownPdu
  refine sat_prefix hholds ?_
  rw [← hstate] at hm
  rw [← hleg, ← hstate] at hshown
  split
  · exact exitUserClosed_announces hbox hm hshown hpending
  · split
    · exact exitUserClosed_announces hbox hm hshown hpending
    · exact sat_done (lands_of_isConnecting ⟨hm, hshown, hshows, trivial, nofun⟩ hbox
        (fun _ => hrank) rfl)

end Legs

/-! ### Turns -/

section Turns

variable {m : Announced} {s : Session Geometry} {cfg : Config Geometry}

/-- The leg that a redirection in this phase leads to. -/
def Phase.nextLeg (leg : Nat) : Phase Geometry → Nat
  | .active _ _ => leg + 1
  | _ => leg

theorem Session.Shows.lands (h : s.Shows m) :
    Lands s.mailbox s.phase.rank (s.phase.nextLeg m.leg) s m := by
  refine ⟨h, rfl, fun _ => Nat.le_refl _, ?_⟩
  intro redirects request handshake hphase _
  have hnumbered := h.numbered
  rw [hphase] at hnumbered ⊢
  exact hnumbered.2.1.leg_eq

variable (cfg) in
theorem onConnect_announces {redirects : RedirectLoop} {request : LegRequest}
    {handshake : Handshake} (h : s.Shows m)
    (hphase : s.phase = .connecting redirects request handshake) (e : Event Geometry) :
    Announces s.mailbox s.phase.rank m.leg m (s.onConnect cfg redirects request handshake e) := by
  have hstays := h.lands
  obtain ⟨hm, hleg, hstate, hnumbered, _⟩ := h
  rw [hphase] at hstate hnumbered hstays ⊢
  obtain ⟨hredirects, hnumbered, hio⟩ := hnumbered
  have hup : s.actor.io.state.isUp = true := by
    rw [hstate]
    rfl
  have hrank : 2 ≤ (Phase.connecting redirects request handshake : Phase Geometry).rank := by
    cases handshake <;> simp [Phase.rank]
  unfold Session.onConnect
  split
  · refine setState_announces hm hleg ?_ hio fun last _ => ?_
    · rw [hstate, hio, ← hnumbered.leg_eq]
      simp [SessionState.allows, SessionState.validTarget, hnumbered.leg_eq, hnumbered.pos,
        hnumbered.le_max]
    · rw [hio]
      refine sat_done ⟨⟨rfl, rfl, ?_, ⟨hredirects, hnumbered, hio⟩, nofun⟩, rfl, ?_, ?_⟩
      · show SessionState.connecting m.leg .tls = .connecting request.leg .tls
        rw [hnumbered.leg_eq]
      · exact fun _ => Nat.le_succ 5
      · rintro _ _ _ ⟨⟩ _
        exact hnumbered.leg_eq
  · exact checkLeaf_announces rfl hm hstate hredirects hnumbered hio (Nat.le_succ 4) hnumbered.leg_eq
  · exact activate_announces rfl hm hstate hredirects hnumbered hrank
  · exact afterDisconnect_announces rfl hm hleg hup hrank
  · split
    · exact exitUserClosed_announces rfl hm hleg (SessionState.isPending_of_isUp hup)
    · exact sat_done hstays
  · exact sat_done hstays

variable (cfg) in
theorem onLeg_announces {redirects : RedirectLoop} {leg : Leg} (h : s.Shows m)
    (hphase : s.phase = .active redirects leg) (e : Event Geometry) :
    Announces s.mailbox s.phase.rank (m.leg + 1) m (s.onLeg cfg redirects leg e) := by
  have hstays := h.lands
  obtain ⟨hm, hleg, hstate, hnumbered, _⟩ := h
  rw [hphase] at hstate hnumbered hstays ⊢
  obtain ⟨hredirects, hpos, hmax⟩ := hnumbered
  have hquiet : ∀ run : LegRun Geometry, (⟨s.actor, leg⟩ : Live Geometry).Quiet run →
      Announces s.mailbox 2 (m.leg + 1) m (s.continueLeg cfg redirects run) := fun run hrun =>
    quiet_announces hrun rfl hm hstate hredirects hpos hmax (Nat.le_refl 2) fun _ => rfl
  cases e with
  | breakLink writes error =>
      exact sat_done (lands_of_isConnecting ⟨hm, hleg, hstate, ⟨hredirects, hpos, hmax⟩, nofun⟩ rfl
        (fun _ => Nat.le_refl 2) rfl)
  | readFailed error => exact afterDisconnect_announces rfl hm hleg hstate.isUp (Nat.le_refl 2)
  | pdu pdu => exact hquiet _ (Live.onPdu_aloof ..).quiet
  | present index => exact hquiet _ (Live.present_aloof ..).quiet
  | flushAcks => exact hquiet _ (Live.flushAcks_aloof _).quiet
  | outputChanged =>
      exact onOutputSize_announces rfl hm hstate hredirects hpos hmax (Nat.le_refl 2)
  | tick => exact hquiet _ (Live.onTick_quiet ..)
  | _ => exact sat_done hstays

variable [BEq Geometry]

theorem io_remember (a : Actor Geometry) (now : Instant) (cmd : SessionCommand Geometry) :
    (a.remember now cmd).io = a.io := by
  cases cmd <;> rfl

omit [BEq Geometry] in
/-- What is shown depends on the phase and on what is shown of it only. -/
theorem Session.Shows.of_io_eq {s' : Session Geometry} (h : s.Shows m)
    (hio : s'.actor.io = s.actor.io) (hphase : s'.phase = s.phase) : s'.Shows m := by
  obtain ⟨hm, hleg, hstate, hnumbered, hended⟩ := h
  rw [← hio] at hm hstate hnumbered
  rw [← hphase] at hstate hnumbered hended
  exact ⟨hm, hleg, hstate, hnumbered, hended⟩

omit [BEq Geometry] in
theorem Session.Shows.lands_of_io_eq {s' : Session Geometry} (h : s.Shows m)
    (hio : s'.actor.io = s.actor.io) (hphase : s'.phase = s.phase) :
    Lands s'.mailbox s.phase.rank (s.phase.nextLeg m.leg) s' m := by
  have hlands := (h.of_io_eq hio hphase).lands
  rw [hphase] at hlands
  exact hlands

omit [BEq Geometry] in
variable (cfg) in
theorem decideCertificate_announces {redirects : RedirectLoop} {request : LegRequest}
    {leafDer : Bytes} (h : s.Shows m) (hphase : s.phase = .prompting redirects request leafDer)
    (cmd : Option (SessionCommand Geometry)) :
    Announces s.mailbox s.phase.rank m.leg m
      (s.decideCertificate cfg redirects request leafDer cmd) := by
  have hstays := h.lands
  obtain ⟨hm, hleg, hstate, hnumbered, _⟩ := h
  rw [hphase] at hstate hnumbered hstays ⊢
  obtain ⟨hredirects, hnumbered, hio⟩ := hnumbered
  have hup : s.actor.io.state.isUp = true := by
    rw [hstate]
    rfl
  have hends : ∀ reason, Announces s.mailbox 4 m.leg m (s.afterDisconnect cfg reason) :=
    fun reason => afterDisconnect_announces rfl hm hleg hup (by decide)
  unfold Session.decideCertificate
  split
  · exact hends _
  · exact hends _
  · exact hends _
  · next accepted pin =>
      split
      · have hquiet : ∀ o ∈ (if pin then [.event (.certificatePinned accepted)] else [] :
            List (Out Geometry)), o.announces = false := by
          intro o ho
          cases pin with
          | true =>
              obtain rfl := List.mem_singleton.mp ho
              rfl
          | false => cases ho
        obtain ⟨hholds, hstate', hleg'⟩ := holds_of_announces (m := m) hquiet
        refine sat_prefix hholds ?_
        rw [← hstate'] at hm
        rw [← hleg'] at hredirects hnumbered hio
        exact afterCertificate_announces rfl hm hstate hredirects hnumbered hio (Nat.le_succ 3)
          (hnumbered.leg_eq.trans hleg')
      · exact sat_done hstays
  · exact sat_done hstays

/-- The loops receive a command, or learn that there are no more. In the idle loop this must not end the
session. -/
theorem handle_announces (h : s.Shows m) (cmd : Option (SessionCommand Geometry))
    (hidle : s.phase = .idle → cmd ≠ none ∧ cmd ≠ some .close ∧
      (cmd = some .reconnectNow → s.closed = false)) :
    Announces s.mailbox s.phase.rank (s.phase.nextLeg m.leg) m (s.handle cfg cmd) := by
  have hstays := h.lands
  have hremembered : ∀ cmd, Lands s.mailbox s.phase.rank (s.phase.nextLeg m.leg)
      (s.rememberCmd cmd) m := fun cmd =>
    @Session.Shows.lands_of_io_eq _ m s (s.rememberCmd cmd) h (io_remember ..) rfl
  have hkept : ∀ s' : Session Geometry, s'.mailbox = s.mailbox → s'.actor.io = s.actor.io →
      s'.phase = s.phase → Lands s.mailbox s.phase.rank (s.phase.nextLeg m.leg) s' m := by
    intro s' hbox hio hphase
    rw [← hbox]
    exact h.lands_of_io_eq hio hphase
  obtain ⟨hm, hleg, hstate, hnumbered, _⟩ := h
  unfold Session.handle
  split
  · next hphase =>
      rw [hphase] at hstate hstays hremembered ⊢
      have hdials : Announces s.mailbox 2 m.leg m (s.connectLoop cfg) := by
        refine connectLoop_announces rfl hm hleg (fun _ => ?_) ?_
        · rw [hstate]
          rfl
        · rw [hstate]
          rfl
      unfold Session.collectInitialState
      split
      · exact hdials
      · exact hdials
      · next cmd _ => exact sat_done (hremembered cmd)
  · next redirects request leafDer hphase =>
      have hdecided := decideCertificate_announces cfg ⟨hm, hleg, hstate, hnumbered, by
        rw [hphase]
        nofun⟩ hphase cmd
      rw [hphase] at hdecided ⊢
      exact hdecided
  · next redirects leg hphase =>
      rw [hphase] at hstate hnumbered ⊢
      obtain ⟨hredirects, hpos, hmax⟩ := hnumbered
      have hends : Announces s.mailbox 2 (m.leg + 1) m (s.shutdown leg) :=
        shutdown_announces rfl hm hstate hredirects (Nat.le_succ 1)
      unfold Session.receiveActive
      split
      · exact hends
      · exact hends
      · exact quiet_announces (Live.onCommand_quiet ..) rfl hm hstate hredirects hpos hmax
          (Nat.le_refl 2) fun _ => rfl
  · next deadline reason hphase =>
      rw [hphase] at hstate ⊢
      obtain ⟨hreason, attempt, nextIn, hio⟩ := id hstate
      have hpending : s.actor.io.state.isPending = true := by
        rw [hio]
        rfl
      have hdown : s.actor.io.state.isUp = false := by
        rw [hio]
        rfl
      have hexits : Announces s.mailbox 2 m.leg m s.exitUserClosed :=
        exitUserClosed_announces rfl hm hleg hpending
      have hdials : ∀ s' : Session Geometry, s'.mailbox = s.mailbox → s'.actor.io = s.actor.io →
          Announces s.mailbox 2 m.leg m (s'.connectLoop cfg) := by
        intro s' hbox hio'
        exact connectLoop_announces hbox (hio' ▸ hm) hleg (fun _ => hio' ▸ hpending) (hio' ▸ hdown)
      have hwaits : ∀ s' : Session Geometry, s'.mailbox = s.mailbox → s'.actor.io = s.actor.io →
          Announces s.mailbox 2 m.leg m (s'.waitBackoff cfg deadline reason) := by
        intro s' hbox hio'
        exact waitBackoff_announces hbox (hio' ▸ hm) hleg (hio' ▸ hstate) (Nat.le_refl 2)
      unfold Session.receiveBackoff
      split
      · exact hexits
      · exact hexits
      · refine stop_announces rfl hm hleg ?_ hreason (.inl rfl) (Nat.le_refl 2)
        rw [hio]
        rfl
      · split
        · exact hdials _ rfl rfl
        · exact hwaits _ rfl rfl
      · simp only
        split
        · exact hdials _ rfl rfl
        · exact hwaits _ rfl rfl
      · exact hwaits _ rfl (io_remember ..)
  · next hphase =>
      obtain ⟨hnone, hclose, hopen⟩ := hidle hphase
      rw [hphase] at hstate hkept hremembered ⊢
      unfold Session.receiveIdle
      split
      · exact absurd rfl hnone
      · exact absurd rfl hclose
      · refine connectLoop_announces rfl hm hleg (fun hc => ?_) ?_
        · have hc' : s.closed = true := hc
          rw [hopen rfl] at hc'
          cases hc'
        · obtain ⟨reason, _, hio | hio⟩ := hstate
          · rw [hio]
            rfl
          · rw [hio]
            rfl
      · exact sat_done (hkept _ rfl rfl hphase)
      · exact sat_done (hremembered _)
  · exact sat_done hstays
  · exact sat_done hstays
  · exact sat_done hstays

def Session.mailboxAfter (s : Session Geometry) (e : Event Geometry) : Mailbox Geometry :=
  match e with
  | .receive =>
    match s.phase.loop, s.next with
    | some _, some (s, _) => s.mailbox
    | _, _ => s.mailbox
  | e => (s.onApp e).mailbox

omit [BEq Geometry] in
theorem next_eq_some {s' : Session Geometry} {cmd : Option (SessionCommand Geometry)}
    (h : s.next = some (s', cmd)) :
    s' = { s with cmds := s.cmds.tail } ∧ cmd = s.cmds.head? ∧ (cmd = none → s.handles = false) := by
  unfold Session.next at h
  split at h
  · next hcmds =>
      cases h
      rw [hcmds]
      exact ⟨rfl, rfl, nofun⟩
  · next hcmds =>
      split_ifs at h with hhandles
      cases h
      refine ⟨?_, by rw [hcmds]; rfl, fun _ => by simpa using hhandles⟩
      rw [hcmds, List.tail_nil, ← hcmds]

variable (cfg) in
/-- **One turn.** Unless it ends the session out of a settled state, a turn shows the states it goes
through, and leaves the session in a phase whose state is shown. -/
theorem turn_announces (h : s.Shows m) (e : Event Geometry) (hsettled : s.endsSettled e = false) :
    Announces (s.mailboxAfter e) s.phase.rank (s.phase.nextLeg m.leg) m (s.turn cfg e) := by
  have hstays := h.lands
  have hphases : ∀ e : Event Geometry, (s.onApp e).mailbox = s.mailbox →
      Announces (s.onApp e).mailbox s.phase.rank (s.phase.nextLeg m.leg) m (s.onPhase cfg e) := by
    intro e hbox
    rw [hbox]
    unfold Session.onPhase
    split
    · next hphase =>
        obtain ⟨hm, hleg, hstate, _, _⟩ := h
        rw [hphase] at hstate ⊢
        refine connectLoop_announces rfl hm hleg (fun _ => ?_) ?_
        · rw [hstate]
          rfl
        · rw [hstate]
          rfl
    · next redirects request handshake hphase =>
        have hconnects := onConnect_announces cfg h hphase
        rw [hphase] at hconnects ⊢
        exact hconnects _
    · next hphase =>
        obtain ⟨hm, hleg, hstate, _, _⟩ := h
        rw [hphase] at hstate
        split
        · refine exitUserClosed_announces rfl hm hleg ?_
          rw [hstate]
          rfl
        · exact sat_done hstays
    · next redirects leg hphase =>
        have hlive := onLeg_announces cfg h hphase
        rw [hphase] at hlive ⊢
        exact hlive _
    · next hphase =>
        obtain ⟨hm, hleg, hstate, _, _⟩ := h
        rw [hphase] at hstate ⊢
        exact shutdownPdu_announces rfl hm hstate hleg (Nat.le_refl 1)
    · next hphase =>
        obtain ⟨hm, hleg, hstate, _, _⟩ := h
        rw [hphase] at hstate
        obtain ⟨redirects, hstate⟩ := hstate
        exact exitUserClosed_announces rfl hm hleg (SessionState.isPending_of_isUp hstate.isUp)
    · next hphase =>
        obtain ⟨hm, hleg, hstate, _, _⟩ := h
        rw [hphase] at hstate ⊢
        exact waitBackoff_announces rfl hm hleg hstate (Nat.le_refl 2)
    · exact sat_done hstays
  cases e with
  | send cmd =>
      simp only [Session.turn, Session.onApp, Session.mailboxAfter]
      split
      · exact sat_done (h.lands_of_io_eq rfl rfl)
      · exact sat_done hstays
  | dropHandles => exact sat_done (h.lands_of_io_eq rfl rfl)
  | elapse time => exact sat_done (h.lands_of_io_eq rfl rfl)
  | receive =>
      simp only [Session.turn, Session.receive, Session.mailboxAfter]
      cases hloop : s.phase.loop with
      | none => exact sat_done hstays
      | some loop =>
          cases hnext : s.next with
          | none => exact sat_done hstays
          | some taken =>
              obtain ⟨s', cmd⟩ := taken
              obtain ⟨rfl, hcmd, hnone⟩ := next_eq_some hnext
              have htaken : Session.Shows { s with cmds := s.cmds.tail } m := h.of_io_eq rfl rfl
              refine sat_prefix ⟨trivial, holds_nil ..⟩ ?_
              refine handle_announces htaken cmd fun hidle => ?_
              simp only at hidle
              unfold Session.endsSettled at hsettled
              rw [hidle] at hsettled
              cases hcmds : s.cmds with
              | nil =>
                  rw [hcmds] at hsettled hcmd
                  have hhandles := hnone hcmd
                  simp [hhandles] at hsettled
              | cons first rest =>
                  rw [hcmds] at hsettled hcmd
                  subst hcmd
                  refine ⟨fun heq => (by cases heq), ?_, ?_⟩
                  · intro hclose
                    cases hclose
                    cases hsettled
                  · intro hreconnect
                    cases hreconnect
                    exact hsettled
  | _ => exact hphases _ rfl

omit [BEq Geometry] in
variable (cfg) in
theorem connectLoop_settled (hclosed : s.closed = true)
    (hne : s.actor.io.state ≠ .disconnected .userClosed)
    (hrejected : s.actor.io.state.allows (.disconnected .userClosed) = false) :
    (s.connectLoop cfg).state.phase = .exited ∧ (s.connectLoop cfg).state.closed = s.closed ∧
      (s.connectLoop cfg).state.actor.io.state = s.actor.io.state ∧
      (s.connectLoop cfg).outs = [.rejected (.disconnected .userClosed)] := by
  have hio := io_requestDesktop cfg.platform s.actor
  simp [Session.connectLoop, Session.connectOne, hclosed, Session.exitUserClosed, Session.setState,
    Actor.setState, hio, hne, hrejected, Session.enter, Outcome.done]

variable (cfg) in
/-- A turn that ends the session out of a settled state shows nothing. -/
theorem turn_endsSettled (h : s.Shows m) {e : Event Geometry} (hsettled : s.endsSettled e = true) :
    (s.turn cfg e).state.phase = .exited ∧ (s.turn cfg e).state.closed = s.closed ∧
      (s.turn cfg e).state.actor.io.state = s.actor.io.state ∧
      ∀ o ∈ (s.turn cfg e).outs, (∃ loop cmd, o = .received loop cmd) ∨
        o = .rejected (.disconnected .userClosed) ∧ s.closed = true := by
  unfold Session.endsSettled at hsettled
  split at hsettled
  · split at hsettled
    · next rest hphase hcmds =>
        simp only [Session.turn, Session.receive, Session.next, hphase, Phase.loop, hcmds]
        refine ⟨rfl, rfl, rfl, ?_⟩
        intro o ho
        obtain rfl := List.mem_singleton.mp ho
        exact .inl ⟨_, _, rfl⟩
    · next rest hphase hcmds =>
        have hstate := h.phase
        rw [hphase] at hstate
        obtain ⟨reason, hreason, hio⟩ := hstate
        have hrejected : s.actor.io.state ≠ .disconnected .userClosed ∧
            s.actor.io.state.allows (.disconnected .userClosed) = false := by
          rcases hio with hio | hio
          · rw [hio]
            exact ⟨fun heq => hreason (SessionState.disconnected.inj heq), rfl⟩
          · rw [hio]
            exact ⟨nofun, rfl⟩
        obtain ⟨hexited, hclosed, hsame, houts⟩ := connectLoop_settled cfg
          (s := { s with
            cmds := rest
            actor := { s.actor with
              policy := s.actor.policy.reset.setNetworkReachable true } }) hsettled hrejected.1
          hrejected.2
        simp only [Session.turn, Session.receive, Session.next, hphase, Phase.loop, hcmds]
        refine ⟨hexited, hclosed, hsame, ?_⟩
        intro o ho
        rcases List.mem_cons.mp ho with rfl | ho
        · exact .inl ⟨_, _, rfl⟩
        · have hmem : o ∈ ([.rejected (.disconnected .userClosed)] : List (Out Geometry)) := by
            rw [← houts]
            exact ho
          exact .inr ⟨List.mem_singleton.mp hmem, hsettled⟩
    · next hphase hcmds =>
        have hhandles : s.handles = false := by simpa using hsettled
        simp only [Session.turn, Session.receive, Session.next, hphase, Phase.loop, hcmds, hhandles,
          Bool.false_eq_true, if_false, output, andThen_none, Session.handle, Session.receiveIdle]
        refine ⟨rfl, rfl, rfl, ?_⟩
        intro o ho
        obtain rfl := List.mem_singleton.mp ho
        exact .inl ⟨_, _, rfl⟩
    · cases hsettled
  · cases hsettled

variable (cfg) in
theorem turn_exited (hphase : s.phase = .exited) (e : Event Geometry) :
    (s.turn cfg e).outs = [] ∧ (s.turn cfg e).state.phase = .exited ∧
      (s.turn cfg e).state.actor = s.actor := by
  cases e with
  | send cmd =>
      simp only [Session.turn, Session.onApp]
      split
      · exact ⟨rfl, hphase, rfl⟩
      · exact ⟨rfl, hphase, rfl⟩
  | receive =>
      simp only [Session.turn, Session.receive, hphase, Phase.loop]
      exact ⟨rfl, hphase, rfl⟩
  | dropHandles => exact ⟨rfl, hphase, rfl⟩
  | elapse time => exact ⟨rfl, hphase, rfl⟩
  | _ =>
      simp only [Session.turn, Session.onPhase, hphase]
      exact ⟨rfl, hphase, rfl⟩

end Turns

/-! ### Runs -/

section Runs

variable [BEq Geometry] {m : Announced} {s : Session Geometry}

namespace Announced

/-- The session shows its states, up to the end of the actor. -/
def Tracks (s : Session Geometry) (m : Announced) : Prop :=
  s.Shows m ∨ s.phase = .exited ∧ m.state = s.actor.io.state

omit [BEq Geometry] in
theorem tracks_start (cfg : Config Geometry) : Tracks (Session.new cfg) .start :=
  .inl ⟨rfl, rfl, rfl, trivial, nofun⟩

omit [BEq Geometry] in
theorem Accepts.allows (t : SessionStep Geometry) (m : Announced) (o : Out Geometry)
    (h : m.Accepts o) : m.Allows t o := by
  cases o with
  | event event => cases event <;> exact h
  | rejected next => exact h.elim
  | _ => exact h

theorem step_observed (cfg : Config Geometry) (h : Tracks s m) (e : Event Geometry) :
    let t : SessionStep Geometry := ⟨s, e, (s.step cfg e).2, (s.step cfg e).1⟩
    Observed m t ∧ Tracks t.after (m.watch t) := by
  intro t
  rcases h with h | ⟨hphase, hm⟩
  · cases hsettled : s.endsSettled e with
    | false =>
        obtain ⟨hholds, hlands⟩ := turn_announces cfg h e hsettled
        have hcounted : ∀ redirects request handshake,
            t.after.phase = .connecting redirects request handshake →
              request.Numbered (m.watch t).leg := by
          intro redirects request handshake hafter
          have hnumbered := hlands.shows_.numbered
          have hafter' : (s.turn cfg e).state.phase = _ := hafter
          rw [hafter'] at hnumbered
          exact hnumbered.2.1
        refine ⟨⟨hholds.mono (Accepts.allows t), hlands.shows_.state, hlands.shows_.phase, ?_, ?_⟩,
          .inl hlands.shows_⟩
        · intro hredirects
          unfold redirects at hredirects
          split at hredirects
          · next next request handshake hbefore hafter =>
              have hleg := hlands.redirected _ _ _ hafter (by simpa using hredirects)
              have hphase : s.phase.nextLeg m.leg = m.leg + 1 := by
                have hbefore' : s.phase = _ := hbefore
                rw [hbefore']
                rfl
              rw [← hphase, ← hleg]
              exact (hcounted _ _ _ hafter).leg_eq.symm
          · cases hredirects
        · intro redirects request handshake hafter
          have hnumbered := hcounted _ _ _ hafter
          refine ⟨hnumbered.leg_eq, ?_⟩
          rw [hnumbered.leg_eq]
          exact hnumbered.first
    | true =>
        obtain ⟨hexited, hclosed, hio, houts⟩ := turn_endsSettled cfg h hsettled
        have hkept : ∀ o ∈ t.outs, m.Allows t o ∧ m.hear o = m := by
          intro o ho
          rcases houts o ho with ⟨loop, cmd, rfl⟩ | ⟨rfl, hc⟩
          · exact ⟨trivial, rfl⟩
          · exact ⟨⟨rfl, hclosed.trans hc, hexited⟩, rfl⟩
        obtain ⟨hholds, hsame⟩ := holds_of_forall hkept
        have hstate : (m.watch t).state = t.after.actor.io.state := by
          rw [watch, hsame, h.state]
          exact hio.symm
        refine ⟨⟨hholds, hstate, ?_, ?_, ?_⟩, .inr ⟨hexited, hstate⟩⟩
        · have hafter : t.after.phase = .exited := hexited
          rw [hafter]
          trivial
        · intro hredirects
          have hafter : t.after.phase = .exited := hexited
          unfold redirects at hredirects
          rw [hafter] at hredirects
          split at hredirects
          · next heq => cases heq
          · cases hredirects
        · intro redirects request handshake hconnecting
          have hafter : t.after.phase = .exited := hexited
          rw [hafter] at hconnecting
          cases hconnecting
  · obtain ⟨houts, hexited, hactor⟩ := turn_exited cfg hphase e
    have houts' : t.outs = [] := houts
    have hstate : (m.watch t).state = t.after.actor.io.state := by
      rw [watch, houts', List.foldl_nil, hm]
      exact congrArg (fun a : Actor Geometry => a.io.state) hactor.symm
    have hafter : t.after.phase = .exited := hexited
    refine ⟨⟨by rw [houts']; trivial, hstate, by rw [hafter]; trivial, ?_, ?_⟩,
      .inr ⟨hexited, hstate⟩⟩
    · intro hredirects
      have hbefore : t.before.phase = .exited := hphase
      unfold redirects at hredirects
      rw [hbefore] at hredirects
      cases hredirects
    · intro redirects request handshake hconnecting
      rw [hafter] at hconnecting
      cases hconnecting

/-- **States.** In every run of a session no change of its state is rejected before the one that ends
it; the app is shown the state of the actor, which is the one of its phase; and the legs count the
redirections, up to the last one allowed. -/
theorem announced_steps (cfg : Config Geometry) (es : List (Event Geometry)) :
    Holds watch Observed .start (Session.steps cfg es) := by
  refine (run_holds Tracks ?_ (tracks_start cfg)
    (along_of_forall (P := fun _ _ _ => True) (fun _ _ _ => trivial) _ _ es)).1
  intro s m e h _
  obtain ⟨hobserved, hnext⟩ := step_observed cfg h e
  exact ⟨⟨hobserved, trivial⟩, hnext⟩

end Announced

end Runs

end Drift.Rdp
