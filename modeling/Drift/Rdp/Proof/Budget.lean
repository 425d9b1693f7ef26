import Drift.Rdp.Proof.Turned
import Drift.Rdp.Record

/-!
# How many attempts are made

An attempt is charged when the connection drops with the network up, and made when its backoff is over.
A backoff that was entered with the network down was not charged for.
-/

namespace Drift.Rdp

open Transition

variable {Geometry : Type} {cfg : Config Geometry} {m : Budget}

namespace Budget

/-! ### The steps by their stages -/

def startsAt : Stage → Bool
  | .connecting request .negotiating => request.role = .server
  | _ => false

def dialsTo (before : Stage) (e : Event Geometry) (after : Stage) : Bool :=
  match before, e with
  | .connecting _ .negotiating, .connectFailed _ => startsAt after
  | .connecting _ .negotiating, _ => false
  | _, _ => startsAt after

def isStart : Stage → Bool
  | .startUp => true
  | _ => false

def isWaiting : Stage → Bool
  | .backoff _ => true
  | _ => false

def losesTo (before : Stage) (e : Event Geometry) (after : Stage) : Bool :=
  match before with
  | .connecting _ _ | .prompting _ _ | .active =>
    match after with
    | .backoff _ | .idle => true
    | _ => dialsTo before e after
  | _ => false

theorem startsAt_stage (phase : Phase Geometry) : startsAt phase.stage = startsFirst phase := by
  cases phase with
  | connecting redirects request handshake => cases handshake <;> rfl
  | _ => rfl

theorem dials_eq (t : SessionStep Geometry) :
    dials t = dialsTo t.before.phase.stage t.input t.after.phase.stage := by
  unfold dials dialsTo
  rw [startsAt_stage]
  cases t.before.phase with
  | connecting redirects request handshake =>
      cases handshake with
      | negotiating => cases t.input <;> rfl
      | _ => rfl
  | _ => rfl

theorem loses_eq (t : SessionStep Geometry) :
    loses t = losesTo t.before.phase.stage t.input t.after.phase.stage := by
  unfold loses losesTo
  rw [← dials_eq]
  cases t.before.phase <;> cases t.after.phase <;> rfl

/-- The account after a step, from its stages and milestones. -/
def settle (stableAfter : Duration) (m : Budget) (now : Instant) (before : Stage)
    (e : Event Geometry) (ms : List (Out Geometry)) (after : Stage) (reachable : Bool) : Budget :=
  let upSince := if ms.any isActivation then some now else m.upSince
  let stable := upSince.any fun since => stableAfter ≤ now - since
  let resets := ms.any isUserReset
  let made := if resets || losesTo before e after && stable then 0 else m.made
  let reconnects := dialsTo before e after && !isStart before && !ms.any isReconnectNow
  { made := if reconnects then made + 1 else made
    upSince := if resets || losesTo before e after then none else upSince
    offline := if isWaiting before then m.offline else !reachable }

theorem any_filter_isMilestone (kind : Out Geometry → Bool)
    (h : ∀ o, kind o = true → o.isMilestone = true) (os : List (Out Geometry)) :
    (os.filter Out.isMilestone).any kind = os.any kind := by
  rw [List.any_filter]
  congr
  funext o
  cases hkind : kind o with
  | false => simp
  | true => simp [h o hkind]

theorem watch_eq (stableAfter : Duration) (m : Budget) (t : SessionStep Geometry) :
    m.watch stableAfter t =
      settle stableAfter m t.before.now t.before.phase.stage t.input
        (t.outs.filter Out.isMilestone) t.after.phase.stage
        t.after.actor.base.policy.networkReachable := by
  have hactivation := any_filter_isMilestone isActivation
    (fun o ho => by cases o <;> first | rfl | cases ho) t.outs
  have hreset := any_filter_isMilestone isUserReset
    (fun o ho => by cases o <;> first | rfl | cases ho) t.outs
  have hnow := any_filter_isMilestone isReconnectNow
    (fun o ho => by cases o <;> first | rfl | cases ho) t.outs
  have hstart : isStart t.before.phase.stage = isStartUp t.before.phase := by
    cases t.before.phase <;> rfl
  have hwaiting : isWaiting t.before.phase.stage = isBackoff t.before.phase := by
    cases t.before.phase <;> rfl
  simp only [watch, settle, hactivation, hreset, hnow, hstart, hwaiting, ← loses_eq, ← dials_eq,
    reconnects]
  rfl

/-! ### The account -/

/-- What the policy knows of the budget. -/
structure Account (cfg : Config Geometry) (limit : Nat) (b : Base) (m : Budget) : Prop where
  config : b.policy.config = cfg.options.reconnect
  upSince : m.upSince = b.policy.connectedSince
  never : b.activations = 0 → m.upSince = none
  attempts : b.policy.attempts ≤ limit

/-- Attempts that were made were charged for, and one that is waited for is charged as well unless the
backoff was entered with the network down. -/
def Owed (b : Base) (m : Budget) : Stage → Prop
  | .backoff deadline =>
    if m.offline then deadline = none ∧ m.made ≤ b.policy.attempts else m.made < b.policy.attempts
  | _ => m.made ≤ b.policy.attempts

structure Paid (cfg : Config Geometry) (limit : Nat) (b : Base) (m : Budget) (stage : Stage) :
    Prop where
  made : m.made ≤ limit
  rest : stage = .over ∨ Account cfg limit b m ∧ Owed b m stage

theorem Account.paid {limit : Nat} {b : Base} {stage : Stage} (h : Account cfg limit b m)
    (hmade : m.made ≤ b.policy.attempts) (howed : Owed b m stage) : Paid cfg limit b m stage :=
  ⟨hmade.trans h.attempts, .inr ⟨h, howed⟩⟩

theorem Owed.made_le {b : Base} {stage : Stage} (h : Owed b m stage) :
    m.made ≤ b.policy.attempts := by
  cases stage with
  | backoff deadline =>
      simp only [Owed] at h
      split at h
      · exact h.2
      · exact h.le
  | _ => exact h

theorem paid_over {limit now : Nat} {stableAfter : Duration} {b : Base} {before : Stage}
    {e : Event Geometry} {ms : List (Out Geometry)} {reachable : Bool} (hmade : m.made ≤ limit) :
    Paid cfg limit b (settle stableAfter m now before e ms .over reachable) .over := by
  refine ⟨?_, .inl rfl⟩
  have hdials : dialsTo before e .over = false := by
    unfold dialsTo
    split <;> rfl
  simp only [settle, hdials, Bool.false_and, Bool.false_eq_true, if_false]
  have hle : ∀ resets : Bool, (if resets then 0 else m.made) ≤ limit := by
    intro resets
    split_ifs
    · exact Nat.zero_le _
    · exact hmade
  exact hle _

/-! ### Ends of connections -/

/-- The connection, or the attempt to make one, is ending. -/
def Leaving (before : Stage) (e : Event Geometry) : Prop :=
  (∃ request handshake, before = .connecting request handshake ∧
      (handshake = .negotiating → ∃ failure, e = .connectFailed failure)) ∨
    (∃ request leafDer, before = .prompting request leafDer) ∨ before = .active

theorem Leaving.dialsTo_eq {before : Stage} {e : Event Geometry} (h : Leaving before e)
    (after : Stage) : dialsTo before e after = startsAt after := by
  rcases h with ⟨request, handshake, rfl, hfailed⟩ | ⟨request, leafDer, rfl⟩ | rfl
  · cases handshake with
    | negotiating =>
        obtain ⟨failure, rfl⟩ := hfailed rfl
        rfl
    | _ => rfl
  · rfl
  · rfl

theorem Leaving.losesTo_eq {before : Stage} {e : Event Geometry} (h : Leaving before e)
    (after : Stage) : losesTo before e after =
      match after with
      | .backoff _ | .idle => true
      | _ => startsAt after := by
  have hdials := h.dialsTo_eq after
  unfold losesTo
  rcases h with ⟨request, handshake, rfl, hfailed⟩ | ⟨request, leafDer, rfl⟩ | rfl <;>
    simp only [hdials]

theorem Leaving.not_isStart {before : Stage} {e : Event Geometry} (h : Leaving before e) :
    isStart before = false ∧ isWaiting before = false := by
  rcases h with ⟨request, handshake, rfl, hfailed⟩ | ⟨request, leafDer, rfl⟩ | rfl <;>
    exact ⟨rfl, rfl⟩

/-- What is left of the account when a connection ends. -/
def kept (stableAfter : Duration) (m : Budget) (now : Instant) (ms : List (Out Geometry)) : Nat :=
  let upSince := if ms.any isActivation then some now else m.upSince
  if upSince.any fun since => stableAfter ≤ now - since then 0 else m.made

theorem Leaving.settle_eq {before after : Stage} {e : Event Geometry} (h : Leaving before e)
    {ms : List (Out Geometry)} (hreset : ms.any isUserReset = false) (stableAfter : Duration)
    (now : Instant) (reachable : Bool) (hafter : after = .idle ∨ ∃ deadline, after = .backoff deadline) :
    settle stableAfter m now before e ms after reachable =
      ⟨kept stableAfter m now ms, none, !reachable⟩ := by
  have hloses := h.losesTo_eq after
  have hdials := h.dialsTo_eq after
  obtain ⟨-, hwaiting⟩ := h.not_isStart
  rcases hafter with rfl | ⟨deadline, rfl⟩ <;>
    simp [settle, kept, hloses, hdials, hreset, hwaiting, startsAt]

theorem Leaving.settle_dialed {before : Stage} {e : Event Geometry} (h : Leaving before e)
    {ms : List (Out Geometry)} (hreset : ms.any isUserReset = false) (stableAfter : Duration)
    (now : Instant) (reachable : Bool) {request : LegRequest} (hrole : request.role = .server) :
    settle stableAfter m now before e ms (.connecting request .negotiating) reachable =
      ⟨if ms.any isReconnectNow then kept stableAfter m now ms else kept stableAfter m now ms + 1,
        none, !reachable⟩ := by
  have hloses := h.losesTo_eq (.connecting request .negotiating)
  have hdials := h.dialsTo_eq (.connecting request .negotiating)
  obtain ⟨hstart, hwaiting⟩ := h.not_isStart
  cases hnow : ms.any isReconnectNow <;>
    simp [settle, kept, hloses, hdials, hreset, hwaiting, hstart, hnow, startsAt, hrole]

theorem paid_ended {limit : Nat} {b : Base} {x : Stage × Base} {now : Instant} {before : Stage}
    {e : Event Geometry} {ms : List (Out Geometry)}
    (hlimit : cfg.options.reconnect.maxAttempts = some limit) (hbound : limit ≤ u32Max)
    (hx : Ended cfg now b x) (hleaving : Leaving before e) (hreset : ms.any isUserReset = false)
    (h : Account cfg limit b { m with upSince := if ms.any isActivation then some now else m.upSince })
    (hmade : m.made ≤ b.policy.attempts) :
    Paid cfg limit x.2
      (settle cfg.options.reconnect.stableAfter m now before e ms x.1 x.2.policy.networkReachable)
      x.1 := by
  obtain ⟨hconfig, hsince, hnever, hattempts⟩ := h
  simp only at hsince hnever
  have hcount : kept cfg.options.reconnect.stableAfter m now ms ≤ b.policy.countAt now := by
    rw [kept, ReconnectPolicy.countAt, hconfig, hsince]
    split_ifs
    · exact le_refl _
    · exact hmade
  have hcountAt : b.policy.countAt now ≤ limit := by
    unfold ReconnectPolicy.countAt
    split_ifs
    · exact Nat.zero_le _
    · exact hattempts
  -- After a drop the policy has no connection, and the watcher none either.
  have hdropped : ∀ reason made offline, (b.dropped reason now).policy.attempts ≤ limit →
      Account cfg limit (b.dropped reason now) ⟨made, none, offline⟩ := by
    intro reason made offline hle
    obtain ⟨hframe, -⟩ := b.policy.onDisconnect_spec reason now
    refine ⟨?_, ?_, fun _ => rfl, hle⟩
    · rw [Base.dropped, hframe]
      exact hconfig
    · rw [Base.dropped, hframe]
  -- An attempt to come is charged.
  have hretry : ∀ reason attempt delay,
      (b.policy.onDisconnect reason now).2 = .retry attempt delay →
        (b.dropped reason now).policy.networkReachable = true ∧
          (b.dropped reason now).policy.attempts = b.policy.countAt now + 1 ∧
            b.policy.countAt now < limit := by
    intro reason attempt delay hdecision
    obtain ⟨hframe, hspec⟩ := b.policy.onDisconnect_spec reason now
    rw [hdecision] at hspec
    obtain ⟨hreachable, hsucc, hbelow⟩ := hspec
    rw [hconfig] at hbelow
    have hlt := hbelow limit hlimit
    refine ⟨?_, ?_, hlt⟩
    · rw [Base.dropped, hframe]
      exact hreachable
    · rw [Base.dropped, hsucc, ReconnectPolicy.saturatingSucc]
      omega
  cases hx with
  | closed => exact paid_over (hmade.trans hattempts)
  | never h =>
      rw [hleaving.settle_eq hreset _ _ _ (.inl rfl)]
      have hkept : kept cfg.options.reconnect.stableAfter m now ms ≤ b.policy.attempts := by
        rw [kept, hnever h]
        exact hmade
      have hdown : b.policy.connectedSince = none := hsince.symm.trans (hnever h)
      exact Account.paid ⟨hconfig, hdown.symm, fun _ => rfl, hattempts⟩ hkept hkept
  | gaveUp reason why h hdecision =>
      rw [hleaving.settle_eq hreset _ _ _ (.inl rfl)]
      obtain ⟨-, hspec⟩ := b.policy.onDisconnect_spec reason now
      rw [hdecision] at hspec
      have hspent : (b.dropped reason now).policy.attempts = b.policy.countAt now := hspec
      rw [← hspent] at hcount hcountAt
      exact Account.paid (hdropped reason _ _ hcountAt) hcount hcount
  | waits reason attempt delay h hdecision =>
      rw [hleaving.settle_eq hreset _ _ _ (.inr ⟨_, rfl⟩)]
      obtain ⟨hreachable, hcharged, hlt⟩ := hretry reason attempt delay hdecision
      have howed : kept cfg.options.reconnect.stableAfter m now ms <
          (b.dropped reason now).policy.attempts := by omega
      refine Account.paid (hdropped reason _ _ (by omega)) howed.le ?_
      simpa [Owed, hreachable] using howed
  | offline reason attempt h hdecision =>
      rw [hleaving.settle_eq hreset _ _ _ (.inr ⟨_, rfl⟩)]
      obtain ⟨hframe, hspec⟩ := b.policy.onDisconnect_spec reason now
      rw [hdecision] at hspec
      obtain ⟨hdown, hspec⟩ := hspec
      have hspent : (b.dropped reason now).policy.attempts = b.policy.countAt now := hspec
      have hunreachable : (b.dropped reason now).policy.networkReachable = false := by
        rw [Base.dropped, hframe]
        exact hdown
      rw [← hspent] at hcount hcountAt
      refine Account.paid (hdropped reason _ _ hcountAt) hcount ?_
      simpa [Owed, hunreachable] using hcount
  | retries reason attempt delay x h hdecision hx =>
      obtain ⟨hreachable, hcharged, hlt⟩ := hretry reason attempt delay hdecision
      cases hx with
      | closed => exact paid_over (hmade.trans hattempts)
      | first desktop scale =>
          rw [hleaving.settle_dialed hreset _ _ _ rfl]
          have hpaid : (if ms.any isReconnectNow then kept cfg.options.reconnect.stableAfter m now ms
              else kept cfg.options.reconnect.stableAfter m now ms + 1) ≤
                (b.dropped reason now).policy.attempts := by
            split_ifs <;> omega
          exact Account.paid (hdropped reason _ _ (by omega)) hpaid hpaid

/-! ### Turns -/

theorem settle_moves {before after : Stage} {e : Event Geometry} {ms : List (Out Geometry)}
    (hloses : losesTo before e after = false) (hdials : dialsTo before e after = false)
    (hreset : ms.any isUserReset = false) (stableAfter : Duration) (now : Instant)
    (reachable : Bool) :
    settle stableAfter m now before e ms after reachable =
      { made := m.made
        upSince := if ms.any isActivation then some now else m.upSince
        offline := if isWaiting before then m.offline else !reachable } := by
  simp [settle, hloses, hdials, hreset]

theorem moves_same {stage : Stage} {e : Event Geometry} (hquiet : stage.decides e = false) :
    losesTo stage e stage = false ∧ dialsTo stage e stage = false := by
  have hdials : dialsTo stage e stage = false := by
    cases stage with
    | connecting request handshake =>
        cases handshake with
        | negotiating => cases e <;> first | rfl | cases hquiet
        | _ => rfl
    | _ => rfl
  refine ⟨?_, hdials⟩
  unfold losesTo
  cases stage <;> first | rfl | exact hdials

theorem decides_receive (stage : Stage) : stage.decides (.receive : Event Geometry) = false := by
  cases stage <;> rfl

theorem any_eq_false {kind accepts : Out Geometry → Bool} {ms : List (Out Geometry)}
    (h : ∀ o, accepts o = true → kind o = false) (hms : ∀ o ∈ ms, accepts o = true) :
    ms.any kind = false := by
  rw [List.any_eq_false]
  intro o ho
  simp [h o (hms o ho)]

theorem plain_spec {o : Out Geometry} (h : isPlainCommand o = true) :
    isActivation o = false ∧ isUserReset o = false := by
  cases o with
  | received loop cmd =>
      refine ⟨rfl, ?_⟩
      cases cmd with
      | none => cases loop <;> rfl
      | some cmd => simpa [isPlainCommand] using h
  | _ => cases h

theorem closing_spec {o : Out Geometry} (h : isClosing o = true) :
    isActivation o = false ∧ isUserReset o = false := by
  cases o with
  | received loop cmd =>
      refine ⟨rfl, ?_⟩
      rcases cmd with _ | cmd
      · cases loop <;> rfl
      · cases cmd with
        | close => cases loop <;> rfl
        | _ => cases h
  | _ => cases h

/-- A first leg is dialed after a backoff in which an attempt was charged, or because the user asked. -/
theorem paid_dialed {limit : Nat} {b : Base} {x : Stage × Base} {now : Instant}
    {deadline : Option Instant} {e : Event Geometry} {reachable : Bool} (ms : List (Out Geometry))
    (hx : Dialed cfg b x) (hactivation : ms.any isActivation = false)
    (hreset : ms.any isUserReset = false) (h : Account cfg limit b m)
    (hmade : (if ms.any isReconnectNow then m.made else m.made + 1) ≤ b.policy.attempts)
    (stableAfter : Duration) :
    Paid cfg limit x.2 (settle stableAfter m now (.backoff deadline) e ms x.1 reachable) x.1 := by
  cases hx with
  | closed =>
      refine paid_over (le_trans ?_ (hmade.trans h.attempts))
      split_ifs <;> omega
  | first desktop scale =>
      have hsettle : settle stableAfter m now (.backoff deadline) e ms
          (.connecting (cfg.firstLeg desktop scale) .negotiating) reachable =
            { m with made := if ms.any isReconnectNow then m.made else m.made + 1 } := by
        cases hnow : ms.any isReconnectNow <;>
          simp [settle, losesTo, dialsTo, startsAt, isStart, isWaiting, hreset, hactivation, hnow,
            Config.firstLeg]
      rw [hsettle]
      exact Account.paid ⟨h.config, h.upSince, h.never, h.attempts⟩ hmade hmade

theorem Account.turned {limit : Nat} {s : Session Geometry} {e : Event Geometry}
    {ms : List (Out Geometry)} {stage : Stage} {b : Base}
    (hlimit : cfg.options.reconnect.maxAttempts = some limit) (hbound : limit ≤ u32Max)
    (h : Account cfg limit s.actor.base m) (howed : Owed s.actor.base m s.phase.stage)
    (hwakes : wakesOffline s m e = false) (hturned : Turned cfg s e ms stage b) :
    Paid cfg limit b
      (settle cfg.options.reconnect.stableAfter m s.now s.phase.stage e ms stage
        b.policy.networkReachable) stage := by
  have hmade := howed.made_le
  have hwith : ∀ offline, Account cfg limit s.actor.base { m with offline := offline } :=
    fun _ => ⟨h.config, h.upSince, h.never, h.attempts⟩
  cases hturned with
  | quiet hquiet =>
      obtain ⟨hloses, hdials⟩ := moves_same hquiet
      rw [settle_moves hloses hdials rfl]
      refine Account.paid (hwith _) hmade ?_
      cases hstage : s.phase.stage <;> rw [hstage] at howed <;> exact howed
  | secures request hstage =>
      rw [hstage, settle_moves (by cases e <;> rfl) (by cases e <;> rfl) rfl]
      exact Account.paid (hwith _) hmade hmade
  | hears o policy he ho hpolicy =>
      subst he
      obtain ⟨hloses, hdials⟩ := moves_same (decides_receive s.phase.stage)
      obtain ⟨hactivation, hreset⟩ := plain_spec ho
      have hpolicy' : policy.config = s.actor.policy.config ∧
          policy.connectedSince = s.actor.policy.connectedSince ∧
            policy.attempts = s.actor.policy.attempts := by
        rcases hpolicy with rfl | ⟨reachable, rfl⟩ <;> exact ⟨rfl, rfl, rfl⟩
      obtain ⟨hconfig, hsince, hattempts⟩ := hpolicy'
      have hmade' : m.made ≤ policy.attempts := by
        rw [hattempts]
        exact hmade
      rw [settle_moves hloses hdials (by simp [hreset])]
      refine Account.paid ⟨hconfig.trans h.config, ?_, ?_, ?_⟩ hmade' ?_
      · have hup : m.upSince = policy.connectedSince := h.upSince.trans hsince.symm
        simpa [hactivation] using hup
      · simpa [hactivation] using h.never
      · rw [hattempts]
        exact h.attempts
      · cases hstage : s.phase.stage <;> rw [hstage] at howed <;>
          simp only [Owed, isWaiting, hattempts] at howed ⊢ <;> exact howed
  | leaves ms hms => exact paid_over (hmade.trans h.attempts)
  | starts ms x hstage hms hx =>
      have hactivation := any_eq_false (fun _ ho => (closing_spec ho).1) hms
      have hreset := any_eq_false (fun _ ho => (closing_spec ho).2) hms
      cases hx with
      | closed => exact paid_over (hmade.trans h.attempts)
      | first desktop scale =>
          have hsettle : ∀ reachable, settle cfg.options.reconnect.stableAfter m s.now .startUp e ms
              (.connecting (cfg.firstLeg desktop scale) .negotiating) reachable =
                { m with offline := !reachable } := by
            intro reachable
            simp [settle, losesTo, isStart, isWaiting, hreset, hactivation]
          rw [hstage, hsettle]
          exact Account.paid (hwith _) hmade hmade
  | trusts request leafDer hstage he hcheck =>
      rw [hstage, settle_moves rfl rfl rfl]
      exact Account.paid (hwith _) hmade hmade
  | asks request leafDer hstage he hcheck =>
      rw [hstage, settle_moves rfl rfl rfl]
      exact Account.paid (hwith _) hmade hmade
  | accepts request leafDer pin hstage =>
      rw [hstage, settle_moves rfl rfl rfl]
      exact Account.paid ⟨h.config, h.upSince, h.never, h.attempts⟩ hmade hmade
  | acceptsInVain request leafDer pin x hstage hx =>
      exact paid_ended hlimit hbound hx (.inr (.inl ⟨request, leafDer, hstage⟩)) rfl
        ⟨h.config, h.upSince, h.never, h.attempts⟩ hmade
  | activates request a hstage =>
      rw [hstage, settle_moves rfl rfl rfl]
      have hup : Account cfg limit (s.actor.base.activated (s.actor.activations + 1) s.now)
          { m with upSince := some s.now } := ⟨h.config, rfl, nofun, h.attempts⟩
      exact Account.paid ⟨hup.config, hup.upSince, hup.never, hup.attempts⟩ hmade hmade
  | activatesInVain request a activations x hstage hactivations hx =>
      exact paid_ended hlimit hbound hx (.inl ⟨request, .finalizing, hstage, nofun⟩) rfl
        ⟨h.config, rfl, fun hzero => absurd hzero hactivations, h.attempts⟩ hmade
  | ends ms x hstage hms hx =>
      have hactivation := any_eq_false (fun _ ho => (plain_spec ho).1) hms
      have hreset := any_eq_false (fun _ ho => (plain_spec ho).2) hms
      refine paid_ended hlimit hbound hx hstage hreset ?_ hmade
      rw [hactivation]
      exact h
  | redirects pdu r next desktop scale hstage he hr htarget =>
      subst he
      rw [hstage, settle_moves rfl rfl rfl]
      exact Account.paid (hwith _) hmade hmade
  | due deadline ms x hstage hdeadline hms hx =>
      have hactivation := any_eq_false (fun _ ho => (plain_spec ho).1) hms
      have hreset := any_eq_false (fun _ ho => (plain_spec ho).2) hms
      have hcharged : m.made < s.actor.base.policy.attempts := by
        rw [hstage, Owed] at howed
        split at howed
        · exact absurd howed.1 hdeadline
        · exact howed
      rw [hstage]
      refine paid_dialed ms hx hactivation hreset h ?_ _
      split_ifs <;> omega
  | now deadline x hstage hx =>
      rw [hstage]
      exact paid_dialed [.received .backoff (some .reconnectNow)] hx rfl rfl h hmade _
  | online deadline cmds x hstage he hcmds hx =>
      subst he
      have honline : m.offline = false := by
        unfold wakesOffline at hwakes
        cases hphase : s.phase <;> rw [hphase, Phase.stage] at hstage <;> cases hstage
        simpa [hphase, hcmds] using hwakes
      have hcharged : m.made < s.actor.base.policy.attempts := by
        rw [hstage, Owed, honline] at howed
        exact howed
      rw [hstage]
      exact paid_dialed [.received .backoff (some (.networkReachable true))] hx rfl rfl
        ⟨h.config, h.upSince, h.never, h.attempts⟩ hcharged _
  | cancels deadline hstage =>
      rw [hstage]
      exact Account.paid ⟨h.config, rfl, fun _ => rfl, Nat.zero_le _⟩ (Nat.le_refl 0) (Nat.le_refl 0)
  | restarts x hstage hx =>
      rw [hstage]
      cases hx with
      | closed => exact paid_over (hmade.trans h.attempts)
      | first desktop scale =>
          exact Account.paid ⟨h.config, rfl, fun _ => rfl, Nat.zero_le _⟩ (Nat.le_refl 0)
            (Nat.le_refl 0)

theorem over_turned {s : Session Geometry} {e : Event Geometry} {ms : List (Out Geometry)}
    {stage : Stage} {b : Base} (hover : s.phase.stage = .over) (hturned : Turned cfg s e ms stage b) :
    stage = .over := by
  cases hturned with
  | quiet hquiet => exact hover
  | hears o policy he ho hpolicy => exact hover
  | leaves ms hms => rfl
  | ends ms x hstage hms hx =>
      rcases hstage with ⟨request, handshake, hstage, -⟩ | ⟨request, leafDer, hstage⟩ | hstage <;>
        cases hover.symm.trans hstage
  | secures request hstage => cases hover.symm.trans hstage
  | starts ms x hstage hms hx => cases hover.symm.trans hstage
  | trusts request leafDer hstage he hcheck => cases hover.symm.trans hstage
  | asks request leafDer hstage he hcheck => cases hover.symm.trans hstage
  | accepts request leafDer pin hstage => cases hover.symm.trans hstage
  | acceptsInVain request leafDer pin x hstage hx => cases hover.symm.trans hstage
  | activates request a hstage => cases hover.symm.trans hstage
  | activatesInVain request a activations x hstage hactivations hx =>
      cases hover.symm.trans hstage
  | redirects pdu r next desktop scale hstage he hr htarget => cases hover.symm.trans hstage
  | due deadline ms x hstage hdeadline hms hx => cases hover.symm.trans hstage
  | now deadline x hstage hx => cases hover.symm.trans hstage
  | online deadline cmds x hstage he hcmds hx => cases hover.symm.trans hstage
  | cancels deadline hstage => cases hover.symm.trans hstage
  | restarts x hstage hx => cases hover.symm.trans hstage

theorem Paid.turned {limit : Nat} {s : Session Geometry} {e : Event Geometry}
    {ms : List (Out Geometry)} {stage : Stage} {b : Base}
    (hlimit : cfg.options.reconnect.maxAttempts = some limit) (hbound : limit ≤ u32Max)
    (h : Paid cfg limit s.actor.base m s.phase.stage) (hwakes : wakesOffline s m e = false)
    (hturned : Turned cfg s e ms stage b) :
    Paid cfg limit b
      (settle cfg.options.reconnect.stableAfter m s.now s.phase.stage e ms stage
        b.policy.networkReachable) stage := by
  rcases h.rest with hover | ⟨haccount, howed⟩
  · obtain rfl := over_turned hover hturned
    exact paid_over h.made
  · exact haccount.turned hlimit hbound howed hwakes hturned

/-! ### Runs -/

variable [BEq Geometry]

/-- The steps on which the network does not come back in a backoff that was entered without it. -/
abbrev NeverWakesOffline (cfg : Config Geometry) (es : List (Event Geometry)) : Prop :=
  Along (recorded (Session.step cfg)) (watch cfg.options.reconnect.stableAfter)
    (fun s m e => wakesOffline s m e = false) (.new cfg) start es

/-- **The budget.** In a run whose backoffs are not cut short by a network that was down when they
began, the session makes no more attempts by itself between two resets than it may. -/
theorem within_steps (cfg : Config Geometry) (limit : Nat)
    (hlimit : cfg.options.reconnect.maxAttempts = some limit) (hbound : limit ≤ u32Max)
    (es : List (Event Geometry)) (hwakes : NeverWakesOffline cfg es) :
    Holds (watch cfg.options.reconnect.stableAfter) (Within limit cfg.options.reconnect.stableAfter)
      start (Session.steps cfg es) := by
  have hstart : Paid cfg limit (Session.new cfg).actor.base start (Session.new cfg).phase.stage :=
    Account.paid ⟨rfl, rfl, fun _ => rfl, Nat.zero_le _⟩ (Nat.le_refl 0) (Nat.le_refl 0)
  refine (run_holds (fun s m => Paid cfg limit s.actor.base m s.phase.stage) ?_ hstart hwakes).1
  intro s m e h hwakes
  have hnext := h.turned hlimit hbound hwakes (Drift.Rdp.turned cfg s e)
  have hpaid : Paid cfg limit (s.step cfg e).1.actor.base
      (m.watch cfg.options.reconnect.stableAfter ⟨s, e, (s.step cfg e).2, (s.step cfg e).1⟩)
      (s.step cfg e).1.phase.stage := by
    rw [watch_eq]
    exact hnext
  exact ⟨⟨hpaid.made, trivial⟩, hpaid⟩

def frugal : Config Nat :=
  { sampleConfig (some []) with
    options := ⟨none, { ReconnectConfig.default with maxAttempts := some 1 }, 0⟩ }

/-- The only attempt, after a drop, fails. -/
theorem within_frugal :
    Holds (watch frugal.options.reconnect.stableAfter)
      (Within 1 frugal.options.reconnect.stableAfter) start
      (Session.steps frugal ([.graceOver] ++ connects [] ++
        [.readFailed .connectionReset, .elapse (.fromSecs 1), .tick, .connectFailed .timeout])) :=
  within_steps frugal 1 rfl (by decide) _ (by decide)

/-- The connection is lost while the network is down, and made when it is up again, twice. -/
def flaps : List (Event Nat) :=
  let flap := commands (.networkReachable false) ++ [.readFailed .connectionReset] ++
    commands (.networkReachable true) ++ connects []
  [.graceOver] ++ connects [] ++ flap ++ flap

theorem not_within_flaps :
    ¬ Holds (watch frugal.options.reconnect.stableAfter)
      (Within 1 frugal.options.reconnect.stableAfter) start (Session.steps frugal flaps) := by
  decide

end Budget

end Drift.Rdp
