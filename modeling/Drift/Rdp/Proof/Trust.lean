import Drift.Rdp.Proof.Turned

/-!
# Where the credentials go

A leg asks for what its origin allows: the pin of the profile or a prompt on a first leg, the certificate
of the redirection or a pin on a redirected one. A redirected leg has a pin, as the first leg of its
connection got past the check.
-/

namespace Drift.Rdp

open Transition

variable {Geometry : Type} {cfg : Config Geometry} {m : Trust}

namespace Trust

/-- The pin of a leg without a certificate from its redirection. -/
def Pinned (cfg : Config Geometry) (b : Base) : Prop := (cfg.profile.certPin.or b.pin).isSome = true

/-- What the request of a leg expects comes from the origin of the leg. -/
inductive Origin (cfg : Config Geometry) (b : Base) (m : Trust) (request : LegRequest) : Prop
  | first (hrole : request.role = .server) (hredirect : m.redirect = none)
      (hexpectation : request.expectation = cfg.profile.certPin.elim .trustOnFirstUse .pinned)
  | target (der : Bytes) (hrole : request.role = .redirectTarget)
      (hredirect : m.redirect = some (some der)) (hexpectation : request.expectation = .exact der)
      (hpinned : Pinned cfg b)
  | untold (pin : CertFingerprint) (hrole : request.role = .redirectTarget)
      (hredirect : m.redirect = some none) (hpin : cfg.profile.certPin.or b.pin = some pin)
      (hexpectation : request.expectation = .pinned pin)

def Staged (cfg : Config Geometry) (b : Base) (m : Trust) : Stage → Prop
  | .connecting request .finalizing => Origin cfg b m request ∧ Pinned cfg b
  | .connecting request _ => Origin cfg b m request
  | .prompting request leafDer =>
    Origin cfg b m request ∧ request.expectation = .trustOnFirstUse ∧
      m.prompted = some (cfg.platform.ofDer leafDer)
  | .active => Pinned cfg b
  | _ => True

/-- The session pin was accepted. -/
structure Trusting (cfg : Config Geometry) (b : Base) (m : Trust) (stage : Stage) : Prop where
  accepted : ∀ pin, b.pin = some pin → pin ∈ m.accepted
  staged : Staged cfg b m stage

/-- A leg on which the user can be prompted is a first leg without a pin. -/
theorem Origin.of_trustOnFirstUse {b : Base} {request : LegRequest} (h : Origin cfg b m request)
    (hexpectation : request.expectation = .trustOnFirstUse) :
    request.role = .server ∧ m.redirect = none ∧ cfg.profile.certPin = none := by
  cases h with
  | first hrole hredirect hfirst =>
      refine ⟨hrole, hredirect, ?_⟩
      cases hpin : cfg.profile.certPin with
      | none => rfl
      | some pin => simp [hexpectation, hpin] at hfirst
  | target der _ _ hexact _ => cases hexpectation.symm.trans hexact
  | untold pin _ _ _ hpinned => cases hexpectation.symm.trans hpinned

/-- What the watcher sees of the stages: the origin of the leg after the step. -/
def follow (before : Stage) (e : Event Geometry) (after : Stage) (m : Trust) : Trust :=
  match after with
  | .connecting request _ =>
    match request.role, before, e with
    | .server, _, _ => { m with redirect := none }
    | .redirectTarget, .active, .pdu pdu =>
      { m with redirect := some (pdu.redirection?.bind (·.target?)) }
    | .redirectTarget, _, _ => m
  | _ => m

theorem watch_eq (m : Trust) (t : SessionStep Geometry) :
    m.watch t =
      follow t.before.phase.stage t.input t.after.phase.stage
        ((t.outs.filter Out.isMilestone).foldl hear m) := by
  have hmilestones : (t.outs.filter Out.isMilestone).foldl hear m = t.outs.foldl hear m := by
    have hkeep : ∀ (m : Trust) (o : Out Geometry), o.isMilestone = false → True ∧ m.hear o = m := by
      intro m o ho
      refine ⟨trivial, ?_⟩
      cases o with
      | received loop cmd => cases ho
      | event event => cases event <;> first | rfl | cases ho
      | _ => rfl
    exact (holds_filter hkeep m t.outs).2
  rw [hmilestones]
  unfold watch follow
  cases t.after.phase <;> try rfl
  next redirects request handshake =>
    simp only [Phase.stage]
    cases request.role with
    | server => rfl
    | redirectTarget => cases t.before.phase <;> cases t.input <;> rfl

/-- The acceptances only grow, and nothing else changes. -/
structure Grows (m m' : Trust) : Prop where
  redirect : m'.redirect = m.redirect
  prompted : m'.prompted = m.prompted
  accepted : ∀ pin ∈ m.accepted, pin ∈ m'.accepted

theorem Grows.refl (m : Trust) : Grows m m := ⟨rfl, rfl, fun _ h => h⟩

theorem Grows.trans {m m' m'' : Trust} (h : Grows m m') (h' : Grows m' m'') : Grows m m'' :=
  ⟨h'.redirect.trans h.redirect, h'.prompted.trans h.prompted,
    fun pin hpin => h'.accepted pin (h.accepted pin hpin)⟩

def isHeard : Out Geometry → Bool
  | .received _ _ | .activated _ => true
  | _ => false

theorem hear_grows {o : Out Geometry} (ho : isHeard o = true) : Grows m (m.hear o) := by
  cases o with
  | received loop cmd =>
      unfold hear
      split
      · next heq => cases heq
      · split
        · exact ⟨rfl, rfl, fun pin hpin => List.mem_cons_of_mem _ hpin⟩
        · exact .refl m
      · exact .refl m
  | activated a => exact .refl m
  | _ => cases ho

/-- Nothing is shown and no credentials go out while commands are received. -/
theorem holds_heard {ms : List (Out Geometry)} (hms : ∀ o ∈ ms, isHeard o = true) :
    Holds hear (Guarded cfg) m ms ∧ Grows m (ms.foldl hear m) := by
  induction ms generalizing m with
  | nil => exact ⟨trivial, .refl m⟩
  | cons o ms ih =>
      have ho : isHeard o = true := hms o List.mem_cons_self
      obtain ⟨hholds, hgrows⟩ := ih (m := m.hear o) fun p hp => hms p (List.mem_cons_of_mem o hp)
      refine ⟨⟨?_, hholds⟩, (hear_grows ho).trans hgrows⟩
      cases o <;> trivial

theorem isHeard_of_isPlainCommand {o : Out Geometry} (h : isPlainCommand o = true) :
    isHeard o = true := by
  cases o <;> first | rfl | cases h

theorem isHeard_of_isClosing {o : Out Geometry} (h : isClosing o = true) : isHeard o = true := by
  cases o <;> first | rfl | cases h

theorem Trusting.dialed {b : Base} {x : Stage × Base} (before : Stage) (e : Event Geometry)
    (hx : Dialed cfg b x) (haccepted : ∀ pin, b.pin = some pin → pin ∈ m.accepted) :
    Trusting cfg x.2 (follow before e x.1 m) x.1 := by
  cases hx with
  | closed => exact ⟨haccepted, trivial⟩
  | first desktop scale => exact ⟨haccepted, .first rfl rfl rfl⟩

theorem Trusting.ended {b : Base} {x : Stage × Base} {now : Instant} (before : Stage)
    (e : Event Geometry) (hx : Ended cfg now b x)
    (haccepted : ∀ pin, b.pin = some pin → pin ∈ m.accepted) :
    Trusting cfg x.2 (follow before e x.1 m) x.1 := by
  cases hx with
  | closed => exact ⟨haccepted, trivial⟩
  | never h => exact ⟨haccepted, trivial⟩
  | gaveUp reason why h hdecision => exact ⟨haccepted, trivial⟩
  | waits reason attempt delay h hdecision => exact ⟨haccepted, trivial⟩
  | offline reason attempt h hdecision => exact ⟨haccepted, trivial⟩
  | retries reason attempt delay x h hdecision hx =>
      exact .dialed before e hx haccepted

theorem Origin.grows {b b' : Base} {m' : Trust} {request : LegRequest}
    (h : Origin cfg b m request) (hgrows : Grows m m') (hpin : b'.pin = b.pin) :
    Origin cfg b' m' request := by
  cases h with
  | first hrole hredirect hexpectation =>
      exact .first hrole (hgrows.redirect.trans hredirect) hexpectation
  | target der hrole hredirect hexpectation hpinned =>
      refine .target der hrole (hgrows.redirect.trans hredirect) hexpectation ?_
      rw [Pinned, hpin]
      exact hpinned
  | untold pin hrole hredirect hsome hexpectation =>
      refine .untold pin hrole (hgrows.redirect.trans hredirect) ?_ hexpectation
      rw [hpin]
      exact hsome

theorem Staged.grows {b b' : Base} {m' : Trust} {stage : Stage} (h : Staged cfg b m stage)
    (hgrows : Grows m m') (hpin : b'.pin = b.pin) : Staged cfg b' m' stage := by
  have hpinned : Pinned cfg b → Pinned cfg b' := by
    intro h
    rw [Pinned, hpin]
    exact h
  cases stage with
  | connecting request handshake =>
      cases handshake with
      | finalizing => exact ⟨h.1.grows hgrows hpin, hpinned h.2⟩
      | _ => exact Origin.grows h hgrows hpin
  | prompting request leafDer =>
      exact ⟨h.1.grows hgrows hpin, h.2.1, hgrows.prompted.trans h.2.2⟩
  | active => exact hpinned h
  | _ => trivial

theorem Origin.follow_eq {b : Base} {request : LegRequest} (h : Origin cfg b m request)
    (e : Event Geometry) (handshake handshake' : Handshake) :
    follow (.connecting request handshake) e (.connecting request handshake') m = m := by
  cases h with
  | first hrole hredirect hexpectation =>
      simp only [follow, hrole]
      rw [← hredirect]
  | target der hrole => simp only [follow, hrole]
  | untold pin hrole => simp only [follow, hrole]

theorem Staged.follow_eq {b : Base} {stage : Stage} (h : Staged cfg b m stage)
    (e : Event Geometry) : follow stage e stage m = m := by
  cases stage with
  | connecting request handshake =>
      cases handshake with
      | finalizing => exact h.1.follow_eq e _ _
      | _ => exact Origin.follow_eq h e _ _
  | _ => rfl

theorem trustOnFirstUse_of_unknown {ofDer : Bytes → CertFingerprint} {leafDer : Bytes}
    {expectation : CertExpectation} {fingerprint : CertFingerprint}
    (h : checkCertificate ofDer expectation leafDer = .unknown fingerprint) :
    expectation = .trustOnFirstUse := by
  unfold checkCertificate at h
  split at h
  · split_ifs at h
  · split_ifs at h
  · rfl

/-- A trusted certificate is one that the credentials may go to, and leaves a pin. -/
theorem Origin.justified {b : Base} {request : LegRequest} {leafDer : Bytes}
    (h : Origin cfg b m request) (haccepted : ∀ pin, b.pin = some pin → pin ∈ m.accepted)
    (hcheck : checkCertificate cfg.platform.ofDer request.expectation leafDer = .trusted ∨
      checkCertificate cfg.platform.ofDer request.expectation leafDer =
          .unknown (cfg.platform.ofDer leafDer) ∧ b.pin = some (cfg.platform.ofDer leafDer)) :
    m.Justified cfg leafDer ∧ Pinned cfg b := by
  cases h with
  | first hrole hredirect hexpectation =>
      rw [Justified, hredirect, Pinned]
      rw [hexpectation] at hcheck
      cases hpin : cfg.profile.certPin with
      | none =>
          rcases hcheck with hcheck | ⟨-, hsession⟩
          · simp [hpin, checkCertificate] at hcheck
          · exact ⟨.inr (haccepted _ hsession), by simp [hsession]⟩
      | some pin =>
          simp only [hpin, Option.elim_some, checkCertificate] at hcheck
          split_ifs at hcheck with heq
          · exact ⟨.inl (congrArg some heq), rfl⟩
          · simp at hcheck
  | target der hrole hredirect hexpectation hpinned =>
      rw [Justified, hredirect]
      simp only [hexpectation, checkCertificate] at hcheck
      split_ifs at hcheck with heq
      · exact ⟨heq.symm, hpinned⟩
      · simp at hcheck
  | untold pin hrole hredirect hpin hexpectation =>
      rw [Justified, hredirect]
      simp only [hexpectation, checkCertificate] at hcheck
      split_ifs at hcheck with heq
      · subst heq
        refine ⟨?_, by rw [Pinned, hpin]; rfl⟩
        cases hprofile : cfg.profile.certPin with
        | none =>
            rw [hprofile, Option.none_or] at hpin
            exact .inr (haccepted _ hpin)
        | some fingerprint =>
            rw [hprofile, Option.some_or] at hpin
            exact .inl hpin
      · simp at hcheck

variable {s : Session Geometry} {e : Event Geometry}

/-- **Step.** A turn keeps the trust, and its credentials and prompts are in order. -/
theorem Trusting.turned {ms : List (Out Geometry)} {stage : Stage} {b : Base}
    (h : Trusting cfg s.actor.base m s.phase.stage) (hturned : Turned cfg s e ms stage b) :
    Holds hear (Guarded cfg) m ms ∧
      Trusting cfg b (follow s.phase.stage e stage (ms.foldl hear m)) stage := by
  have haccepted := h.accepted
  have hstaged := h.staged
  have hheard : ∀ os : List (Out Geometry), (∀ o ∈ os, isHeard o = true) →
      (Holds hear (Guarded cfg) m os ∧ Grows m (os.foldl hear m)) ∧
        ∀ pin, s.actor.base.pin = some pin → pin ∈ (os.foldl hear m).accepted := by
    intro os hos
    have hholds : Holds hear (Guarded cfg) m os ∧ Grows m (os.foldl hear m) := holds_heard hos
    exact ⟨hholds, fun pin hpin => hholds.2.accepted pin (haccepted pin hpin)⟩
  cases hturned with
  | quiet hquiet => exact ⟨trivial, by rw [List.foldl_nil, hstaged.follow_eq]; exact h⟩
  | secures request hstage =>
      rw [hstage] at hstaged
      refine ⟨trivial, ?_⟩
      rw [hstage, List.foldl_nil, Origin.follow_eq hstaged]
      exact ⟨haccepted, hstaged⟩
  | hears o policy he ho hpolicy =>
      obtain ⟨⟨hholds, hgrows⟩, hmem⟩ := hheard [o] (by simpa using isHeard_of_isPlainCommand ho)
      have hnext : Staged cfg { s.actor.base with policy := policy } _ s.phase.stage :=
        hstaged.grows hgrows rfl
      refine ⟨hholds, ?_⟩
      rw [hnext.follow_eq]
      exact ⟨hmem, hnext⟩
  | leaves ms hms =>
      obtain ⟨⟨hholds, -⟩, hmem⟩ := hheard ms fun o ho => isHeard_of_isClosing (hms o ho)
      exact ⟨hholds, hmem, trivial⟩
  | starts ms x hstage hms hx =>
      obtain ⟨⟨hholds, -⟩, hmem⟩ := hheard ms fun o ho => isHeard_of_isClosing (hms o ho)
      exact ⟨hholds, .dialed _ _ hx hmem⟩
  | trusts request leafDer hstage he hcheck =>
      rw [hstage] at hstaged
      obtain ⟨hjustified, hpinned⟩ := Origin.justified hstaged haccepted hcheck
      refine ⟨⟨hjustified, trivial⟩, ?_⟩
      rw [hstage]
      simp only [List.foldl_cons, List.foldl_nil, hear]
      rw [Origin.follow_eq hstaged]
      exact ⟨haccepted, hstaged, hpinned⟩
  | asks request leafDer hstage he hcheck =>
      rw [hstage] at hstaged
      have htofu := trustOnFirstUse_of_unknown hcheck
      obtain ⟨hrole, hredirect, -⟩ := Origin.of_trustOnFirstUse hstaged htofu
      refine ⟨⟨hredirect, trivial⟩, haccepted, ?_, htofu, rfl⟩
      cases hstaged with
      | first hrole hredirect hexpectation => exact .first hrole hredirect hexpectation
      | target der hrole' => cases hrole.symm.trans hrole'
      | untold pin hrole' => cases hrole.symm.trans hrole'
  | accepts request leafDer pin hstage =>
      rw [hstage] at hstaged
      obtain ⟨horigin, htofu, hprompted⟩ := hstaged
      obtain ⟨hrole, hredirect, hnone⟩ := horigin.of_trustOnFirstUse htofu
      have hexpectation : request.expectation = cfg.profile.certPin.elim .trustOnFirstUse .pinned := by
        rw [hnone, htofu]
        rfl
      simp only [List.foldl_cons, List.foldl_nil, holds_cons, holds_nil, hear, hprompted, if_true]
      refine ⟨⟨trivial, ?_, trivial⟩, ?_, ?_, ?_⟩
      · rw [Guarded, Justified, hredirect]
        exact .inr List.mem_cons_self
      · rintro _ ⟨⟩
        simp [follow, hrole]
      · simp only [follow, hrole]
        exact .first hrole rfl hexpectation
      · simp [Pinned]
  | acceptsInVain request leafDer pin x hstage hx =>
      rw [hstage] at hstaged
      refine ⟨⟨trivial, trivial⟩, .ended _ _ hx ?_⟩
      rintro _ ⟨⟩
      simp [hear, hstaged.2.2]
  | activates request a hstage =>
      rw [hstage] at hstaged
      exact ⟨⟨trivial, trivial⟩, haccepted, hstaged.2⟩
  | activatesInVain request a activations x hstage hactivations hx =>
      exact ⟨⟨trivial, trivial⟩, .ended _ _ hx haccepted⟩
  | ends ms x hstage hms hx =>
      obtain ⟨⟨hholds, -⟩, hmem⟩ := hheard ms fun o ho => isHeard_of_isPlainCommand (hms o ho)
      exact ⟨hholds, .ended _ _ hx hmem⟩
  | redirects pdu r next desktop scale hstage he hr htarget =>
      subst he
      rw [hstage] at hstaged
      refine ⟨trivial, ?_⟩
      have hfollow : follow s.phase.stage (.pdu pdu : Event Geometry)
          (.connecting (cfg.redirectedLeg s.actor.io.sessionPin next desktop scale) .negotiating) m =
            { m with redirect := some r.target? } := by
        simp [follow, hstage, Config.redirectedLeg, hr]
      rw [List.foldl_nil, hfollow]
      refine ⟨haccepted, ?_⟩
      cases hder : r.target? with
      | some der =>
          rw [hder] at htarget
          exact .target der rfl rfl (by simp [Config.redirectedLeg, htarget]) hstaged
      | none =>
          rw [hder] at htarget
          obtain ⟨pin, hpin⟩ := Option.isSome_iff_exists.mp hstaged
          refine .untold pin rfl rfl hpin ?_
          have hpin' : cfg.profile.certPin.or s.actor.io.sessionPin = some pin := hpin
          simp [Config.redirectedLeg, htarget, hpin']
  | due deadline ms x hstage hdeadline hms hx =>
      obtain ⟨⟨hholds, -⟩, hmem⟩ := hheard ms fun o ho => isHeard_of_isPlainCommand (hms o ho)
      exact ⟨hholds, .dialed _ _ hx hmem⟩
  | now deadline x hstage hx => exact ⟨⟨trivial, trivial⟩, .dialed _ _ hx haccepted⟩
  | online deadline cmds x hstage he hcmds hx =>
      exact ⟨⟨trivial, trivial⟩, .dialed _ _ hx haccepted⟩
  | cancels deadline hstage => exact ⟨⟨trivial, trivial⟩, haccepted, trivial⟩
  | restarts x hstage hx =>
      exact ⟨⟨trivial, trivial⟩, .dialed _ _ hx haccepted⟩

/-! ### Steps and runs -/

def isAuthenticated : Stage → Bool
  | .connecting _ .finalizing | .active => true
  | _ => false

def isOver : Stage → Bool
  | .connecting _ .negotiating | .backoff _ | .idle | .over => true
  | _ => false

theorem isAuthenticated_stage (phase : Phase Geometry) :
    isAuthenticated phase.stage = phase.isAuthenticated := by
  cases phase with
  | connecting redirects request handshake => cases handshake <;> rfl
  | _ => rfl

theorem isOver_stage (phase : Phase Geometry) : isOver phase.stage = phase.isOver := by
  cases phase with
  | connecting redirects request handshake => cases handshake <;> rfl
  | _ => rfl

theorem isOver_of_dialed {b : Base} {x : Stage × Base} (hx : Dialed cfg b x) :
    isOver x.1 = true := by
  cases hx <;> rfl

theorem isOver_of_ended {b : Base} {x : Stage × Base} {now : Instant} (hx : Ended cfg now b x) :
    isOver x.1 = true := by
  cases hx with
  | retries reason attempt delay x h hdecision hx => exact isOver_of_dialed hx
  | _ => rfl

theorem not_isAuthenticated_of_isOver {stage : Stage} (h : isOver stage = true) :
    isAuthenticated stage = false := by
  unfold isOver at h
  split at h <;> first | rfl | cases h

theorem authenticated_turned {ms : List (Out Geometry)} {stage : Stage} {b : Base}
    (hturned : Turned cfg s e ms stage b) (h : isAuthenticated stage = true) :
    isAuthenticated s.phase.stage = true ∨ ∃ auth leafDer, .authenticating auth leafDer ∈ ms := by
  have hover : ∀ {stage : Stage}, isOver stage = true → isAuthenticated stage = true → False := by
    intro stage hover hauthenticated
    rw [not_isAuthenticated_of_isOver hover] at hauthenticated
    cases hauthenticated
  cases hturned with
  | quiet hquiet => exact .inl h
  | hears o policy he ho hpolicy => exact .inl h
  | trusts request leafDer => exact .inr ⟨request.auth, leafDer, List.mem_singleton_self _⟩
  | accepts request leafDer pin => exact .inr ⟨request.auth, leafDer, by simp⟩
  | activates request a hstage => exact .inl (by rw [hstage]; rfl)
  | secures request hstage => cases h
  | leaves ms hms => cases h
  | asks request leafDer hstage he hcheck => cases h
  | redirects pdu r next desktop scale => cases h
  | cancels deadline hstage => cases h
  | starts ms x hstage hms hx => exact (hover (isOver_of_dialed hx) h).elim
  | acceptsInVain request leafDer pin x hstage hx => exact (hover (isOver_of_ended hx) h).elim
  | activatesInVain request a activations x hstage hactivations hx =>
      exact (hover (isOver_of_ended hx) h).elim
  | ends ms x hstage hms hx => exact (hover (isOver_of_ended hx) h).elim
  | due deadline ms x hstage hdeadline hms hx => exact (hover (isOver_of_dialed hx) h).elim
  | now deadline x hstage hx => exact (hover (isOver_of_dialed hx) h).elim
  | online deadline cmds x hstage he hcmds hx => exact (hover (isOver_of_dialed hx) h).elim
  | restarts x hstage hx => exact (hover (isOver_of_dialed hx) h).elim

/-- A turn that checks a certificate for which the credentials are not justified. -/
theorem ended_turned {ms : List (Out Geometry)} {stage : Stage} {b : Base} {request : LegRequest}
    {leafDer : Bytes} (hturned : Turned cfg s (.secured leafDer) ms stage b)
    (h : Trusting cfg s.actor.base m s.phase.stage)
    (hstage : s.phase.stage = .connecting request .securing) (hnot : ¬ m.Justified cfg leafDer) :
    isOver stage = true ∨ stage = .prompting request leafDer ∧ m.redirect = none ∧
      cfg.profile.certPin = none := by
  have hstaged := h.staged
  rw [hstage] at hstaged
  cases hturned with
  | quiet hquiet =>
      rw [hstage] at hquiet
      cases hquiet
  | hears o policy he ho hpolicy => cases he
  | trusts request' leafDer' hstage' he hcheck =>
      cases hstage.symm.trans hstage'
      cases he
      exact absurd (Origin.justified hstaged h.accepted hcheck).1 hnot
  | asks request' leafDer' hstage' he hcheck =>
      cases hstage.symm.trans hstage'
      cases he
      have htofu := trustOnFirstUse_of_unknown hcheck
      exact .inr ⟨rfl, (Origin.of_trustOnFirstUse hstaged htofu).2⟩
  | accepts request' leafDer' pin hstage' => cases hstage.symm.trans hstage'
  | activates request' a hstage' => cases hstage.symm.trans hstage'
  | secures request' hstage' => cases hstage.symm.trans hstage'
  | leaves ms hms => exact .inl rfl
  | redirects pdu r next desktop scale hstage' => cases hstage.symm.trans hstage'
  | cancels deadline hstage' => cases hstage.symm.trans hstage'
  | starts ms x _ hms hx => exact .inl (isOver_of_dialed hx)
  | acceptsInVain request' leafDer' pin x _ hx => exact .inl (isOver_of_ended hx)
  | activatesInVain request' a activations x _ hactivations hx => exact .inl (isOver_of_ended hx)
  | ends ms x _ hms hx => exact .inl (isOver_of_ended hx)
  | due deadline ms x _ hdeadline hms hx => exact .inl (isOver_of_dialed hx)
  | now deadline x _ hx => exact .inl (isOver_of_dialed hx)
  | online deadline cmds x _ he hcmds hx => exact .inl (isOver_of_dialed hx)
  | restarts x _ hx => exact .inl (isOver_of_dialed hx)

variable [BEq Geometry]

/-- The relation of a session to what the watcher knows. -/
def Trusts (cfg : Config Geometry) (s : Session Geometry) (m : Trust) : Prop :=
  Trusting cfg s.actor.base m s.phase.stage

theorem step_observed (cfg : Config Geometry) {s : Session Geometry} {m : Trust}
    (h : Trusts cfg s m) (e : Event Geometry) :
    let t : SessionStep Geometry := ⟨s, e, (s.step cfg e).2, (s.step cfg e).1⟩
    Observed cfg m t ∧ Trusts cfg t.after (m.watch t) := by
  intro t
  have hturned := Drift.Rdp.turned cfg s e
  obtain ⟨hholds, hnext⟩ := Trusting.turned h hturned
  have hneutral : ∀ (m : Trust) (o : Out Geometry), o.isMilestone = false →
      m.Guarded cfg o ∧ m.hear o = m := by
    intro m o ho
    cases o with
    | received loop cmd => cases ho
    | authenticating auth leafDer => cases ho
    | event event => cases event <;> first | exact ⟨trivial, rfl⟩ | cases ho
    | _ => exact ⟨trivial, rfl⟩
  refine ⟨⟨(holds_filter hneutral m _).1.mp hholds, ?_, ?_⟩, ?_⟩
  · intro hauthenticated
    rw [← isAuthenticated_stage] at hauthenticated ⊢
    rcases authenticated_turned hturned hauthenticated with hbefore | ⟨auth, leafDer, hmem⟩
    · exact .inl hbefore
    · exact .inr ⟨auth, leafDer, (List.mem_filter.mp hmem).1⟩
  · intro redirects request leafDer hphase he hnot
    have hstage : s.phase.stage = .connecting request .securing := congrArg Phase.stage hphase
    have he' : e = .secured leafDer := he
    subst he'
    rw [← isOver_stage]
    rcases ended_turned hturned h hstage hnot with hover | ⟨hprompting, hallowed⟩
    · exact .inl hover
    · refine .inr ⟨?_, hallowed⟩
      have hafter : t.after.phase.stage = .prompting request leafDer := hprompting
      cases hphase' : t.after.phase <;> rw [hphase', Phase.stage] at hafter <;> cases hafter
      exact ⟨_, rfl⟩
  · rw [Trusts, watch_eq]
    exact hnext

/-- **Credentials.** In every run of a session the credentials go only to a certificate that the
redirection of the leg gave, or else to the pinned one or one that the user accepted when prompted for
it; no other leg gets past its certificate, and a redirected leg prompts for nothing. -/
theorem observed_steps (cfg : Config Geometry) (es : List (Event Geometry)) :
    Holds watch (Observed cfg) .start (Session.steps cfg es) := by
  have hstart : Trusts cfg (Session.new cfg) .start := ⟨nofun, trivial⟩
  refine (run_holds (Trusts cfg) ?_ hstart
    (along_of_forall (P := fun _ _ _ => True) (fun _ _ _ => trivial) _ _ es)).1
  intro s m e h _
  obtain ⟨hobserved, hnext⟩ := step_observed cfg h e
  exact ⟨⟨hobserved, trivial⟩, hnext⟩

end Trust

end Drift.Rdp
