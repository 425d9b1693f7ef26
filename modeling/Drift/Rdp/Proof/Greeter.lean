import Drift.Rdp.Proof.Inputs

/-!
# The password at the greeter

The typist is armed when a leg comes up at the greeter, and goes with the leg: its deadline was set by a
click that the leg received. So the stored password goes out at most once on a leg, and never on a leg of the
user's session; all other input that a step writes is what the app sent, or what a new leg is told is held.
-/

namespace Drift.Rdp

open Input Clipboard Gfx Outcome Transition

variable {Geometry : Type}

/-- The timers of a leg make the typist hand out the password. -/
def Live.typesPassword (cfg : Config Geometry) (now : Instant) (l : Live Geometry) : Bool :=
  let resized := l.pollResize cfg.platform now
  resized.exit.isNone && cfg.secrets.linuxPassword.any fun password =>
    (resized.state.actor.typist.poll now password).2.isSome

def SessionCommand.isClick : SessionCommand Geometry → Bool
  | .input event => GreeterTypist.isClick event
  | _ => false

/-- What happened on the leg that is up: when it received the release of the left button, and whether the
password was typed. -/
structure GreeterLeg where
  clicks : List Instant
  typed : Bool

namespace GreeterLeg

def start : GreeterLeg := ⟨[], false⟩

def types (cfg : Config Geometry) (t : SessionStep Geometry) : Bool :=
  match t.before.phase, t.input with
  | .active _ leg, .tick => Live.typesPassword cfg t.before.now ⟨t.before.actor, leg⟩
  | _, _ => false

/-- The leg receives the release of the left button. -/
def clicked (t : SessionStep Geometry) : Bool :=
  match t.before.phase, t.input with
  | .active _ _, .receive => t.before.cmds.head?.any SessionCommand.isClick
  | _, _ => false

def activates (t : SessionStep Geometry) : Bool := t.outs.any Budget.isActivation

def watch (cfg : Config Geometry) (m : GreeterLeg) (t : SessionStep Geometry) : GreeterLeg :=
  if activates t then start
  else
    { clicks := if clicked t then t.before.now :: m.clicks else m.clicks
      typed := m.typed || types cfg t }

/-- Where and when the password may be typed: on the greeter leg of a remote login, which is up, once, and
some time after a click on it. -/
structure MayType (m : GreeterLeg) (t : SessionStep Geometry) : Prop where
  leg : ∃ redirects leg, t.before.phase = .active redirects leg ∧ redirects.mode = .remoteLogin ∧
    redirects.leg = 2
  state : t.before.actor.io.state = .awaitingGreeterLogin
  first : m.typed = false
  click : ∃ click ∈ m.clicks, click + typeDelay ≤ t.before.now

/-- The input that a step has to send: the password where the timers type it, a received input event, and
what a new leg is told is held; no other step has any. -/
def input (cfg : Config Geometry) (t : SessionStep Geometry) : List FastPathInputEvent :=
  match t.before.phase, t.input with
  | .active _ _, .tick =>
    if types cfg t then
      cfg.secrets.linuxPassword.elim [] fun password =>
        (t.before.actor.input.encodeAll (GreeterTypist.passwordEvents password)).2
    else []
  | .active _ _, .receive => t.before.cmds.head?.elim [] fun cmd => cmd.inputOf t.before.actor.input
  | .connecting _ _ .finalizing, .finalized _ _ _ => t.before.actor.resync
  | _, _ => []

/-- What a step has to do with the password: it types it only where it may, and what it writes as input, as
far as the link takes it, is what it has to send. -/
structure Observed (cfg : Config Geometry) (m : GreeterLeg) (t : SessionStep Geometry) : Prop where
  mayType : types cfg t = true → m.MayType t
  sent : inputFrames t.outs <+: (input cfg t).toChunks FastPathInput.maxEvents

end GreeterLeg

namespace Live

theorem actor_write (l : Live Geometry) (frame : Frame) : (l.write frame).state.actor = l.actor := by
  unfold write
  split <;> rfl

/-- A poll of the resize driver keeps everything of the actor but the driver and the scale. -/
theorem actor_pollResize (platform : Platform Geometry) (now : Instant) (l : Live Geometry) :
    ∃ resize scale,
      (l.pollResize platform now).state.actor = { l.actor with resize := resize, scale := scale } := by
  unfold pollResize
  simp only
  split
  · exact ⟨_, _, rfl⟩
  · split
    · exact ⟨_, _, actor_write ..⟩
    · exact ⟨_, _, rfl⟩

/-! ### The timers of a leg -/

theorem greeting_sendInputEvents (l : Live Geometry) (events : List FastPathInputEvent) :
    (l.sendInputEvents events).state.greeting = l.greeting := (l.sendInputEvents_aloof events).1

/-- The password is typed when its deadline has passed, and the typist is disarmed with that. -/
theorem typePassword_cases (secrets : SessionSecrets) (now : Instant) (l : Live Geometry) :
    (secrets.linuxPassword.any (fun password => (l.actor.typist.poll now password).2.isSome) = false ∧
        (l.typePassword secrets now).state.actor.typist = l.actor.typist ∧
        (l.typePassword secrets now).outs = []) ∨
      ∃ password due,
        secrets.linuxPassword.any (fun password => (l.actor.typist.poll now password).2.isSome) = true ∧
          secrets.linuxPassword = some password ∧ l.actor.typist.armed = true ∧
          l.actor.typist.due = some due ∧ due ≤ now ∧
          (l.typePassword secrets now).state.actor.typist = .disarm ∧
          inputFrames (l.typePassword secrets now).outs <+: (l.actor.input.encodeAll
            (GreeterTypist.passwordEvents password)).2.toChunks FastPathInput.maxEvents := by
  unfold typePassword
  cases hpassword : secrets.linuxPassword with
  | none => exact .inl ⟨rfl, rfl, rfl⟩
  | some password =>
      by_cases hdue : (l.actor.typist.armed && l.actor.typist.due.any (· ≤ now)) = true
      · have hpoll : l.actor.typist.poll now password =
            (.disarm, some (GreeterTypist.passwordEvents password)) := if_pos hdue
        simp only [Bool.and_eq_true] at hdue
        obtain ⟨harmed, hany⟩ := hdue
        obtain ⟨due, hsome, hle⟩ := (Option.any_eq_true _ _).mp hany
        simp only [hpoll, Option.any_some, Option.isSome_some]
        refine .inr ⟨password, due, trivial, rfl, harmed, hsome, of_decide_eq_true hle, ?_, ?_⟩
        · exact congrArg Prod.snd (greeting_sendInputEvents _ _)
        · exact inputFrames_sendInputEvents _ _
      · have hpoll : l.actor.typist.poll now password = (l.actor.typist, none) := if_neg hdue
        simp only [hpoll, Option.any_some, Option.isSome_none]
        exact .inl ⟨trivial, rfl, rfl⟩

/-- What the timers of a leg do to the typist and to the input of the server. -/
structure Ticked (cfg : Config Geometry) (now : Instant) (l : Live Geometry) : Prop where
  armed : l.typesPassword cfg now = true →
    l.actor.typist.armed = true ∧ ∃ due, l.actor.typist.due = some due ∧ due ≤ now
  typist : (l.onTick cfg now).state.actor.typist =
    if l.typesPassword cfg now then .disarm else l.actor.typist
  password : l.typesPassword cfg now = true → ∃ password, cfg.secrets.linuxPassword = some password ∧
    inputFrames (l.onTick cfg now).outs <+: (l.actor.input.encodeAll
      (GreeterTypist.passwordEvents password)).2.toChunks FastPathInput.maxEvents
  silent : l.typesPassword cfg now = false → inputFrames (l.onTick cfg now).outs = []

theorem ticked (cfg : Config Geometry) (now : Instant) (l : Live Geometry) : l.Ticked cfg now := by
  obtain ⟨resize, scale, hactor⟩ := l.actor_pollResize cfg.platform now
  have hresized := inputFrames_eq_nil (l.pollResize_inputless cfg.platform now)
  cases hexit : (l.pollResize cfg.platform now).exit with
  | some legEnd =>
      have htypes : l.typesPassword cfg now = false := by
        simp only [typesPassword, hexit, Option.isNone_some, Bool.false_and]
      have hrun : l.onTick cfg now = l.pollResize cfg.platform now := by
        unfold onTick
        rw [Outcome.andThen, hexit]
      refine ⟨by simp [htypes], ?_, by simp [htypes], fun _ => ?_⟩
      · rw [hrun, htypes, hactor]
        rfl
      · rw [hrun, hresized]
  | none =>
      have htypes : l.typesPassword cfg now = cfg.secrets.linuxPassword.any fun password =>
          (l.actor.typist.poll now password).2.isSome := by
        simp only [typesPassword, hexit, hactor, Option.isNone_none, Bool.true_and]
      have hrun : (l.onTick cfg now).state.actor.typist =
            ((l.pollResize cfg.platform now).state.typePassword cfg.secrets now).state.actor.typist ∧
          inputFrames (l.onTick cfg now).outs =
            inputFrames ((l.pollResize cfg.platform now).state.typePassword cfg.secrets now).outs := by
        unfold onTick
        rw [Outcome.andThen, hexit]
        simp only [inputFrames_append, hresized, List.nil_append]
        generalize (l.pollResize cfg.platform now).state.typePassword cfg.secrets now = typed
        unfold Outcome.andThen
        split
        · exact ⟨rfl, rfl⟩
        · refine ⟨congrArg Prod.snd (feed_aloof ..).1, ?_⟩
          rw [inputFrames_append, inputFrames_eq_nil (feed_inputless _ _ _ _), List.append_nil]
      have hcases := typePassword_cases cfg.secrets now (l.pollResize cfg.platform now).state
      simp only [hactor] at hcases
      rcases hcases with ⟨hnone, htypist, houts⟩ |
        ⟨password, due, hsome, hpassword, harmed, hdue, hle, htypist, houts⟩
      · rw [hnone] at htypes
        refine ⟨by simp [htypes], ?_, by simp [htypes], fun _ => ?_⟩
        · rw [hrun.1, htypist, htypes]
          rfl
        · rw [hrun.2, houts]
          rfl
      · rw [hsome] at htypes
        refine ⟨fun _ => ⟨harmed, due, hdue, hle⟩, ?_, fun _ => ⟨password, hpassword, ?_⟩, ?_⟩
        · rw [hrun.1, htypist, htypes]
          rfl
        · rw [hrun.2]
          exact houts
        · intro hsilent
          rw [htypes] at hsilent
          cases hsilent

end Live

/-! ### Turns -/

section Turns

variable {cfg : Config Geometry} {s : Session Geometry}

theorem Dialed.stage_ne {b : Base} {x : Stage × Base} (h : Dialed cfg b x) : x.1 ≠ .active := by
  cases h <;> simp

theorem Ended.stage_ne {now : Instant} {b : Base} {x : Stage × Base} (h : Ended cfg now b x) :
    x.1 ≠ .active := by
  cases h with
  | retries reason attempt delay x hactive hdecision hx => exact hx.stage_ne
  | _ => simp

variable [BEq Geometry] {e : Event Geometry}

theorem not_activates (hstage : s.phase.stage = .active) :
    (s.step cfg e).2.any Budget.isActivation = false := by
  have hturned := turned cfg s e
  have hms : ∀ o ∈ (s.step cfg e).2.filter Out.isMilestone, Budget.isActivation o = false := by
    generalize (s.step cfg e).2.filter Out.isMilestone = ms at hturned ⊢
    generalize (s.step cfg e).1.phase.stage = stage at hturned
    generalize (s.step cfg e).1.actor.base = base at hturned
    have hplain : ∀ o : Out Geometry, isPlainCommand o = true → Budget.isActivation o = false := by
      intro o ho
      cases o <;> first | rfl | cases ho
    have hclosing : ∀ o : Out Geometry, isClosing o = true → Budget.isActivation o = false := by
      intro o ho
      cases o <;> first | rfl | cases ho
    cases hturned with
    | quiet hquiet => exact List.forall_mem_nil _
    | hears o policy he ho hpolicy =>
        intro o' ho'
        rw [List.mem_singleton.mp ho']
        exact hplain o ho
    | leaves _ hms => exact fun o ho => hclosing o (hms o ho)
    | ends _ x hfrom hms hx => exact fun o ho => hplain o (hms o ho)
    | redirects pdu r next desktop scale hfrom he hr htarget => exact List.forall_mem_nil _
    | secures request hfrom => exact List.forall_mem_nil _
    | starts _ x hfrom hms hx => exact fun o ho => hclosing o (hms o ho)
    | due deadline _ x hfrom hdeadline hms hx => exact fun o ho => hplain o (hms o ho)
    | _ => simp_all
  refine List.any_eq_false.mpr fun o ho => ?_
  by_cases hmilestone : o.isMilestone = true
  · rw [hms o (List.mem_filter.mpr ⟨ho, hmilestone⟩)]
    exact Bool.false_ne_true
  · cases o with
    | activated a => exact absurd rfl hmilestone
    | _ => exact Bool.false_ne_true

theorem activates_of_active (hbefore : s.phase.stage ≠ .active)
    (hafter : (s.step cfg e).1.phase.stage = .active) :
    (s.step cfg e).2.any Budget.isActivation = true ∧
      ∃ request, s.phase.stage = .connecting request .finalizing := by
  have hturned := turned cfg s e
  rw [hafter] at hturned
  have hmem : ∀ a : Activation Geometry, .activated a ∈ (s.step cfg e).2.filter Out.isMilestone →
      (s.step cfg e).2.any Budget.isActivation = true := fun a ha =>
    List.any_eq_true.mpr ⟨.activated a, (List.mem_filter.mp ha).1, rfl⟩
  generalize (s.step cfg e).2.filter Out.isMilestone = ms at hturned hmem
  generalize (s.step cfg e).1.actor.base = base at hturned
  generalize hstage : Stage.active = stage at hturned
  cases hturned with
  | quiet hquiet => exact absurd hstage.symm hbefore
  | hears o policy he ho hpolicy => exact absurd hstage.symm hbefore
  | activates request a hfrom => exact ⟨hmem a List.mem_cons_self, request, hfrom⟩
  | activatesInVain request a activations x hfrom hactivations hx => exact absurd hstage.symm hx.stage_ne
  | acceptsInVain request leafDer pin x hfrom hx => exact absurd hstage.symm hx.stage_ne
  | ends _ x hfrom hms hx => exact absurd hstage.symm hx.stage_ne
  | starts _ x hfrom hms hx => exact absurd hstage.symm hx.stage_ne
  | due deadline _ x hfrom hdeadline hms hx => exact absurd hstage.symm hx.stage_ne
  | now deadline x hfrom hx => exact absurd hstage.symm hx.stage_ne
  | online deadline cmds x hfrom he hcmds hx => exact absurd hstage.symm hx.stage_ne
  | restarts x hfrom hx => exact absurd hstage.symm hx.stage_ne
  | _ => cases hstage

end Turns

/-! ### The typist and the leg -/

/-- While a leg is up, the typist is armed at the greeter only, until the password is typed, and its deadline
belongs to a click that the leg received. -/
structure Primed (m : GreeterLeg) (a : Actor Geometry) : Prop where
  armed : a.typist.armed = true → a.io.state = .awaitingGreeterLogin ∧ m.typed = false
  due : ∀ due, a.typist.due = some due → ∃ click ∈ m.clicks, due = click + typeDelay

section Primed

variable {m : GreeterLeg} {a a' : Actor Geometry}

theorem Primed.of_eq (h : Primed m a) (htypist : a'.typist = a.typist)
    (hstate : a.io.state = .awaitingGreeterLogin → a'.io.state = .awaitingGreeterLogin) :
    Primed m a' := by
  constructor
  · intro harmed
    rw [htypist] at harmed
    exact ⟨hstate (h.armed harmed).1, (h.armed harmed).2⟩
  · intro due hdue
    rw [htypist] at hdue
    exact h.due due hdue

theorem Primed.of_greeting {l l' : Live Geometry} (h : Primed m l.actor)
    (hsame : l'.greeting = l.greeting) : Primed m l'.actor := by
  obtain ⟨hio, htypist⟩ := Prod.mk.inj hsame
  exact h.of_eq htypist fun hstate => by rw [hio, hstate]

/-- A disarmed typist, after the password was typed or before a click. -/
theorem primed_disarmed (m : GreeterLeg) (h : a.typist = .disarm) : Primed m a := by
  constructor
  · intro harmed
    rw [h] at harmed
    cases harmed
  · intro due hdue
    rw [h] at hdue
    cases hdue

theorem Primed.onInput (h : Primed m a) (event : InputEvent) {now : Instant}
    (htypist : a'.typist = a.typist.onInput event now) (hio : a'.io = a.io) :
    Primed { m with clicks := if GreeterTypist.isClick event then now :: m.clicks else m.clicks } a' := by
  by_cases hclick : (a.typist.armed && a.typist.due.isNone && GreeterTypist.isClick event) = true
  · have hset : a'.typist = { a.typist with due := some (now + typeDelay) } :=
      htypist.trans (if_pos hclick)
    simp only [Bool.and_eq_true] at hclick
    constructor
    · intro harmed
      rw [hset] at harmed
      rw [hio]
      exact h.armed harmed
    · intro due hdue
      rw [hset] at hdue
      rw [if_pos hclick.2]
      exact ⟨now, List.mem_cons_self, (Option.some.inj hdue).symm⟩
  · have hkept : a'.typist = a.typist := htypist.trans (if_neg hclick)
    constructor
    · intro harmed
      rw [hkept] at harmed
      rw [hio]
      exact h.armed harmed
    · intro due hdue
      rw [hkept] at hdue
      obtain ⟨click, hmem, rfl⟩ := h.due due hdue
      refine ⟨click, ?_, rfl⟩
      split
      · exact List.mem_cons_of_mem now hmem
      · exact hmem

variable {cfg : Config Geometry} {now : Instant} {l : Live Geometry}

theorem primed_onActivated : Primed .start (l.onActivated cfg now).state.actor := by
  have hsame : (l.onActivated cfg now).state.greeting = (l.welcome cfg now).greeting := by
    have hrest : (l.welcome cfg now).Aloof ((l.welcome cfg now).resyncInput.andThen fun l =>
        Outcome.andThen
          ({ l with actor := { l.actor with activations := l.actor.activations + 1 } } : Live
            Geometry).applyHidden fun l => l.replayLocal cfg.platform now) := by
      refine (Live.resyncInput_aloof _).andThen fun l => ?_
      exact ((Live.applyHidden_aloof _).of_greeting_eq rfl).andThen fun l => l.replayLocal_aloof ..
    exact hrest.1
  refine Primed.of_greeting (l := l.welcome cfg now) ?_ hsame
  by_cases hstate : l.actor.io.state = .awaitingGreeterLogin
  · have htypist : (l.welcome cfg now).actor.typist = .onGreeter cfg.secrets.linuxPassword.isSome :=
      if_pos hstate
    constructor
    · exact fun _ => ⟨hstate, rfl⟩
    · intro due hdue
      rw [htypist] at hdue
      cases hdue
  · exact primed_disarmed _ (if_neg hstate)

theorem primed_onCommand [BEq Geometry] (h : Primed m l.actor) (cmd : SessionCommand Geometry) :
    Primed { m with clicks := if cmd.isClick then now :: m.clicks else m.clicks }
      (l.onCommand cfg now cmd).state.actor := by
  cases cmd with
  | input event =>
      have hsame := (Live.sendInputEvents_aloof
        { l with
          actor := { l.actor with
            typist := l.actor.typist.onInput event now
            input := (l.actor.input.encode event).1 } } (l.actor.input.encode event).2).1
      obtain ⟨hio, htypist⟩ := Prod.mk.inj hsame
      exact h.onInput event htypist hio
  | setVisible visible =>
      have hkept : (l.onCommand cfg now (.setVisible visible)).state.greeting = l.greeting := by
        simp only [Live.onCommand]
        split
        · rfl
        · exact ((Live.applyVisibility_aloof _ _).of_greeting_eq rfl).1
      exact h.of_greeting (l := l) hkept
  | focus focused => exact h.of_greeting (l := l) ((Live.feed_aloof ..).of_greeting_eq rfl).1
  | clipboardLocalChanged contents =>
      exact h.of_greeting (l := l) ((Live.feedLocal_aloof ..).of_greeting_eq rfl).1
  | resize geometry => exact h.of_greeting (l := l) rfl
  | networkReachable reachable => exact h.of_greeting (l := l) rfl
  | _ => exact h

theorem primed_onTick (h : Primed m l.actor) :
    Primed { m with typed := m.typed || l.typesPassword cfg now } (l.onTick cfg now).state.actor := by
  have hticked := l.ticked cfg now
  have hio : (l.onTick cfg now).state.actor.io = l.actor.io := (l.onTick_quiet cfg now).1
  cases htypes : l.typesPassword cfg now with
  | true =>
      refine primed_disarmed _ ?_
      rw [hticked.typist, htypes]
      rfl
  | false =>
      have hkept : (l.onTick cfg now).state.actor.typist = l.actor.typist := by
        rw [hticked.typist, htypes]
        rfl
      rw [Bool.or_false]
      exact h.of_eq hkept fun hstate => by rw [hio, hstate]

theorem primed_onOutputSize (h : Primed m l.actor) : Primed m l.onOutputSize.state.actor := by
  unfold Live.onOutputSize
  split
  · exact h
  · next size _ =>
      split
      · next desktop scale hconnected =>
          refine h.of_eq ?_ fun hstate => ?_
          · simp only [Actor.setState]
            split_ifs <;> rfl
          · rw [hstate] at hconnected
            cases hconnected
      · exact h

end Primed

/-! ### Steps -/

section Steps

variable [BEq Geometry] {cfg : Config Geometry} {s : Session Geometry} {m : GreeterLeg}
  {redirects : RedirectLoop} {leg : Leg}

def Session.stepOn (cfg : Config Geometry) (s : Session Geometry) (e : Event Geometry) :
    SessionStep Geometry := ⟨s, e, (s.step cfg e).2, (s.step cfg e).1⟩

/-- What the summary says of the leg after a step with which no leg comes up. -/
def GreeterLeg.goOn (cfg : Config Geometry) (m : GreeterLeg) (t : SessionStep Geometry) : GreeterLeg where
  clicks := if clicked t then t.before.now :: m.clicks else m.clicks
  typed := m.typed || types cfg t

omit [BEq Geometry] in
theorem goOn_eq {t : SessionStep Geometry} (hclicked : GreeterLeg.clicked t = false)
    (htypes : GreeterLeg.types cfg t = false) : m.goOn cfg t = m := by
  simp only [GreeterLeg.goOn, hclicked, htypes, Bool.false_eq_true, if_false, Bool.or_false]

theorem primed_receive (hphase : s.phase = .active redirects leg) (h : Primed m s.actor)
    (hafter : (s.stepOn cfg .receive).after.phase.stage = .active) :
    Primed (m.goOn cfg (s.stepOn cfg .receive)) (s.stepOn cfg .receive).after.actor := by
  have htypes : GreeterLeg.types cfg (s.stepOn cfg .receive) = false := by
    simp only [GreeterLeg.types, Session.stepOn, hphase]
  have hstep : (s.stepOn cfg .receive).after = (s.receive cfg).state := rfl
  rw [hstep] at hafter ⊢
  simp only [Session.receive, hphase, Phase.loop] at hafter ⊢
  cases hnext : s.next with
  | none =>
      have hcmds : s.cmds = [] := by
        unfold Session.next at hnext
        split at hnext
        · cases hnext
        · assumption
      have hclicked : GreeterLeg.clicked (s.stepOn cfg .receive) = false := by
        simp only [GreeterLeg.clicked, Session.stepOn, hphase, hcmds]
        rfl
      rw [goOn_eq hclicked htypes]
      exact h
  | some next =>
      obtain ⟨s', cmd⟩ := next
      obtain ⟨rfl, hcmd, -⟩ := next_eq_some hnext
      simp only [hnext, Outcome.output, andThen_none, Session.handle, hphase] at hafter ⊢
      cases cmd with
      | none => exact absurd hafter shutdown_leaves.stage
      | some cmd =>
          obtain ⟨cmds, hcmds⟩ : ∃ cmds, s.cmds = cmd :: cmds := List.head?_eq_some_iff.mp hcmd.symm
          have hclicks : m.goOn cfg (s.stepOn cfg .receive) =
              { m with clicks := if cmd.isClick then s.now :: m.clicks else m.clicks } := by
            simp only [GreeterLeg.goOn, htypes, Bool.or_false]
            simp only [GreeterLeg.clicked, Session.stepOn, hphase, hcmds, List.head?_cons, Option.any_some]
          have hcommand : (Session.continueLeg cfg { s with cmds := s.cmds.tail } redirects
                (Live.onCommand cfg s.now ⟨s.actor, leg⟩ cmd)).state.phase.stage = .active →
              Primed { m with clicks := if cmd.isClick then s.now :: m.clicks else m.clicks }
                (Session.continueLeg cfg { s with cmds := s.cmds.tail } redirects
                  (Live.onCommand cfg s.now ⟨s.actor, leg⟩ cmd)).state.actor := by
            intro hactive
            rw [((continueLeg_cases ..).2 hactive).2]
            exact primed_onCommand (l := ⟨s.actor, leg⟩) h cmd
          rw [hclicks]
          cases cmd with
          | close => exact absurd hafter shutdown_leaves.stage
          | _ => exact hcommand hafter

theorem primed_onLeg (hphase : s.phase = .active redirects leg) (h : Primed m s.actor) {e : Event Geometry}
    (he : (s.turn cfg e) = s.onLeg cfg redirects leg e)
    (hafter : (s.stepOn cfg e).after.phase.stage = .active) (hreceive : e ≠ .receive) :
    Primed (m.goOn cfg (s.stepOn cfg e)) (s.stepOn cfg e).after.actor := by
  have hclicked : GreeterLeg.clicked (s.stepOn cfg e) = false := by
    simp only [GreeterLeg.clicked, Session.stepOn, hphase]
    split
    · exact absurd rfl hreceive
    · rfl
  have hstep : (s.stepOn cfg e).after = (s.onLeg cfg redirects leg e).state := congrArg Outcome.state he
  rw [hstep] at hafter ⊢
  have hgoesOn : ∀ run : LegRun Geometry, (s.continueLeg cfg redirects run).state.phase.stage = .active →
      ∀ m', Primed m' run.state.actor → Primed m' (s.continueLeg cfg redirects run).state.actor := by
    intro run hactive m' hrun
    rw [((continueLeg_cases ..).2 hactive).2]
    exact hrun
  by_cases htick : e = .tick
  · subst htick
    have htypes : GreeterLeg.types cfg (s.stepOn cfg .tick) =
        Live.typesPassword cfg s.now ⟨s.actor, leg⟩ := by
      simp only [GreeterLeg.types, Session.stepOn, hphase]
    have hgoOn : m.goOn cfg (s.stepOn cfg .tick) =
        { m with typed := m.typed || Live.typesPassword cfg s.now ⟨s.actor, leg⟩ } := by
      simp only [GreeterLeg.goOn, hclicked, htypes, Bool.false_eq_true, if_false]
    rw [hgoOn]
    exact hgoesOn _ hafter _ (primed_onTick (l := ⟨s.actor, leg⟩) h)
  have htypes : GreeterLeg.types cfg (s.stepOn cfg e) = false := by
    simp only [GreeterLeg.types, Session.stepOn, hphase]
    split
    · exact absurd rfl htick
    · rfl
  rw [goOn_eq hclicked htypes]
  cases e with
  | readFailed error => exact absurd hafter (endLeg_leaves _).stage
  | pdu pdu => exact hgoesOn _ hafter _ (h.of_greeting (l := ⟨s.actor, leg⟩) (Live.onPdu_aloof ..).1)
  | present index =>
      exact hgoesOn _ hafter _ (h.of_greeting (l := ⟨s.actor, leg⟩) (Live.present_aloof ..).1)
  | flushAcks => exact hgoesOn _ hafter _ (h.of_greeting (l := ⟨s.actor, leg⟩) (Live.flushAcks_aloof _).1)
  | outputChanged => exact hgoesOn _ hafter _ (primed_onOutputSize (l := ⟨s.actor, leg⟩) h)
  | tick => exact absurd rfl htick
  | _ => exact h

theorem primed_activates {request : LegRequest} {e : Event Geometry}
    (hstage : s.phase.stage = .connecting request .finalizing)
    (hafter : (s.stepOn cfg e).after.phase.stage = .active) :
    Primed .start (s.stepOn cfg e).after.actor := by
  obtain ⟨redirects, hphase⟩ : ∃ redirects, s.phase = .connecting redirects request .finalizing := by
    cases hphase : s.phase with
    | connecting redirects request' handshake =>
        rw [hphase] at hstage
        obtain ⟨rfl, rfl⟩ := Stage.connecting.inj hstage
        exact ⟨redirects, rfl⟩
    | _ =>
        rw [hphase] at hstage
        cases hstage
  have hstays : ∀ s' : Session Geometry, s'.phase = s.phase → s'.phase.stage = .active → False := by
    intro s' hs' hactive
    rw [hs', hstage] at hactive
    cases hactive
  have hstep : (s.stepOn cfg e).after = (s.turn cfg e).state := rfl
  rw [hstep] at hafter ⊢
  cases e with
  | finalized desktop clipboard link =>
      have hup : ∀ s' : Session Geometry,
          (s'.continueLeg cfg redirects (Live.onActivated cfg s'.now
            ⟨s'.actor, Leg.new desktop clipboard link⟩)).state.phase.stage = .active →
          Primed .start (s'.continueLeg cfg redirects (Live.onActivated cfg s'.now
            ⟨s'.actor, Leg.new desktop clipboard link⟩)).state.actor := by
        intro s' hactive
        rw [((continueLeg_cases ..).2 hactive).2]
        exact primed_onActivated
      simp only [Session.turn, Session.onPhase, hphase, Session.onConnect, Session.activate] at hafter ⊢
      generalize redirects.onActivated desktop s.actor.scale = shown at hafter ⊢
      cases shown with
      | none => exact hup _ hafter
      | some state => exact hup _ hafter
  | connectFailed failure =>
      simp only [Session.turn, Session.onPhase, hphase, Session.onConnect] at hafter
      exact absurd hafter afterDisconnect_leaves.stage
  | noticeClosed =>
      simp only [Session.turn, Session.onPhase, hphase, Session.onConnect] at hafter
      split at hafter
      · exact absurd hafter exitUserClosed_leaves.stage
      · exact (hstays s rfl hafter).elim
  | receive =>
      simp only [Session.turn, Session.receive, hphase, Phase.loop] at hafter
      exact (hstays s rfl hafter).elim
  | send cmd =>
      refine (hstays (s.onApp (.send cmd)) ?_ hafter).elim
      simp only [Session.onApp]
      split <;> rfl
  | dropHandles => exact (hstays _ rfl hafter).elim
  | elapse time => exact (hstays _ rfl hafter).elim
  | _ =>
      simp only [Session.turn, Session.onPhase, hphase, Session.onConnect] at hafter
      exact (hstays s rfl hafter).elim

/-- The session shows its states, and the typist belongs to the leg that is up. -/
structure Greets (s : Session Geometry) (m : GreeterLeg) : Prop where
  shows_ : ∃ announced, Announced.Tracks s announced
  primed : s.phase.stage = .active → Primed m s.actor

theorem greets_step (h : Greets s m) (e : Event Geometry) :
    Greets (s.stepOn cfg e).after (m.watch cfg (s.stepOn cfg e)) := by
  obtain ⟨announced, htracks⟩ := h.shows_
  refine ⟨⟨_, (Announced.step_observed cfg htracks e).2⟩, fun hafter => ?_⟩
  by_cases hbefore : s.phase.stage = .active
  · obtain ⟨redirects, leg, hphase⟩ : ∃ redirects leg, s.phase = .active redirects leg := by
      cases hphase : s.phase with
      | active redirects leg => exact ⟨redirects, leg, rfl⟩
      | _ =>
          rw [hphase] at hbefore
          cases hbefore
    have hwatch : m.watch cfg (s.stepOn cfg e) = m.goOn cfg (s.stepOn cfg e) :=
      if_neg (by rw [GreeterLeg.activates, Session.stepOn, not_activates hbefore]; exact Bool.false_ne_true)
    have hprimed := h.primed hbefore
    rw [hwatch]
    have hleg : e ≠ .receive → s.turn cfg e = s.onLeg cfg redirects leg e →
        Primed (m.goOn cfg (s.stepOn cfg e)) (s.stepOn cfg e).after.actor := fun hreceive hturn =>
      primed_onLeg hphase hprimed hturn hafter hreceive
    have hturn : ∀ e : Event Geometry, s.onPhase cfg e = s.onLeg cfg redirects leg e := by
      intro e
      simp only [Session.onPhase, hphase]
    have happ : ∀ e : Event Geometry, (s.onApp e).actor = s.actor := by
      intro e
      cases e with
      | send cmd =>
          simp only [Session.onApp]
          split <;> rfl
      | _ => rfl
    cases e with
    | receive => exact primed_receive hphase hprimed hafter
    | send cmd =>
        rw [goOn_eq (by simp [GreeterLeg.clicked, Session.stepOn, hphase])
          (by simp [GreeterLeg.types, Session.stepOn, hphase])]
        exact hprimed.of_eq (congrArg (·.typist) (happ _)) fun hstate => by
          rw [← hstate]
          exact congrArg (·.io.state) (happ _)
    | dropHandles =>
        rw [goOn_eq (by simp [GreeterLeg.clicked, Session.stepOn, hphase])
          (by simp [GreeterLeg.types, Session.stepOn, hphase])]
        exact hprimed
    | elapse time =>
        rw [goOn_eq (by simp [GreeterLeg.clicked, Session.stepOn, hphase])
          (by simp [GreeterLeg.types, Session.stepOn, hphase])]
        exact hprimed
    | _ => exact hleg (fun heq => by cases heq) (hturn _)
  · obtain ⟨hactivates, request, hstage⟩ := activates_of_active hbefore hafter
    have hwatch : m.watch cfg (s.stepOn cfg e) = .start := if_pos hactivates
    rw [hwatch]
    exact primed_activates hstage hafter

theorem RedirectLoop.Shows.greeter {r : RedirectLoop} (h : r.Shows .awaitingGreeterLogin) :
    r.mode = .remoteLogin ∧ r.leg = 2 := by
  unfold RedirectLoop.Shows at h
  split_ifs at h with hfirst hgreeter
  · exact hgreeter
  · obtain ⟨desktop, scale, hconnected⟩ := h
    cases hconnected

/-- The input of a step on a leg. -/
theorem sent_active (hphase : s.phase = .active redirects leg) (e : Event Geometry) :
    inputFrames (s.stepOn cfg e).outs <+:
      (GreeterLeg.input cfg (s.stepOn cfg e)).toChunks FastPathInput.maxEvents := by
  have hgoesOn : ∀ (s' : Session Geometry) (run : LegRun Geometry), Inputless run →
      inputFrames (s'.continueLeg cfg redirects run).outs = [] := by
    intro s' run hrun
    rw [(continueLeg_cases ..).1, inputFrames_eq_nil hrun]
  have hsilent : ∀ r : Turn Geometry, s.turn cfg e = r → inputFrames r.outs = [] →
      inputFrames (s.stepOn cfg e).outs <+:
        (GreeterLeg.input cfg (s.stepOn cfg e)).toChunks FastPathInput.maxEvents := by
    intro r hr hnil
    have houts : (s.stepOn cfg e).outs = r.outs := congrArg Outcome.outs hr
    rw [houts, hnil]
    exact List.nil_prefix
  have hleg : ∀ e' : Event Geometry, s.onPhase cfg e' = s.onLeg cfg redirects leg e' := by
    intro e'
    simp only [Session.onPhase, hphase]
  cases e with
  | send cmd => exact hsilent _ rfl rfl
  | dropHandles => exact hsilent _ rfl rfl
  | elapse time => exact hsilent _ rfl rfl
  | receive =>
      have hturn : s.turn cfg .receive = s.receive cfg := rfl
      cases hnext : s.next with
      | none =>
          refine hsilent (.done s) ?_ rfl
          simp only [hturn, Session.receive, hphase, Phase.loop, hnext]
      | some next =>
          obtain ⟨s', cmd⟩ := next
          obtain ⟨rfl, hcmd, -⟩ := next_eq_some hnext
          have hreceive : inputFrames (s.stepOn cfg .receive).outs = inputFrames
              (Session.receiveActive cfg { s with cmds := s.cmds.tail } redirects leg cmd).outs := by
            simp only [Session.stepOn, Session.step, hturn, Session.receive, hphase, Phase.loop, hnext,
              Outcome.output, andThen_none, Session.handle, inputFrames_append]
            rfl
          have hinput : GreeterLeg.input cfg (s.stepOn cfg .receive) =
              cmd.elim [] fun cmd => cmd.inputOf s.actor.input := by
            simp only [GreeterLeg.input, Session.stepOn, hphase, hcmd]
          rw [hreceive, hinput]
          have hclosed : ∀ events : List (List FastPathInputEvent), inputFrames
              (Session.shutdown { s with cmds := s.cmds.tail } leg).outs <+: events := by
            intro events
            rw [inputFrames_eq_nil shutdown_leaves.inputless]
            exact List.nil_prefix
          cases cmd with
          | none => exact hclosed _
          | some cmd =>
              have hcommand := Live.inputFrames_onCommand cfg s.now ⟨s.actor, leg⟩ cmd
              have hcontinue := (continueLeg_cases cfg { s with cmds := s.cmds.tail } redirects
                (Live.onCommand cfg s.now ⟨s.actor, leg⟩ cmd)).1
              rw [← hcontinue] at hcommand
              cases cmd with
              | close => exact hclosed _
              | _ => exact hcommand
  | tick =>
      have hticked := Live.ticked cfg s.now ⟨s.actor, leg⟩
      have hturn : inputFrames (s.stepOn cfg .tick).outs =
          inputFrames (Live.onTick cfg s.now ⟨s.actor, leg⟩).outs := by
        simp only [Session.stepOn, Session.step, Session.turn, hleg, Session.onLeg]
        exact (continueLeg_cases ..).1
      rw [hturn]
      simp only [GreeterLeg.input, GreeterLeg.types, Session.stepOn, hphase]
      cases htypes : Live.typesPassword cfg s.now ⟨s.actor, leg⟩ with
      | true =>
          obtain ⟨password, hpassword, hsent⟩ := hticked.password htypes
          rw [if_pos rfl, hpassword]
          exact hsent
      | false =>
          rw [hticked.silent htypes]
          exact List.nil_prefix
  | readFailed error => exact hsilent _ (hleg _) (inputFrames_eq_nil (endLeg_leaves _).inputless)
  | pdu pdu => exact hsilent _ (hleg _) (hgoesOn _ _ (Live.onPdu_inputless _ _ _ pdu))
  | present index => exact hsilent _ (hleg _) (hgoesOn _ _ (Live.present_inputless _ index))
  | flushAcks => exact hsilent _ (hleg _) (hgoesOn _ _ (Live.flushAcks_inputless _))
  | outputChanged => exact hsilent _ (hleg _) (hgoesOn _ _ (Live.onOutputSize_inputless _))
  | _ => exact hsilent _ (hleg _) rfl

/-- The input of a step with which a leg comes up. -/
theorem sent_activates {request : LegRequest} {desktop : Size} {clipboard : Bool}
    {link : Option (Nat × IoFailure)} (hphase : s.phase = .connecting redirects request .finalizing) :
    inputFrames (s.stepOn cfg (.finalized desktop clipboard link)).outs <+: (GreeterLeg.input cfg
      (s.stepOn cfg (.finalized desktop clipboard link))).toChunks FastPathInput.maxEvents := by
  simp only [GreeterLeg.input, Session.stepOn, Session.step, Session.turn, Session.onPhase, Session.onConnect,
    hphase]
  exact inputFrames_activate

/-- A step sends the input that it has to send, and no other. -/
theorem step_sent (cfg : Config Geometry) (s : Session Geometry) (e : Event Geometry) :
    inputFrames (s.stepOn cfg e).outs <+:
      (GreeterLeg.input cfg (s.stepOn cfg e)).toChunks FastPathInput.maxEvents := by
  by_cases hactive : ∃ redirects leg, s.phase = .active redirects leg
  · obtain ⟨redirects, leg, hphase⟩ := hactive
    exact sent_active hphase e
  by_cases hup : ∃ redirects request desktop clipboard link,
      s.phase = .connecting redirects request .finalizing ∧ e = .finalized desktop clipboard link
  · obtain ⟨redirects, request, desktop, clipboard, link, hphase, rfl⟩ := hup
    exact sent_activates hphase
  have hturn : Inputless (s.turn cfg e) :=
    turn_inputless (fun redirects leg hphase => hactive ⟨redirects, leg, hphase⟩)
      fun redirects request desktop clipboard link hphase he =>
        hup ⟨redirects, request, desktop, clipboard, link, hphase, he⟩
  have hnil : inputFrames (s.stepOn cfg e).outs = [] := inputFrames_eq_nil hturn
  rw [hnil]
  exact List.nil_prefix

/-- The password is typed where it may be. -/
theorem mayType_of_types (h : Greets s m) {e : Event Geometry}
    (htypes : GreeterLeg.types cfg (s.stepOn cfg e) = true) : m.MayType (s.stepOn cfg e) := by
  cases hphase : s.phase with
  | active redirects leg =>
      have htick : e = .tick := by
        unfold GreeterLeg.types at htypes
        split at htypes
        · next hinput => exact hinput
        · cases htypes
      subst htick
      have hticked := Live.ticked cfg s.now ⟨s.actor, leg⟩
      have htyped : Live.typesPassword cfg s.now ⟨s.actor, leg⟩ = true := by
        simpa only [GreeterLeg.types, Session.stepOn, hphase] using htypes
      have hprimed := h.primed (by rw [hphase]; rfl)
      obtain ⟨harmed, due, hdue, hpassed⟩ := hticked.armed htyped
      obtain ⟨hstate, hfirst⟩ := hprimed.armed harmed
      obtain ⟨click, hclick, rfl⟩ := hprimed.due due hdue
      obtain ⟨announced, htracks⟩ := h.shows_
      have hshows : redirects.Shows s.actor.io.state := by
        rcases htracks with hshows | ⟨hexited, -⟩
        · have hleg := hshows.phase
          rw [hphase] at hleg
          exact hleg
        · rw [hphase] at hexited
          cases hexited
      rw [hstate] at hshows
      obtain ⟨hmode, hleg⟩ := hshows.greeter
      exact ⟨⟨redirects, leg, hphase, hmode, hleg⟩, hstate, hfirst, click, hclick, hpassed⟩
  | _ => simp only [GreeterLeg.types, Session.stepOn, hphase, Bool.false_eq_true] at htypes

/-- **The password.** In every run of a session the stored password is typed only on the greeter leg of a
remote login, while it is up and the greeter awaits a login, at most once on each such leg, and at least
`typeDelay` after the leg received the release of the left button; and no step sends any other input than
what the app asked for with it, or what a new leg is told is held. -/
theorem greeter_steps (cfg : Config Geometry) (es : List (Event Geometry)) :
    Holds (GreeterLeg.watch cfg) (GreeterLeg.Observed cfg) .start (Session.steps cfg es) := by
  have hnew : Greets (Session.new cfg) .start := ⟨⟨_, Announced.tracks_start cfg⟩, nofun⟩
  refine (run_holds Greets ?_ hnew
    (along_of_forall (P := fun _ _ _ => True) (fun _ _ _ => trivial) _ _ es)).1
  intro s m e h _
  exact ⟨⟨⟨mayType_of_types h, step_sent cfg s e⟩, trivial⟩, greets_step h e⟩

end Steps

end Drift.Rdp
