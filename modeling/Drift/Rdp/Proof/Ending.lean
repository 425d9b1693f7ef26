import Drift.Lib.Fair
import Drift.Rdp.Proof.Announced
import Drift.Rdp.Record

/-!
# The end of a session

Once the app has closed a session, or has dropped its handles, the actor comes to its end as soon as its
loops get their turns. The last event is the end of the session, unless the actor ends out of a settled
state.
-/

namespace Drift.Rdp

open Outcome Transition

variable {Geometry : Type}

/-! ### Progress -/

/-- The commands that wait before the end of the session. -/
def pending (cmds : List (SessionCommand Geometry)) : Nat :=
  (cmds.takeWhile fun cmd => !(cmd matches .close)).length

/-- The commands before the end of the session, and the phases, that are still to come. -/
def Session.toGo (s : Session Geometry) : Nat :=
  if s.phase.rank ≤ 1 then s.phase.rank else s.phase.rank + pending s.cmds

/-- What brings a closed session closer to its end. -/
def Session.need (s : Session Geometry) : Event Geometry :=
  if s.phase.rank ≤ 1 then .shutdownOver else if s.phase.rank = 2 then .receive else .noticeClosed

/-- A closed session is at its end, or knows of it. -/
def Session.KnowsEnd (s : Session Geometry) : Prop :=
  s.closed = true → s.phase.rank ≤ 1 ∨ .close ∈ s.cmds ∨ s.handles = false

theorem pending_append {cmds : List (SessionCommand Geometry)} (h : .close ∈ cmds)
    (more : List (SessionCommand Geometry)) : pending (cmds ++ more) = pending cmds := by
  induction cmds with
  | nil => cases h
  | cons cmd cmds ih =>
      cases cmd with
      | close => rfl
      | _ =>
          have hrest : .close ∈ cmds := by simpa using h
          simpa [pending] using ih hrest

/-- A command other than the end of the session is one fewer to wait for. -/
theorem pending_tail {cmds : List (SessionCommand Geometry)} {cmd : SessionCommand Geometry}
    (hhead : cmds.head? = some cmd) (hcmd : cmd ≠ .close) :
    pending cmds = pending cmds.tail + 1 := by
  cases cmds with
  | nil => cases hhead
  | cons first rest =>
      cases hhead
      cases cmd with
      | close => exact absurd rfl hcmd
      | _ => simp [pending]

theorem pending_le (cmds : List (SessionCommand Geometry)) : pending cmds ≤ cmds.length :=
  (List.takeWhile_sublist _).length_le

section Closed

variable [BEq Geometry] {s : Session Geometry} {cfg : Config Geometry}

omit [BEq Geometry] in
theorem phase_exitUserClosed (s : Session Geometry) : s.exitUserClosed.state.phase = .exited := rfl

omit [BEq Geometry] in
theorem phase_connectLoop (hclosed : s.closed = true) :
    (s.connectLoop cfg).state.phase = .exited := by
  unfold Session.connectLoop Session.connectOne
  simp only [hclosed, if_true]
  exact phase_exitUserClosed _

theorem handle_ends {cmd : Option (SessionCommand Geometry)} (hloop : s.phase.loop.isSome = true)
    (hclosed : s.closed = true) (hcmd : cmd = none ∨ cmd = some .close) :
    (s.handle cfg cmd).state.phase.rank ≤ 1 := by
  rw [Session.handle_of_close hcmd, Session.onClose]
  cases hphase : s.phase with
  | startUp =>
      simp only
      rw [phase_connectLoop hclosed]
      exact Nat.zero_le 1
  | prompting redirects request leafDer => exact Nat.zero_le 1
  | active redirects leg =>
      unfold Session.shutdown
      simp only [andThen_none]
      split
      · exact Nat.le_refl 1
      · exact Nat.zero_le 1
  | backoff deadline reason => exact Nat.zero_le 1
  | idle => exact Nat.zero_le 1
  | connecting redirects request handshake =>
      rw [hphase] at hloop
      cases hloop
  | shuttingDown leg =>
      rw [hphase] at hloop
      cases hloop
  | exited =>
      rw [hphase] at hloop
      cases hloop

omit [BEq Geometry] in
/-- The phases whose loop receives are the ones that wait for it, and the prompt. -/
theorem loop_isSome_of_rank {p : Phase Geometry} (h : p.rank = 2) : p.loop.isSome = true := by
  cases p with
  | connecting redirects request handshake => cases handshake <;> cases h
  | prompting redirects request leafDer => cases h
  | shuttingDown leg => cases h
  | exited => cases h
  | _ => rfl

omit [BEq Geometry] in
theorem rank_of_loop {p : Phase Geometry} {loop : CommandLoop} (h : p.loop = some loop) :
    2 ≤ p.rank := by
  cases p with
  | connecting redirects request handshake => cases h
  | prompting redirects request leafDer => exact Nat.le_add_left 2 2
  | shuttingDown leg => cases h
  | exited => cases h
  | _ => exact Nat.le_refl 2

/-- A session at hand: it shows its states, or the actor is gone. -/
def Session.AtHand (s : Session Geometry) : Prop := (∃ m, s.Shows m) ∨ s.phase = .exited

omit [BEq Geometry] in
theorem closed_mailboxAfter {e : Event Geometry} (hclosed : s.closed = true) :
    (s.mailboxAfter e).closed = true := by
  cases e with
  | send cmd =>
      simp only [Session.mailboxAfter, Session.onApp]
      split
      · simp [Session.mailbox, hclosed]
      · exact hclosed
  | dropHandles => rfl
  | receive =>
      simp only [Session.mailboxAfter]
      split
      · next s' cmd _ hnext =>
          obtain ⟨rfl, -, -⟩ := next_eq_some hnext
          exact hclosed
      · exact hclosed
  | _ => exact hclosed

variable (cfg) in
/-- A turn leaves the mailbox as it should be, and gets no further in a closed session, or it is the last
one. -/
theorem turn_lands (h : s.AtHand) (e : Event Geometry) :
    (s.turn cfg e).state.AtHand ∧
      (s.turn cfg e).state.closed = (s.mailboxAfter e).closed ∧
      ((s.turn cfg e).state.closed = true → (s.turn cfg e).state.phase.rank ≤ s.phase.rank) ∧
      ((s.turn cfg e).state.phase = .exited ∨
        (s.turn cfg e).state.mailbox = s.mailboxAfter e) := by
  rcases h with ⟨m, h⟩ | hphase
  · cases hsettled : s.endsSettled e with
    | false =>
        have hlands := (turn_announces cfg h e hsettled).post
        have hclosed := congrArg Mailbox.closed hlands.mailbox
        refine ⟨.inl ⟨_, hlands.shows_⟩, hclosed, ?_, .inr hlands.mailbox⟩
        intro hc
        exact hlands.rank_le (hclosed.symm.trans hc)
    | true =>
        obtain ⟨hexited, hclosed, -, -⟩ := turn_endsSettled cfg h hsettled
        refine ⟨.inr hexited, ?_, fun _ => by rw [hexited]; exact Nat.zero_le _, .inl hexited⟩
        rw [hclosed]
        cases e with
        | receive =>
            simp only [Session.mailboxAfter]
            split
            · next s' cmd _ hnext =>
                obtain ⟨rfl, -, -⟩ := next_eq_some hnext
                rfl
            · rfl
        | _ => cases hsettled
  · have hexited := (turn_exited cfg hphase e).2.1
    refine ⟨.inr hexited, ?_, fun _ => by rw [hexited]; exact Nat.zero_le _, .inl hexited⟩
    cases e with
    | receive => simp [Session.turn, Session.receive, Session.mailboxAfter, hphase, Phase.loop,
        Outcome.done, Session.mailbox]
    | send cmd => rfl
    | dropHandles => rfl
    | elapse time => rfl
    | _ => simp [Session.turn, Session.onPhase, hphase, Session.mailboxAfter, Session.onApp,
        Outcome.done, Session.mailbox]

theorem turn_receive {loop : CommandLoop} {cmd : Option (SessionCommand Geometry)}
    {s' : Session Geometry} (hloop : s.phase.loop = some loop) (hnext : s.next = some (s', cmd)) :
    (s.turn cfg .receive).state = (s'.handle cfg cmd).state := by
  simp [Session.turn, Session.receive, hloop, hnext, Outcome.output]

theorem turn_knowsEnd (h : s.AtHand) (hknows : s.KnowsEnd) (e : Event Geometry) :
    (s.turn cfg e).state.KnowsEnd := by
  intro hclosed
  obtain ⟨-, hafter, hrank, hmailbox⟩ := turn_lands cfg h e
  have hrank := hrank hclosed
  rcases hmailbox with hexited | hmailbox
  · exact .inl (by rw [hexited]; exact Nat.zero_le 1)
  have hcmds : (s.turn cfg e).state.cmds = (s.mailboxAfter e).cmds := congrArg Mailbox.cmds hmailbox
  have hhandles : (s.turn cfg e).state.handles = (s.mailboxAfter e).handles :=
    congrArg Mailbox.handles hmailbox
  rw [hafter] at hclosed
  have hsame : s.closed = true → (s.mailboxAfter e).cmds = s.cmds →
      (s.mailboxAfter e).handles = s.handles → (s.turn cfg e).state.phase.rank ≤ 1 ∨
        .close ∈ (s.turn cfg e).state.cmds ∨ (s.turn cfg e).state.handles = false := by
    intro hc hcmds' hhandles'
    rw [hcmds, hhandles, hcmds', hhandles']
    exact (hknows hc).imp_left (Nat.le_trans hrank)
  cases e with
  | send cmd =>
      simp only [Session.mailboxAfter, Session.onApp] at hclosed hcmds hhandles
      by_cases hopen : s.handles = true
      · rw [if_pos hopen] at hclosed hcmds hhandles
        rw [hcmds, hhandles]
        cases cmd with
        | close => exact .inr (.inl (List.mem_append_right _ List.mem_cons_self))
        | _ =>
            have hc : s.closed = true := by simpa [Session.mailbox] using hclosed
            rcases hknows hc with hdone | hmem | hdropped
            · exact .inl (Nat.le_trans hrank hdone)
            · exact .inr (.inl (List.mem_append_left _ hmem))
            · exact .inr (.inr hdropped)
      · refine .inr (.inr ?_)
        rw [hhandles, if_neg hopen]
        exact Bool.eq_false_iff.mpr hopen
  | dropHandles => exact .inr (.inr hhandles)
  | receive =>
      cases hloop : s.phase.loop with
      | none =>
          refine hsame ?_ ?_ ?_ <;> simp_all [Session.mailboxAfter, Session.mailbox]
      | some loop =>
          cases hnext : s.next with
          | none =>
              refine hsame ?_ ?_ ?_ <;> simp_all [Session.mailboxAfter, Session.mailbox]
          | some next =>
              obtain ⟨s', cmd⟩ := next
              obtain ⟨rfl, hcmd, hnone⟩ := next_eq_some hnext
              simp only [Session.mailboxAfter, hloop, hnext] at hclosed hcmds hhandles
              have hc : s.closed = true := hclosed
              by_cases hend : cmd = none ∨ cmd = some .close
              · refine .inl ?_
                rw [turn_receive hloop hnext]
                exact handle_ends (by simp [hloop]) hc hend
              · rw [not_or] at hend
                rcases hknows hc with hdone | hmem | hdropped
                · have hrank2 := rank_of_loop hloop
                  omega
                · refine .inr (.inl ?_)
                  rw [hcmds]
                  cases hlist : s.cmds with
                  | nil =>
                      rw [hlist] at hmem
                      cases hmem
                  | cons first rest =>
                      rw [hlist] at hmem hcmd
                      rcases List.mem_cons.mp hmem with hfirst | hrest
                      · rw [← hfirst] at hcmd
                        exact absurd hcmd hend.2
                      · simpa [Session.mailbox, hlist] using hrest
                · exact .inr (.inr (hhandles.trans hdropped))
  | _ => exact hsame hclosed rfl rfl

def Session.Closing (s : Session Geometry) : Prop := s.AtHand ∧ s.KnowsEnd ∧ s.closed = true

theorem turn_closing (h : s.Closing) (e : Event Geometry) : (s.turn cfg e).state.Closing := by
  obtain ⟨hhand, hknows, hclosed⟩ := h
  obtain ⟨hhand', hclosed', -, -⟩ := turn_lands cfg hhand e
  exact ⟨hhand', turn_knowsEnd hhand hknows e, hclosed'.trans (closed_mailboxAfter hclosed)⟩

variable (cfg) in
/-- If a turn does not end the session, then no command but the end of it is at the head of the queue. -/
theorem turn_receive_rank (h : s.Closing) {loop : CommandLoop} {s' : Session Geometry}
    {cmd : Option (SessionCommand Geometry)} (hloop : s.phase.loop = some loop)
    (hnext : s.next = some (s', cmd)) (hend : cmd = none ∨ cmd = some .close) :
    (s.turn cfg .receive).state.phase.rank ≤ 1 := by
  obtain ⟨rfl, -, -⟩ := next_eq_some hnext
  rw [turn_receive hloop hnext]
  exact handle_ends (by simp [hloop]) h.2.2 hend

variable (cfg) in
theorem pending_turn (h : s.Closing) (e : Event Geometry)
    (hmore : 2 ≤ (s.turn cfg e).state.phase.rank) :
    pending (s.turn cfg e).state.cmds ≤ pending s.cmds := by
  obtain ⟨-, -, hrank, hmailbox⟩ := turn_lands cfg h.1 e
  have hrank := hrank (turn_closing h e).2.2
  rcases hmailbox with hexited | hmailbox
  · rw [hexited] at hmore
    cases hmore
  have hcmds : (s.turn cfg e).state.cmds = (s.mailboxAfter e).cmds := congrArg Mailbox.cmds hmailbox
  rw [hcmds]
  cases e with
  | send cmd =>
      simp only [Session.mailboxAfter, Session.onApp]
      split
      · next hopen =>
          rcases h.2.1 h.2.2 with hdone | hmem | hdropped
          · omega
          · exact Nat.le_of_eq (pending_append hmem [cmd])
          · rw [hdropped] at hopen
            cases hopen
      · exact Nat.le_refl _
  | receive =>
      simp only [Session.mailboxAfter]
      split
      · next s' cmd hloop hnext =>
          have hgo : ¬ (cmd = none ∨ cmd = some .close) := by
            intro hend
            have hover := turn_receive_rank cfg h hloop hnext hend
            omega
          obtain ⟨rfl, hcmd, -⟩ := next_eq_some hnext
          obtain ⟨first, rfl⟩ := Option.ne_none_iff_exists'.mp fun hnone => hgo (.inl hnone)
          rw [pending_tail hcmd.symm fun hclose => hgo (.inr (by rw [hclose]))]
          exact Nat.le_succ _
      · exact Nat.le_refl _
  | _ => exact Nat.le_refl _

variable (cfg) in
theorem toGo_turn_le (h : s.Closing) (e : Event Geometry) :
    (s.turn cfg e).state.toGo ≤ s.toGo ∧
      ((s.turn cfg e).state.toGo = s.toGo → (s.turn cfg e).state.phase.rank = s.phase.rank) := by
  have hrank := (turn_lands cfg h.1 e).2.2.1 (turn_closing h e).2.2
  have hpending := pending_turn cfg h e
  unfold Session.toGo
  split_ifs with hdone hdone' <;> omega

/-- A loop that is given its turn takes a command, or finds the end of the session. -/
theorem toGo_turn_receive (h : s.Closing) (hrank : s.phase.rank = 2) :
    (s.turn cfg s.need).state.toGo < s.toGo := by
  have hneed : s.need = .receive := by simp [Session.need, hrank]
  have htoGo : s.toGo = 2 + pending s.cmds := by simp [Session.toGo, hrank]
  rw [hneed, htoGo]
  have hlow : (s.turn cfg .receive).state.phase.rank ≤ 1 →
      (s.turn cfg .receive).state.toGo < 2 + pending s.cmds := by
    intro hlow
    rw [Session.toGo, if_pos hlow]
    omega
  obtain ⟨loop, hloop⟩ := Option.isSome_iff_exists.mp (loop_isSome_of_rank hrank)
  have hnext : s.next.isSome = true := by
    rcases h.2.1 h.2.2 with hdone | hmem | hdropped
    · omega
    · unfold Session.next
      cases hcmds : s.cmds with
      | nil =>
          rw [hcmds] at hmem
          cases hmem
      | cons cmd rest => rfl
    · unfold Session.next
      cases hcmds : s.cmds with
      | nil => simp [hdropped]
      | cons cmd rest => rfl
  obtain ⟨⟨s', cmd⟩, hnext⟩ := Option.isSome_iff_exists.mp hnext
  by_cases hend : cmd = none ∨ cmd = some .close
  · exact hlow (turn_receive_rank cfg h hloop hnext hend)
  · rw [not_or] at hend
    obtain ⟨-, -, hle, hmailbox⟩ := turn_lands cfg h.1 .receive
    have hle := hle (turn_closing h .receive).2.2
    rcases hmailbox with hexited | hmailbox
    · apply hlow
      rw [hexited]
      exact Nat.zero_le 1
    · have hcmds := congrArg Mailbox.cmds hmailbox
      simp only [Session.mailboxAfter, hloop, hnext] at hcmds
      obtain ⟨rfl, hcmd, -⟩ := next_eq_some hnext
      obtain ⟨first, rfl⟩ := Option.ne_none_iff_exists'.mp hend.1
      have htail := pending_tail hcmd.symm fun hclose => hend.2 (by rw [hclose])
      have hqueue : (s.turn cfg .receive).state.cmds = s.cmds.tail := hcmds
      rw [Session.toGo, hqueue]
      split_ifs <;> omega

theorem toGo_turn_need (h : s.Closing) (hpos : s.toGo ≠ 0) :
    (s.turn cfg s.need).state.toGo < s.toGo := by
  have hends : ∀ e, (s.turn cfg e).state.phase = .exited → (s.turn cfg e).state.toGo < s.toGo := by
    intro e hexited
    have hzero : (s.turn cfg e).state.toGo = 0 := by
      unfold Session.toGo
      rw [hexited]
      rfl
    omega
  cases hphase : s.phase with
  | exited =>
      unfold Session.toGo at hpos
      rw [hphase] at hpos
      exact absurd rfl hpos
  | shuttingDown leg =>
      have hneed : s.need = .shutdownOver := by
        unfold Session.need
        rw [hphase]
        rfl
      rw [hneed]
      refine hends _ ?_
      simp only [Session.turn, Session.onPhase, hphase]
      exact phase_exitUserClosed s
  | connecting redirects request handshake =>
      have hneed : s.need = .noticeClosed := by
        unfold Session.need
        rw [hphase]
        cases handshake <;> rfl
      rw [hneed]
      refine hends _ ?_
      simp only [Session.turn, Session.onPhase, hphase]
      cases handshake <;> simp [Session.onConnect, h.2.2, phase_exitUserClosed]
  | prompting redirects request leafDer =>
      have hneed : s.need = .noticeClosed := by
        unfold Session.need
        rw [hphase]
        rfl
      rw [hneed]
      refine hends _ ?_
      simp [Session.turn, Session.onPhase, hphase, h.2.2, phase_exitUserClosed]
  | _ =>
      apply toGo_turn_receive h
      rw [hphase]
      rfl

omit [BEq Geometry] in
theorem toGo_le (s : Session Geometry) : s.toGo ≤ s.cmds.length + 6 := by
  have hpending := pending_le s.cmds
  have hrank : s.phase.rank ≤ 6 := by
    cases s.phase with
    | connecting redirects request handshake => cases handshake <;> simp [Phase.rank]
    | _ => simp [Phase.rank]
  unfold Session.toGo
  split_ifs <;> omega

theorem step_progress (cfg : Config Geometry) :
    Progress (Session.step cfg) Session.Closing Session.toGo Session.need where
  kept s e h := turn_closing h e
  le s e h := (toGo_turn_le cfg h e).1
  stays s e h hsame := by
    have hrank := (toGo_turn_le cfg h e).2 hsame
    simp only [Session.need, Session.step, hrank]
  lt s h hpos := toGo_turn_need h hpos

omit [BEq Geometry] in
theorem exited_of_toGo {s : Session Geometry} (h : s.toGo = 0) : s.phase = .exited := by
  have hrank : s.phase.rank = 0 := by
    unfold Session.toGo at h
    split at h
    · exact h
    · omega
  cases hphase : s.phase with
  | exited => rfl
  | connecting redirects request handshake =>
      rw [hphase] at hrank
      cases handshake <;> cases hrank
  | _ =>
      rw [hphase] at hrank
      cases hrank

theorem history_knowsEnd (cfg : Config Geometry) (es : List (Event Geometry)) :
    (Session.history cfg es).1.AtHand ∧ (Session.history cfg es).1.KnowsEnd := by
  have hstart : (Session.new cfg).AtHand ∧ (Session.new cfg).KnowsEnd :=
    ⟨.inl ⟨.start, ⟨rfl, rfl, rfl, trivial, nofun⟩⟩, nofun⟩
  refine run_invariant (fun s : Session Geometry => s.AtHand ∧ s.KnowsEnd) ?_ hstart es
  intro s e ⟨hhand, hknows⟩
  exact ⟨(turn_lands cfg hhand e).1, turn_knowsEnd hhand hknows e⟩

end Closed

/-! ### The last event -/

namespace Announced

variable [BEq Geometry] {s : Session Geometry} {m : Announced}

/-- No step of the run ends the actor out of a settled state. -/
abbrev NeverEndsSettled (cfg : Config Geometry) (es : List (Event Geometry)) : Prop :=
  Along (Session.step cfg) hear (fun s _ e => s.endsSettled e = false) (.new cfg) .start es

/-- A state that was the last event is the one shown. -/
def Current (m : Announced) : Prop := ∀ state, m.last = some (.state state) → m.state = state

omit [BEq Geometry] in
theorem Current.hear (h : m.Current) (o : Out Geometry) : (m.hear o).Current := by
  cases o with
  | event event =>
      cases event with
      | state state =>
          rintro _ ⟨⟩
          rfl
      | _ =>
          intro state hlast
          cases hlast
  | _ => exact h

omit [BEq Geometry] in
theorem Current.foldl (h : m.Current) (os : List (Out Geometry)) :
    (os.foldl Announced.hear m).Current := by
  induction os generalizing m with
  | nil => exact h
  | cons o os ih => exact ih (h.hear o)

def EndedSettled (s : Session Geometry) (m : Announced) : Prop :=
  s.phase = .exited ∧ m.last ≠ some (.state (.disconnected .userClosed))

theorem endedSettled_turn {cfg : Config Geometry} (h : s.Shows m) (hcurrent : m.Current)
    {e : Event Geometry} (hsettled : s.endsSettled e = true) :
    EndedSettled (s.turn cfg e).state ((s.turn cfg e).outs.foldl hear m) := by
  obtain ⟨hexited, -, -, houts⟩ := turn_endsSettled cfg h hsettled
  have hsame : (s.turn cfg e).outs.foldl hear m = m := by
    apply foldl_eq_self
    intro o ho
    rcases houts o ho with ⟨loop, cmd, rfl⟩ | ⟨rfl, -⟩ <;> rfl
  rw [hsame]
  refine ⟨hexited, fun hlast => ?_⟩
  have hstate : s.actor.io.state = .disconnected .userClosed := h.state ▸ hcurrent _ hlast
  have hidle : s.phase = .idle := by
    unfold Session.endsSettled at hsettled
    split at hsettled
    · split at hsettled
      · next hphase _ => exact hphase
      · next hphase _ => exact hphase
      · next hphase _ => exact hphase
      · cases hsettled
    · cases hsettled
  have hphase := h.phase
  rw [hidle, hstate] at hphase
  obtain ⟨reason, hreason, hshown | hshown⟩ := hphase
  · cases hshown
    exact hreason rfl
  · cases hshown

/-- The app is shown the end of the session, or the actor ended out of a settled state. -/
theorem history_ends (cfg : Config Geometry) (es : List (Event Geometry)) :
    let m := (Session.history cfg es).2.foldl hear start
    NeverEndsSettled cfg es ∧ ((Session.history cfg es).1.Shows m ∧ m.Current) ∨
      ¬ NeverEndsSettled cfg es ∧ EndedSettled (Session.history cfg es).1 m := by
  have hstart : (Session.new cfg).Shows start ∧ start.Current :=
    ⟨⟨rfl, rfl, rfl, trivial, nofun⟩, fun _ hlast => nomatch hlast⟩
  refine run_along_or (fun (s : Session Geometry) m => s.Shows m ∧ m.Current) EndedSettled ?_ ?_ ?_
    hstart es
  · intro s m e ⟨hshows, hcurrent⟩ hsettled
    exact ⟨(turn_announces cfg hshows e hsettled).post.shows_, hcurrent.foldl _⟩
  · intro s m e ⟨hshows, hcurrent⟩ hsettled
    exact endedSettled_turn hshows hcurrent (by simpa using hsettled)
  · intro s m e ⟨hexited, hlast⟩
    obtain ⟨houts, hexited', -⟩ := turn_exited cfg hexited e
    refine ⟨hexited', ?_⟩
    simpa [Session.step, houts] using hlast

/-- **The end of a session.** Once the app has closed the session or dropped its handles, and every loop
had its turns, the actor is gone and nothing follows. The last event is the end of the session exactly
when the actor did not end out of a settled state. -/
theorem close_ends (cfg : Config Geometry) (es later : List (Event Geometry))
    (rounds : List (List (Event Geometry))) (hclosed : (Session.history cfg es).1.closed = true)
    (hfair : ∀ round ∈ rounds, IsRound round)
    (henough : (Session.history cfg es).1.cmds.length + 6 ≤ rounds.length) :
    let whole := es ++ rounds.flatten
    (Session.history cfg whole).1.phase = .exited ∧
      (Session.history cfg (whole ++ later)).2 = (Session.history cfg whole).2 ∧
      (((Session.history cfg whole).2.foldl hear start).last =
        some (.state (.disconnected .userClosed)) ↔ NeverEndsSettled cfg whole) := by
  intro whole
  have hexited : (Session.history cfg whole).1.phase = .exited := by
    obtain ⟨hhand, hknows⟩ := history_knowsEnd cfg es
    have hneed : ∀ round ∈ rounds, ∀ s : Session Geometry, s.Closing → s.need ∈ round := by
      intro round hround s _
      obtain ⟨hreceive, hnotice, hover⟩ := hfair round hround
      unfold Session.need
      split_ifs
      · exact hover
      · exact hreceive
      · exact hnotice
    have hdone := (step_progress cfg).run_rounds ⟨hhand, hknows, hclosed⟩ hneed
      ((toGo_le _).trans henough)
    apply exited_of_toGo
    rw [Session.history, run_append]
    exact hdone
  refine ⟨hexited, ?_, ?_⟩
  · have hquiet : ∀ s : Session Geometry, s.phase = .exited →
        (run (Session.step cfg) s later).2 = [] := by
      intro s hs
      induction later generalizing s with
      | nil => rfl
      | cons e later ih =>
          obtain ⟨houts, hexited', -⟩ := turn_exited cfg hs e
          have hrest := ih _ hexited'
          rw [run_cons]
          simp only [Session.step, houts, List.nil_append]
          exact hrest
    have hrest := hquiet _ hexited
    unfold Session.history at hrest ⊢
    rw [run_append, hrest, List.append_nil]
  · rcases history_ends cfg whole with ⟨halong, hshows, -⟩ | ⟨hnot, -, hlast⟩
    · exact iff_of_true (hshows.ended hexited) halong
    · exact iff_of_false hlast hnot

def turns (count : Nat) : List (List (Event Nat)) :=
  List.replicate count [.receive, .noticeClosed, .shutdownOver]

def closesActive : List (Event Nat) := [.graceOver] ++ connects [] ++ [.send .close]

theorem close_ends_closesActive :
    let cfg := sampleConfig (some [])
    let whole := closesActive ++ (turns 7).flatten
    (Session.history cfg whole).1.phase = .exited ∧
      (Session.history cfg (whole ++ [.receive])).2 = (Session.history cfg whole).2 ∧
      (((Session.history cfg whole).2.foldl hear start).last =
        some (.state (.disconnected .userClosed)) ↔ NeverEndsSettled cfg whole) := by
  have hfair : ∀ round ∈ turns 7, IsRound round := by
    intro round hround
    rw [List.eq_of_mem_replicate hround]
    simp [IsRound]
  exact close_ends (sampleConfig (some [])) closesActive [.receive] (turns 7) (by decide) hfair
    (by decide)

/-- An attempt to connect fails before the session is closed in one of two ways. -/
def closedLate (ending : Event Nat) : Session Nat × List (Out Nat) :=
  Session.history (sampleConfig (some []))
    ([.graceOver, .connectFailed .timeout, ending] ++ (turns 7).flatten)

/-- The app closes the session, or drops its handles, after an attempt to connect failed: the failure
stays the last event. -/
theorem not_close_ends :
    ((closedLate (.send .close)).1.closed = true ∧
      ((closedLate (.send .close)).1.phase matches .exited) = true ∧
      ((closedLate (.send .close)).2.foldl hear start).last ≠
        some (.state (.disconnected .userClosed))) ∧
    (closedLate .dropHandles).1.closed = true ∧
      ((closedLate .dropHandles).1.phase matches .exited) = true ∧
      ((closedLate .dropHandles).2.foldl hear start).last ≠
        some (.state (.disconnected .userClosed)) := by
  decide

end Announced

end Drift.Rdp
