import Drift.App.Proof.Ledger

/-!
# Sessions end before the next ones start

A window is given to one task at a time, as long as no call opens a window whose last session is still
to be ended. Then no session is lost, and the windows are free for the sessions that are started.
-/

namespace Drift.App

open Custody Transition

namespace Manager

variable {s s' : Manager} {a : Action} {os : List Out} {window w : String} {i j : TaskId}
  {t t' : Task} {p : Pump} {m : Sessions} {x : String × SessionId}

/-! ### One task for a window -/

/-- A task that opens a window is alone with it, and the window has no session. -/
structure Exclusive (s : Manager) : Prop where
  alone : ∀ {w : String} {i j : TaskId} {t t' : Task}, s.tasks[i]? = some t → t.isOpening w = true →
    s.tasks[j]? = some t' → t'.isBusy w = true → j = i
  vacant : ∀ {w}, s.opens w = true → s.live w = none

theorem isBusy_of_isOpening (h : t.isOpening window = true) : t.isBusy window = true := by
  cases t <;> first | exact h | cases h

theorem Exclusive.opens_eq_false (h : s.Exclusive) {live : Live}
    (hlive : s.live window = some live) : s.opens window = false := by
  cases hopens : s.opens window with
  | false => rfl
  | true => rw [h.vacant hopens] at hlive; cases hlive

/-- A task goes on that has no more to do with the windows than before. -/
theorem Exclusive.set (h : s.Exclusive) (htask : s.tasks[i]? = some t)
    (htasks : s'.tasks = s.tasks.set i t')
    (hopening : ∀ w, t'.isOpening w = true → t.isOpening w = true)
    (hbusy : ∀ w, t'.isBusy w = true → t.isBusy w = true ∨ s.opens w = false)
    (hlive : ∀ w, s.opens w = true → s.live w = none → s'.live w = none) : s'.Exclusive := by
  have hback : ∀ {w : String} {j : TaskId} {u : Task}, s'.tasks[j]? = some u → u.isOpening w = true →
      ∃ u : Task, s.tasks[j]? = some u ∧ u.isOpening w = true := by
    intro w j u hu hopen
    rw [htasks, List.getElem?_set] at hu
    split_ifs at hu with hij
    · obtain rfl := Option.some.inj hu
      subst hij
      exact ⟨t, htask, hopening w hopen⟩
    · exact ⟨u, hu, hopen⟩
  constructor
  · intro w j k u u' hu hopen hu' hbusy'
    obtain ⟨v, hv, hvopen⟩ := hback hu hopen
    rw [htasks, List.getElem?_set] at hu'
    split_ifs at hu' with hik
    · obtain rfl := Option.some.inj hu'
      subst hik
      rcases hbusy w hbusy' with hsame | hfree
      · exact h.alone hv hvopen htask hsame
      · rw [opens_of_getElem? hv hvopen] at hfree
        cases hfree
    · exact h.alone hv hvopen hu' hbusy'
  · intro w hopens
    obtain ⟨j, u, hu, hopen⟩ := opens_eq_true.mp hopens
    obtain ⟨v, hv, hvopen⟩ := hback hu hopen
    exact hlive w (opens_of_getElem? hv hvopen) (h.vacant (opens_of_getElem? hv hvopen))

theorem Exclusive.start (h : s.Exclusive) (s' : Manager) (htasks : s'.tasks = s.tasks)
    (hopening : ∀ w, t.isOpening w = true → s.busy w = false ∧ s'.live w = none)
    (hbusy : ∀ w, t.isBusy w = true → t.isOpening w = true ∨ s.opens w = false)
    (hlive : ∀ w, s.opens w = true → s.live w = none → s'.live w = none) : (s'.start t).Exclusive := by
  have hsplit : ∀ {j : TaskId} {u : Task}, (s'.start t).tasks[j]? = some u →
      s.tasks[j]? = some u ∨ u = t ∧ j = s.tasks.length := by
    intro j u hu
    rw [tasks_start, htasks, List.getElem?_append] at hu
    split_ifs at hu with hlt
    · exact .inl hu
    · obtain ⟨hzero, rfl⟩ : j - s.tasks.length = 0 ∧ t = u := by
        rw [List.getElem?_singleton] at hu
        split_ifs at hu with hz
        exact ⟨hz, Option.some.inj hu⟩
      exact .inr ⟨rfl, Nat.le_antisymm (Nat.sub_eq_zero_iff_le.mp hzero) (Nat.le_of_not_lt hlt)⟩
  have hfree : ∀ {w : String} {j : TaskId} {u : Task}, s.busy w = false → s.tasks[j]? = some u →
      u.isBusy w = true → False := by
    intro w j u hbusy hu hbusy'
    rw [busy, List.any_eq_false] at hbusy
    exact hbusy u (List.mem_of_getElem? hu) hbusy'
  constructor
  · intro w j k u u' hu hopen hu' hbusy'
    rcases hsplit hu with hold | ⟨rfl, rfl⟩ <;> rcases hsplit hu' with hold' | ⟨rfl, rfl⟩
    · exact h.alone hold hopen hold' hbusy'
    · rcases hbusy w hbusy' with hopen' | hfree'
      · exact (hfree (hopening w hopen').1 hold (isBusy_of_isOpening hopen)).elim
      · rw [opens_of_getElem? hold hopen] at hfree'
        cases hfree'
    · exact (hfree (hopening w hopen).1 hold' hbusy').elim
    · rfl
  · intro w hopens
    obtain ⟨j, u, hu, hopen⟩ := opens_eq_true.mp hopens
    rcases hsplit hu with hu | ⟨rfl, rfl⟩
    · exact hlive w (opens_of_getElem? hu hopen) (h.vacant (opens_of_getElem? hu hopen))
    · exact (hopening w hopen).2

theorem Exclusive.abort (h : s.Exclusive) (j : TaskId) : (s.abort j).Exclusive := by
  unfold Manager.abort
  split
  · next p hpump =>
      exact h.set (pump?_eq_some.mp hpump) rfl (fun w hw => hw) (fun w hw => .inl hw)
        fun w _ hw => hw
  · exact h

theorem Exclusive.insertSession (h : s.Exclusive) {profile : ConnectionProfile}
    {handle : SessionId}
    (htask : s.tasks[i]? = some (.opening window profile (.inserting handle))) :
    (s.insertSession i window profile handle).Exclusive := by
  have hdone : (s.setTask i .done).Exclusive :=
    h.set htask rfl (fun w hw => by cases hw) (fun w hw => by cases hw) fun w _ hw => hw
  have hclosed : (s.setTask i .done).opens window = false := by
    rw [Bool.eq_false_iff]
    intro hopens
    obtain ⟨j, t, ht, hopen⟩ := opens_eq_true.mp hopens
    rw [tasks_setTask, List.getElem?_set] at ht
    split_ifs at ht with hij
    · obtain rfl := Option.some.inj ht
      cases hopen
    · have hopening : (Task.opening window profile (.inserting handle)).isOpening window = true := by
        simp [Task.isOpening]
      exact hij (h.alone htask hopening ht (isBusy_of_isOpening hopen)).symm
  let slotted := (s.advance window).setSlot window (s.newSlot window profile handle)
  refine hdone.start (slotted.setTask i .done) rfl
    (fun w hw => by cases hw) (fun w hw => ?_) fun w hopens hw => ?_
  · simp [Task.isBusy, newPump] at hw
  · have hne : w ≠ window := by
      rintro rfl
      rw [hclosed] at hopens
      cases hopens
    have hlive := live_insertSession s i window profile handle w
    rw [if_neg hne] at hlive
    exact hlive.trans hw

/-- The windows have one task each after a step that opens no busy one. -/
theorem Exclusive.moves (h : s.Exclusive) (hmoves : Moves s a s' os)
    (hfree : s.opensBusy a = false) : s'.Exclusive := by
  have hsame : ∀ {window : String} {slot slot' : Slot}, s.slot window = some slot →
      slot'.live = slot.live → ∀ w, s.opens w = true → s.live w = none →
        (s.setSlot window slot').live w = none := by
    intro window slot slot' hslot hlive w _ hw
    rw [live_setSlot]
    split_ifs with heq
    · rw [hlive, ← live_of_slot hslot, ← heq]
      exact hw
    · exact hw
  have hnone : ∀ {window : String} {slot' : Slot}, slot'.live = none →
      ∀ w, s.opens w = true → s.live w = none → (s.setSlot window slot').live w = none := by
    intro window slot' hlive w _ hw
    rw [live_setSlot]
    split_ifs
    · exact hlive
    · exact hw
  -- A pump goes on that ends nothing.
  have hpumps : ∀ {s' : Manager} {i : TaskId} {p : Pump} {pc : Pumping}, s'.tasks = s.tasks →
      s.pump? i = some p → pc ≠ .ending →
        (∀ w, s.opens w = true → s.live w = none → s'.live w = none) →
        (s'.setPump i p pc).Exclusive := by
    intro s' i p pc htasks hpump hpc hlive
    refine h.set (pump?_eq_some.mp hpump) (by rw [setPump, tasks_setTask, htasks])
      (fun w hw => by cases hw) (fun w hw => ?_) hlive
    simp [Task.isBusy, hpc] at hw
  cases hmoves with
  | stays a => exact h
  | elapses time => exact ⟨h.alone, h.vacant⟩
  | opens window profile hslot =>
      refine h.start _ rfl ?_ (fun w hw => .inl hw) fun w _ hw => hw
      intro w hw
      obtain rfl : window = w := by simpa [Task.isOpening] using hw
      exact ⟨hfree, by simp [Manager.live, hslot]⟩
  | takes window profile slot hslot =>
      refine h.start _ (tasks_setSlot ..) ?_ (fun w hw => .inl hw) (hnone rfl)
      intro w hw
      obtain rfl : window = w := by simpa [Task.isOpening] using hw
      exact ⟨hfree, by rw [live_setSlot, if_pos rfl]⟩
  | closes window =>
      refine h.start { s with windows := s.windows.erase window } rfl
        (fun w hw => by cases hw) ?_ ?_
      · intro w hw
        have hlive : ∃ live, s.live w = some live := by
          simp only [Task.isBusy, List.any_map, List.any_eq_true, Option.mem_toList] at hw
          obtain ⟨live, hlive, heq⟩ := hw
          obtain rfl : window = w := by simpa using heq
          exact ⟨live, hlive⟩
        exact .inr (h.opens_eq_false hlive.choose_spec)
      · intro w _ hw
        rw [live_erase, hw, ite_self]
  | shutsDown =>
      refine h.start { s with windows := ∅ } rfl (fun w hw => by cases hw) ?_ ?_
      · intro w hw
        have hlive : ∃ live, s.live w = some live := by
          simp only [Task.isBusy, List.any_eq_true, List.mem_insertionSort, List.mem_filterMap] at hw
          obtain ⟨x, ⟨⟨window, slot⟩, hmem, hx⟩, heq⟩ := hw
          obtain ⟨live, hlive, rfl⟩ := Option.map_eq_some_iff.mp hx
          obtain rfl : window = w := by simpa using heq
          exact ⟨live, live_eq_some.mpr ⟨slot, AList.mem_lookup_iff.mpr hmem, hlive⟩⟩
        exact .inr (h.opens_eq_false hlive.choose_spec)
      · intro w _ hw
        simp [Manager.live, Manager.slot]
  | toggles window slot hslot view =>
      exact h.start _ (tasks_setSlot ..) (fun w hw => by cases hw) (fun w hw => by cases hw)
        (hsame hslot rfl)
  | answers window live answer hlive =>
      exact h.start _ rfl (fun w hw => by cases hw) (fun w hw => by cases hw) fun w _ hw => hw
  | replaces i window profile old htask =>
      have haborted := h.abort old.pump
      refine haborted.set (getElem?_abort htask rfl old.pump) rfl (fun w hw => hw)
        (fun w hw => .inl hw) fun w _ hw => hw
  | endsOld i window profile old htask =>
      exact h.set htask rfl (fun w hw => hw) (fun w hw => .inl hw) fun w _ hw => hw
  | spawns i window profile htask =>
      exact h.set htask rfl (fun w hw => hw) (fun w hw => .inl hw) fun w _ hw => hw
  | fails i window profile htask =>
      exact h.set htask rfl (fun w hw => by cases hw) (fun w hw => by cases hw) fun w _ hw => hw
  | inserts i window profile handle htask => exact h.insertSession htask
  | tells i lives report htask =>
      exact h.set htask rfl (fun w hw => hw) (fun w hw => .inl hw) fun w _ hw => hw
  | waited a i lives report report' ha htask =>
      exact h.set htask rfl (fun w hw => hw) (fun w hw => .inl hw) fun w _ hw => hw
  | expires i window live rest report report' htask =>
      have haborted := h.abort live.pump
      exact haborted.set (getElem?_abort htask rfl live.pump) rfl (fun w hw => hw)
        (fun w hw => .inl hw) fun w _ hw => hw
  | releases i window live rest report htask =>
      refine h.set htask rfl (fun w hw => hw) (fun w hw => .inl ?_) fun w _ hw => hw
      rw [Task.isBusy] at hw ⊢
      rw [List.any_cons, hw, Bool.or_true]
  | closed i report htask =>
      exact h.set htask rfl (fun w hw => by cases hw) (fun w hw => by cases hw) fun w _ hw => hw
  | answered i window htask =>
      exact h.set htask rfl (fun w hw => by cases hw) (fun w hw => by cases hw) fun w _ hw => hw
  | clears i window slot view htask hslot hcertificate =>
      exact h.set htask rfl (fun w hw => by cases hw) (fun w hw => by cases hw) (hsame hslot rfl)
  | updates i window view htask =>
      exact h.set htask rfl (fun w hw => by cases hw) (fun w hw => by cases hw) fun w _ hw => hw
  | receives i p event hpump hpc => exact hpumps rfl hpump (by simp) fun w _ hw => hw
  | cancels i p hpump hpc haborted => exact hpumps rfl hpump (by simp) fun w _ hw => hw
  | folds i p event slot slot' view hpump hpc hslot howned hlive hview =>
      exact hpumps (tasks_setSlot ..) hpump (by simp) (hsame hslot hlive)
  | drops i p event hpump hpc => exact hpumps rfl hpump (by simp) fun w _ hw => hw
  | detaches i p slot hpump hpc hslot howned =>
      refine h.set (pump?_eq_some.mp hpump) rfl (fun w hw => by cases hw) ?_ (hnone rfl)
      intro w hw
      obtain ⟨live, hlive⟩ : ∃ live, slot.live = some live := by
        have hsome := howned
        rw [Slot.ownedBy, Option.any_eq_true] at hsome
        exact ⟨_, hsome.choose_spec.1⟩
      obtain rfl : p.window = w := by simpa [Task.isBusy] using hw
      exact .inr (h.opens_eq_false (live_eq_some.mpr ⟨slot, hslot, hlive⟩))
  | leaves i p hpump hpc hlost => exact hpumps rfl hpump (by simp) fun w _ hw => hw
  | forwards i p event view hpump hpc =>
      exact hpumps rfl hpump (by cases view <;> simp) fun w _ hw => hw
  | notifies i p view hpump hpc => exact hpumps rfl hpump (by simp) fun w _ hw => hw
  | endsPump i p hpump hpc => exact hpumps rfl hpump (by simp) fun w _ hw => hw

/-! ### Starts and ends -/

/-- Every session that was started is somewhere, or was ended. -/
structure Accounted (s : Manager) (m : Sessions) : Prop where
  sound : s.Sound m
  exclusive : s.Exclusive
  exact : ∀ x, s.places x + m.ended.count x = m.started.count x

theorem not_overwrites (h : s.Exclusive) (a : Action) : s.overwrites a = false := by
  unfold overwrites
  split
  · split
    · next i window profile handle htask =>
        have hopens : s.opens window = true :=
          opens_of_getElem? htask (by simp [Task.isOpening])
        rw [h.vacant hopens]
        rfl
    · rfl
  · rfl

theorem isBusy_of_mem_tokens {session : SessionId} (h : (window, session) ∈ t.tokens) :
    t.isBusy window = true := by
  unfold Task.tokens at h
  split at h <;> simp_all [Task.isBusy]
  obtain ⟨live, hlive, -⟩ := h
  exact ⟨live, hlive⟩

theorem Accounted.ended (h : s.Accounted m) {profile : ConnectionProfile}
    (htask : s.tasks[i]? = some (.opening window profile .spawning)) {x : String × SessionId}
    (hx : x ∈ m.started) (hw : x.1 = window) : x ∈ m.ended := by
  have hopening : (Task.opening window profile .spawning).isOpening window = true := by
    simp [Task.isOpening]
  have hattached : s.attached x = 0 := by
    rw [attached, hw, h.exclusive.vacant (opens_of_getElem? htask hopening)]
    rfl
  have hheld : (held Task.tokens s.tasks).count x = 0 := by
    rw [List.count_eq_zero, mem_held]
    rintro ⟨t, hmem, htokens⟩
    obtain ⟨j, hj⟩ := List.getElem?_of_mem hmem
    have hmem' : (window, x.2) ∈ t.tokens := by
      rw [← hw]
      exact htokens
    have hbusy := isBusy_of_mem_tokens hmem'
    obtain rfl := h.exclusive.alone htask hopening hj hbusy
    rw [htask] at hj
    obtain rfl := Option.some.inj hj
    exact absurd htokens List.not_mem_nil
  have hexact := h.exact x
  rw [places, hattached, hheld] at hexact
  have hpos := List.count_pos_iff.mpr hx
  exact List.count_pos_iff.mp (by omega)

theorem accounted_new : new.Accounted .start where
  sound := sound_new
  exclusive := ⟨fun h => by simp [new] at h, fun h => by simp [opens, new] at h⟩
  exact := fun x => rfl

theorem Accounted.step (h : s.Accounted m) (hfree : s.opensBusy a = false) :
    Holds Sessions.observe Sessions.Accepts m (s.step a).2 ∧
      (s.step a).1.Accounted ((s.step a).2.foldl Sessions.observe m) := by
  have hmoves := step_moves s a
  have hnext : (s.step a).1.Accounted ((s.step a).2.foldl Sessions.observe m) := by
    refine ⟨h.sound.step a, h.exclusive.moves hmoves hfree, fun x => ?_⟩
    obtain ⟨lost, heq, hlost⟩ := hmoves.balanced h.sound.linked m x
    have hnone : lost = 0 := by
      by_contra hne
      rw [not_overwrites h.exclusive] at hlost
      exact absurd (hlost hne) Bool.false_ne_true
    have hexact := h.exact x
    omega
  refine ⟨?_, hnext⟩
  rcases hmoves.told with ⟨hneutral, -⟩ | ⟨i, window, profile, htask, hos, -⟩ |
    ⟨i, t, window, session, htask, htokens, hos, -⟩
  · exact (holds_of_forall fun o ho => hneutral o ho m).1
  · rw [hos]
    exact ⟨⟨fun x hx => Nat.ne_of_lt (h.sound.ledger.fresh x hx),
      fun x hx hw => h.ended htask hx hw⟩, trivial⟩
  · rw [hos]
    have hcount := List.count_pos_iff.mpr htokens
    have hplaces := count_tokens_le htask (window, session)
    have hexact := h.exact (window, session)
    have hle := h.sound.ledger.le_one (window, session)
    refine ⟨⟨List.count_pos_iff.mp (by omega), fun hmem => ?_⟩, trivial⟩
    have hended := List.count_pos_iff.mpr hmem
    omega

theorem tokens_of_not_isUnderWay (h : t.isUnderWay = false) : t.tokens = [] := by
  cases t with
  | pump p =>
      have hne : p.pc ≠ .ending := by
        intro hpc
        simp [Task.isUnderWay, hpc] at h
      simp [Task.tokens, hne]
  | done => rfl
  | _ => cases h

/-- Where no step is under way, a session that has not ended is attached to its window. -/
theorem Accounted.attached (h : s.Accounted m) (hquiet : s.Quiet) (hx : x ∈ m.started)
    (hnot : x ∉ m.ended) : s.Attached x.1 x.2 := by
  have hheld : (held Task.tokens s.tasks).count x = 0 := by
    rw [List.count_eq_zero, mem_held]
    rintro ⟨t, hmem, htokens⟩
    rw [tokens_of_not_isUnderWay (hquiet t hmem)] at htokens
    exact absurd htokens List.not_mem_nil
  have hexact := h.exact x
  rw [places, hheld, List.count_eq_zero.mpr hnot] at hexact
  have hstarted := List.count_pos_iff.mpr hx
  have hmem : x ∈ liveTokens x.1 (s.live x.1) := by
    refine List.count_pos_iff.mp ?_
    rw [Manager.attached] at hexact
    omega
  simp only [liveTokens, List.mem_map, Option.mem_toList] at hmem
  obtain ⟨live, hlive, heq⟩ := hmem
  have hhandle : live.handle = x.2 := congrArg Prod.snd heq
  have hid := h.sound.linked.live hlive
  obtain ⟨p, hpump, hp⟩ := Option.map_eq_some_iff.mp hid
  have hrunning := h.sound.linked.running hlive hpump
  refine ⟨live, p, hlive, hhandle, hpump, ?_, congrArg Identity.generation hp, ?_⟩
  · rw [← hhandle]
    exact congrArg Identity.session hp
  · have hunder := hquiet _ (List.mem_of_getElem? (pump?_eq_some.mp hpump))
    simpa [Task.isUnderWay, hrunning.2.1] using hunder

/-- **Sessions.** If no window is opened while one of its sessions is still to be ended, every session
that was started is ended once, before the next one of its window starts, unless it is still attached to
its window where no step is under way. -/
theorem sessions_history (as : List Action)
    (hfree : Along step Sessions.observe (fun s _ a => s.opensBusy a = false) new .start as) :
    let after := history as
    let m := after.2.foldl Sessions.observe .start
    Holds Sessions.observe Sessions.Accepts .start after.2 ∧
      (after.1.Quiet → ∀ x ∈ m.started, x ∈ m.ended ∨ after.1.Attached x.1 x.2) := by
  obtain ⟨hholds, haccounted⟩ := run_holds Accounted (fun s m a h hfree => h.step hfree)
    accounted_new hfree
  refine ⟨hholds, fun hquiet x hx => ?_⟩
  by_cases hmem : x ∈ ((history as).2.foldl Sessions.observe .start).ended
  · exact .inl hmem
  · exact .inr (haccounted.attached hquiet hx hmem)

/-- A window is opened and opened again, and then closed. -/
def reopened : List Action :=
  [.open "w" sample, .spawn 0 true, .run 0, .open "w" sample, .run 2, .run 2, .spawn 2 true,
    .run 2, .close "w", .run 4, .expire 4, .run 4, .run 4]

theorem sessions_reopened :
    let after := history reopened
    let m := after.2.foldl Sessions.observe .start
    Holds Sessions.observe Sessions.Accepts .start after.2 ∧
      (after.1.Quiet → ∀ x ∈ m.started, x ∈ m.ended ∨ after.1.Attached x.1 x.2) :=
  sessions_history reopened (by decide)

/-- A session ends by itself, and its window is opened again before the host hears of the end. -/
def lateEnd : List Action :=
  [.open "w" sample, .spawn 0 true, .run 0, .recv 1 none, .run 1, .open "w" sample, .spawn 2 true,
    .run 1]

theorem not_sessions_lateEnd :
    ¬ Holds Sessions.observe Sessions.Accepts .start (history lateEnd).2 := by
  decide

end Manager

end Drift.App
