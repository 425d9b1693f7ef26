import Drift.App.Proof.Moves
import Drift.Lib.Custody

/-!
# Where the sessions are

A session that was started is in its window, or with a task that puts it there or ends it, or it was
ended. A session that is lost, because another one was put over it in its window, is in none of them.
-/

namespace Drift.App

open Custody

def Task.lives : Task → List (String × Live)
  | .opening window _ (.replacing old) | .opening window _ (.ending old) => [(window, old)]
  | .closing lives _ _ => lives
  | _ => []

def Task.tokens : Task → List (String × SessionId)
  | .opening window _ (.replacing old) | .opening window _ (.ending old) => [(window, old.handle)]
  | .opening window _ (.inserting handle) => [(window, handle)]
  | .closing lives _ _ => lives.map fun l => (l.1, l.2.handle)
  | .pump p => if p.pc = .ending then [(p.window, p.session)] else []
  | _ => []

def Task.isPump : Task → Bool
  | .pump _ => true
  | _ => false

theorem Task.mem_tokens_of_mem_lives {t : Task} {x : String × Live} (h : x ∈ t.lives) :
    (x.1, x.2.handle) ∈ t.tokens := by
  unfold Task.lives at h
  unfold Task.tokens
  split at h
  · obtain rfl := List.mem_singleton.mp h
    exact List.mem_singleton_self _
  · obtain rfl := List.mem_singleton.mp h
    exact List.mem_singleton_self _
  · exact List.mem_map.mpr ⟨x, h, rfl⟩
  · exact absurd h List.not_mem_nil

namespace Manager

variable {s s' : Manager} {a : Action} {os : List Out} {window w : String} {i j : TaskId}
  {t : Task} {p : Pump} {m : Sessions} {x : String × SessionId}

/-! ### Sessions in windows -/

def liveTokens (window : String) (live : Option Live) : List (String × SessionId) :=
  live.toList.map fun live => (window, live.handle)

def attached (s : Manager) (x : String × SessionId) : Nat :=
  (liveTokens x.1 (s.live x.1)).count x

theorem live_setSlot (slot : Slot) :
    (s.setSlot window slot).live w = if w = window then slot.live else s.live w := by
  simp only [Manager.live, slot_setSlot]
  split_ifs <;> rfl

theorem count_liveTokens_of_ne (h : x.1 ≠ window) (live : Option Live) :
    (liveTokens window live).count x = 0 := by
  rw [List.count_eq_zero, liveTokens, List.mem_map]
  rintro ⟨live, -, rfl⟩
  exact h rfl

theorem attached_setSlot (s : Manager) (window : String) (slot : Slot) (x : String × SessionId) :
    (s.setSlot window slot).attached x + (liveTokens window (s.live window)).count x =
      s.attached x + (liveTokens window slot.live).count x := by
  unfold attached
  rw [live_setSlot]
  split_ifs with h
  · rw [h, Nat.add_comm]
  · rw [count_liveTokens_of_ne h, count_liveTokens_of_ne h]

theorem live_erase : ({ s with windows := s.windows.erase window } : Manager).live w =
    if w = window then none else s.live w := by
  split_ifs with h
  · subst h
    simp [Manager.live, Manager.slot]
  · simp [Manager.live, Manager.slot, AList.lookup_erase_ne h]

theorem attached_erase (s : Manager) (window : String) (x : String × SessionId) :
    ({ s with windows := s.windows.erase window } : Manager).attached x +
      (liveTokens window (s.live window)).count x = s.attached x := by
  unfold attached
  rw [live_erase]
  split_ifs with h
  · rw [h, liveTokens]
    simp
  · rw [count_liveTokens_of_ne h, Nat.add_zero]

theorem count_drained_entries {entries : List (Sigma fun _ : String => Slot)}
    (hnodup : entries.NodupKeys) (x : String × SessionId) :
    ((entries.filterMap fun ⟨window, slot⟩ => slot.live.map fun live => (window, live)).map
      fun l => (l.1, l.2.handle)).count x =
        (liveTokens x.1 ((entries.dlookup x.1).bind (·.live))).count x := by
  induction entries with
  | nil => rfl
  | cons entry entries ih =>
      obtain ⟨window, slot⟩ := entry
      obtain ⟨hnotMem, hrest⟩ := List.nodupKeys_cons.mp hnodup
      have hhead : ((((⟨window, slot⟩ :: entries).filterMap fun ⟨window, slot⟩ =>
          slot.live.map fun live => (window, live)).map fun l => (l.1, l.2.handle)).count x) =
            (liveTokens window slot.live).count x +
              ((entries.filterMap fun ⟨window, slot⟩ => slot.live.map fun live =>
                (window, live)).map fun l => (l.1, l.2.handle)).count x := by
        cases hlive : slot.live with
        | none => simp [liveTokens, hlive]
        | some live => simp [liveTokens, hlive, List.count_cons, Nat.add_comm]
      rw [hhead, ih hrest]
      by_cases h : x.1 = window
      · have hnone : entries.dlookup x.1 = none := by
          rw [List.dlookup_eq_none, h]
          exact hnotMem
        rw [hnone, h, List.dlookup_cons_eq]
        simp [liveTokens]
      · rw [List.dlookup_cons_ne _ _ h, count_liveTokens_of_ne h, Nat.zero_add]

theorem count_drained (s : Manager) (x : String × SessionId) :
    ((s.windows.entries.filterMap fun ⟨window, slot⟩ =>
      slot.live.map fun live => (window, live)).map fun l => (l.1, l.2.handle)).count x =
        s.attached x :=
  count_drained_entries s.windows.nodupKeys x

/-! ### Pumps -/

/-- What a pump was spawned for. -/
structure Identity where
  window : String
  generation : Nat
  session : SessionId

def identity? (s : Manager) (i : TaskId) : Option Identity :=
  (s.pump? i).map fun p => ⟨p.window, p.generation, p.session⟩

theorem identity?_of_pump? (h : s.pump? i = some p) :
    s.identity? i = some ⟨p.window, p.generation, p.session⟩ := by
  rw [identity?, h]
  rfl

@[simp]
theorem pump?_setSlot (s : Manager) (window : String) (slot : Slot) (i : TaskId) :
    (s.setSlot window slot).pump? i = s.pump? i := rfl

theorem pump?_setTask_of_ne (h : j ≠ i) (t : Task) : (s.setTask i t).pump? j = s.pump? j := by
  unfold pump?
  rw [tasks_setTask, List.getElem?_set_ne h.symm]

theorem pump?_setTask_same (htask : s.tasks[i]? = some t) (t' : Task) :
    (s.setTask i t').pump? i = match t' with
      | .pump p => some p
      | _ => none := by
  have hlt : i < s.tasks.length := (List.getElem?_eq_some_iff.mp htask).1
  unfold pump?
  rw [tasks_setTask, List.getElem?_set_self hlt]
  cases t' <;> rfl

theorem pump?_setTask (htask : s.tasks[i]? = some t) (ht : t.isPump = false) {t' : Task}
    (ht' : t'.isPump = false) (j : TaskId) : (s.setTask i t').pump? j = s.pump? j := by
  by_cases h : j = i
  · rw [h, pump?_setTask_same htask]
    unfold pump?
    rw [htask]
    cases t <;> cases t' <;> simp_all [Task.isPump]
  · exact pump?_setTask_of_ne h t'

theorem pump?_setPump (hpump : s.pump? i = some p) (pc : Pumping) (j : TaskId) :
    (s.setPump i p pc).pump? j = if j = i then some { p with pc := pc } else s.pump? j := by
  unfold setPump
  split_ifs with h
  · rw [h, pump?_setTask_same (pump?_eq_some.mp hpump)]
  · exact pump?_setTask_of_ne h _

theorem pump?_start (ht : t.isPump = false) (j : TaskId) : (s.start t).pump? j = s.pump? j := by
  unfold pump?
  rw [tasks_start]
  rcases Nat.lt_or_ge j s.tasks.length with hlt | hge
  · rw [List.getElem?_append_left hlt]
  · rw [List.getElem?_append_right hge, List.getElem?_eq_none hge]
    cases hzero : j - s.tasks.length with
    | zero => cases t <;> first | rfl | cases ht
    | succ n => rfl

theorem pump?_start_pump (s : Manager) (p : Pump) (j : TaskId) :
    (s.start (.pump p)).pump? j = if j = s.tasks.length then some p else s.pump? j := by
  unfold pump?
  rw [tasks_start]
  split_ifs with h
  · rw [h, List.getElem?_concat_length]
  · rcases Nat.lt_or_gt_of_ne h with hlt | hgt
    · rw [List.getElem?_append_left hlt]
    · have hlength : (s.tasks ++ [Task.pump p]).length ≤ j := by
        rw [List.length_append, List.length_singleton]
        omega
      rw [List.getElem?_eq_none hlength, List.getElem?_eq_none (Nat.le_of_lt hgt)]

theorem pump?_abort (s : Manager) (i j : TaskId) :
    (s.abort i).pump? j =
      if j = i then (s.pump? j).map fun p => { p with aborted := true } else s.pump? j := by
  unfold abort
  split
  · next p hpump =>
      split_ifs with h
      · rw [h, hpump, pump?_setTask_same (pump?_eq_some.mp hpump)]
        rfl
      · exact pump?_setTask_of_ne h _
  · next hnone =>
      split_ifs with h
      · rw [h, hnone]
        rfl
      · rfl

theorem getElem?_abort (htask : s.tasks[i]? = some t) (ht : t.isPump = false) (j : TaskId) :
    (s.abort j).tasks[i]? = some t := by
  unfold abort
  split
  · next p hpump =>
      have hne : j ≠ i := by
        rintro rfl
        rw [pump?_eq_some.mp hpump] at htask
        cases htask
        cases ht
      rw [tasks_setTask, List.getElem?_set_ne hne]
      exact htask
  · exact htask

theorem mem_tasks_abort (h : t ∈ (s.abort j).tasks) : t ∈ s.tasks ∨ t.lives = [] := by
  unfold abort at h
  split at h
  · rcases List.mem_or_eq_of_mem_set h with h | rfl
    · exact .inl h
    · exact .inr rfl
  · exact .inl h

/-! ### Places -/

def places (s : Manager) (x : String × SessionId) : Nat :=
  s.attached x + (held Task.tokens s.tasks).count x

theorem places_setTask (htask : s.tasks[i]? = some t) (t' : Task) (x : String × SessionId) :
    (s.setTask i t').places x + t.tokens.count x = s.places x + t'.tokens.count x := by
  have hset := count_held_set Task.tokens htask t' x
  have hsame : (s.setTask i t').attached x = s.attached x := rfl
  simp only [places, tasks_setTask, hsame]
  omega

theorem places_start (s : Manager) (t : Task) (x : String × SessionId) :
    (s.start t).places x = s.places x + t.tokens.count x := by
  have hsame : (s.start t).attached x = s.attached x := rfl
  simp only [places, tasks_start, hsame, count_held_concat]
  omega

theorem places_setSlot (s : Manager) (window : String) (slot : Slot) (x : String × SessionId) :
    (s.setSlot window slot).places x + (liveTokens window (s.live window)).count x =
      s.places x + (liveTokens window slot.live).count x := by
  have hset := attached_setSlot s window slot x
  simp only [places, tasks_setSlot]
  omega

theorem places_take (slot : Slot) (hlive : slot.live = none) (s : Manager) (window : String)
    (x : String × SessionId) :
    (s.setSlot window slot).places x + (liveTokens window (s.live window)).count x =
      s.places x := by
  have hset := places_setSlot s window slot x
  rw [hlive] at hset
  exact hset

theorem places_keep (slot : Slot) (hlive : slot.live = s.live window) (x : String × SessionId) :
    (s.setSlot window slot).places x = s.places x := by
  have hset := places_setSlot s window slot x
  rw [hlive] at hset
  omega

theorem places_abort (s : Manager) (j : TaskId) (x : String × SessionId) :
    (s.abort j).places x = s.places x := by
  unfold abort
  split
  · next p hpump =>
      have hset := places_setTask (pump?_eq_some.mp hpump) (.pump { p with aborted := true }) x
      have hsame : (Task.pump { p with aborted := true }).tokens = (Task.pump p).tokens := rfl
      rw [hsame] at hset
      omega
  · rfl

theorem places_setPump (hpump : s.pump? i = some p) (pc : Pumping) (x : String × SessionId) :
    (s.setPump i p pc).places x + (Task.pump p).tokens.count x =
      s.places x + (Task.pump { p with pc := pc }).tokens.count x :=
  places_setTask (pump?_eq_some.mp hpump) _ x

/-! ### Links -/

/-- The lives in the windows and with the tasks know their pumps, and what a window has is pumped. -/
structure Linked (s : Manager) : Prop where
  generation_le : ∀ {i id}, s.identity? i = some id → id.generation ≤ s.nextGeneration
  generation_inj : ∀ {i j id id'}, s.identity? i = some id → s.identity? j = some id' →
    id.generation = id'.generation → i = j
  live : ∀ {w l}, s.live w = some l → s.identity? l.pump = some ⟨w, l.generation, l.handle⟩
  taken : ∀ {t x}, t ∈ s.tasks → x ∈ t.lives →
    s.identity? x.2.pump = some ⟨x.1, x.2.generation, x.2.handle⟩
  running : ∀ {w l p}, s.live w = some l → s.pump? l.pump = some p →
    p.pc ≠ .ending ∧ p.pc ≠ .finished ∧ p.aborted = false

/-- The window of a pump has its session, if the pump owns the window. -/
theorem Linked.handle_eq (h : s.Linked) (hpump : s.pump? i = some p) {slot : Slot}
    (hslot : s.slot p.window = some slot) (howned : slot.ownedBy p.generation = true) :
    ∃ live, slot.live = some live ∧ live.handle = p.session ∧ live.pump = i := by
  obtain ⟨live, hlive, hgeneration⟩ : ∃ live, slot.live = some live ∧
      live.generation = p.generation := by
    simpa [Slot.ownedBy, Option.any_eq_true] using howned
  have hid := identity?_of_pump? hpump
  have hlinked := h.live (live_eq_some.mpr ⟨slot, hslot, hlive⟩)
  have hsame : live.pump = i := h.generation_inj hlinked hid hgeneration
  rw [hsame, hid] at hlinked
  exact ⟨live, hlive, (congrArg Identity.session (Option.some.inj hlinked)).symm, hsame⟩

theorem Linked.of_pump (h : s.Linked) {live : Live} (hlive : s.live window = some live)
    (hpump : s.pump? live.pump = some p) :
    window = p.window ∧ live.generation = p.generation ∧ live.handle = p.session := by
  have hid := h.live hlive
  rw [identity?_of_pump? hpump] at hid
  have heq := Option.some.inj hid
  exact ⟨(congrArg Identity.window heq).symm, (congrArg Identity.generation heq).symm,
    (congrArg Identity.session heq).symm⟩

def overwrites (s : Manager) : Action → Bool
  | .run i =>
    match s.tasks[i]? with
    | some (.opening window _ (.inserting _)) => (s.live window).isSome
    | _ => false
  | _ => false

/-- What is somewhere or was ended only changes by what is started, and by what is lost. -/
def Balanced (s : Manager) (a : Action) (s' : Manager) (m m' : Sessions) (x : String × SessionId) :
    Prop :=
  ∃ lost, s'.places x + m'.ended.count x + m.started.count x + lost =
    s.places x + m.ended.count x + m'.started.count x ∧ (lost ≠ 0 → s.overwrites a = true)

theorem balanced_of_eq (h : s'.places x = s.places x) : Balanced s a s' m m x :=
  ⟨0, by omega, by simp⟩

theorem balanced_setTask (htask : s.tasks[i]? = some t) {t' : Task} (h : t'.tokens = t.tokens) :
    Balanced s a (s.setTask i t') m m x := by
  have hset := places_setTask htask t' x
  rw [h] at hset
  exact balanced_of_eq (by omega)

theorem balanced_ended (htask : s.tasks[i]? = some t) {t' : Task} {session : SessionId}
    (h : t.tokens = (window, session) :: t'.tokens) :
    Balanced s a (s.setTask i t') m (m.observe (.sessionEnded window session)) x := by
  have hset := places_setTask htask t' x
  rw [h] at hset
  refine ⟨0, ?_, by simp⟩
  simp only [Sessions.observe, List.count_cons] at hset ⊢
  omega

theorem tokens_setPump (hpc : p.pc ≠ .ending) {pc : Pumping} (hpc' : pc ≠ .ending) :
    (Task.pump { p with pc := pc }).tokens = (Task.pump p).tokens := by
  simp [Task.tokens, hpc, hpc']

theorem balanced_setPump (hpump : s.pump? i = some p) (hpc : p.pc ≠ .ending) {pc : Pumping}
    (hpc' : pc ≠ .ending) : Balanced s a (s.setTask i (.pump { p with pc := pc })) m m x :=
  balanced_setTask (pump?_eq_some.mp hpump) (tokens_setPump hpc hpc')

/-- **Balance.** A step keeps the balance. -/
theorem Moves.balanced (hmoves : Moves s a s' os) (hlinked : s.Linked) (m : Sessions)
    (x : String × SessionId) : Balanced s a s' m (os.foldl Sessions.observe m) x := by
  cases hmoves with
  | stays a => exact balanced_of_eq rfl
  | elapses time => exact balanced_of_eq rfl
  | opens window profile hslot =>
      have hstart := places_start s (.opening window profile .spawning) x
      exact balanced_of_eq hstart
  | takes window profile slot hslot =>
      have htake := places_take { slot with live := none } rfl s window x
      have hstart := places_start (s.setSlot window { slot with live := none })
        (.opening window profile (slot.live.elim .spawning .replacing)) x
      have htokens : (Task.opening window profile (slot.live.elim .spawning .replacing)).tokens =
          liveTokens window (s.live window) := by
        rw [live_of_slot hslot]
        cases slot.live <;> rfl
      rw [htokens] at hstart
      exact balanced_of_eq (by omega)
  | closes window =>
      have herase := attached_erase s window x
      refine balanced_of_eq ?_
      have hstart := places_start { s with windows := s.windows.erase window }
        (.closing ((s.live window).toList.map fun live => (window, live)) .telling ⟨0, 0⟩) x
      have htokens : (Task.closing ((s.live window).toList.map fun live => (window, live)) .telling
          ⟨0, 0⟩).tokens = liveTokens window (s.live window) := by
        simp [Task.tokens, liveTokens]
      rw [htokens] at hstart
      have hclose : (s.close window).1.places x = _ := hstart
      rw [hclose]
      simp only [places]
      omega
  | shutsDown =>
      have hobserve : (s.windows.keys.map Out.removed).foldl Sessions.observe m = m := by
        refine Transition.foldl_eq_self fun o ho => ?_
        obtain ⟨w, -, rfl⟩ := List.mem_map.mp ho
        rfl
      rw [hobserve]
      have hstart := places_start { s with windows := ∅ }
        (.closing (((s.windows.entries.filterMap fun ⟨window, slot⟩ =>
          slot.live.map fun live => (window, live))).insertionSort fun a b => a.1 ≤ b.1) .telling
            ⟨0, 0⟩) x
      have hsorted := ((List.perm_insertionSort (fun a b : String × Live => a.1 ≤ b.1)
        (s.windows.entries.filterMap fun ⟨window, slot⟩ =>
          slot.live.map fun live => (window, live))).map fun l => (l.1, l.2.handle)).count_eq x
      have hempty : ({ s with windows := ∅ } : Manager).attached x = 0 := by
        have hnone : ({ s with windows := ∅ } : Manager).live x.1 = none := by
          simp [Manager.live, Manager.slot]
        rw [attached, hnone]
        rfl
      refine balanced_of_eq ?_
      have hshutdown : s.shutdown.1.places x = _ := hstart
      rw [hshutdown, Task.tokens, hsorted, count_drained]
      simp only [places, hempty]
      omega
  | toggles window slot hslot view =>
      have hkeep := places_keep { slot with view := view } (live_of_slot hslot).symm x
      have hstart := places_start (s.setSlot window { slot with view := view })
        (.updating window view) x
      exact balanced_of_eq (hstart.trans hkeep)
  | answers window live answer hlive =>
      have hstart := places_start s (.answering window) x
      exact balanced_of_eq hstart
  | replaces i window profile old htask =>
      have hset := places_setTask (getElem?_abort htask rfl old.pump)
        (.opening window profile (.ending old)) x
      rw [places_abort] at hset
      exact balanced_of_eq (by simpa [Task.tokens] using hset)
  | endsOld i window profile old htask => exact balanced_ended htask rfl
  | spawns i window profile htask =>
      have hset := places_setTask (s := { s with sessions := s.sessions + 1 }) htask
        (.opening window profile (.inserting s.sessions)) x
      refine ⟨0, ?_, by simp⟩
      have hsame : ({ s with sessions := s.sessions + 1 } : Manager).places x = s.places x := rfl
      simp only [Task.tokens, List.count_nil, List.count_cons, hsame] at hset
      simp only [List.foldl_cons, List.foldl_nil, Sessions.observe, List.count_cons]
      omega
  | fails i window profile htask => exact balanced_setTask htask rfl
  | inserts i window profile handle htask =>
      let slotted := (s.advance window).setSlot window (s.newSlot window profile handle)
      have hslot : slotted.places x + (liveTokens window (s.live window)).count x =
          s.places x + (Task.opening window profile (.inserting handle)).tokens.count x :=
        places_setSlot (s.advance window) window (s.newSlot window profile handle) x
      have hdone : (slotted.setTask i .done).places x +
          (Task.opening window profile (.inserting handle)).tokens.count x =
            slotted.places x :=
        places_setTask (s := slotted) htask .done x
      have hstart : (s.insertSession i window profile handle).places x =
          (slotted.setTask i .done).places x :=
        places_start (slotted.setTask i .done) (.pump (s.newPump window profile handle)) x
      have hobserve : [Out.inserted window handle].foldl Sessions.observe m = m := rfl
      refine ⟨(liveTokens window (s.live window)).count x, ?_, ?_⟩
      · rw [hobserve]
        omega
      · intro hlost
        simp only [overwrites, htask]
        cases hlive : s.live window with
        | none => exact absurd (by rw [hlive]; rfl) hlost
        | some live => rfl
  | tells i lives report htask =>
      have hobserve : (lives.map fun l => Out.closeSent l.2.handle).foldl Sessions.observe m =
          m := by
        refine Transition.foldl_eq_self fun o ho => ?_
        obtain ⟨l, -, rfl⟩ := List.mem_map.mp ho
        rfl
      rw [hobserve]
      exact balanced_setTask htask rfl
  | waited a i lives report report' ha htask => exact balanced_setTask htask rfl
  | expires i window live rest report report' htask =>
      have hset := places_setTask (getElem?_abort htask rfl live.pump)
        (.closing ((window, live) :: rest) .ending report') x
      rw [places_abort] at hset
      exact balanced_of_eq (by simpa [Task.tokens] using hset)
  | releases i window live rest report htask => exact balanced_ended htask rfl
  | closed i report htask => exact balanced_setTask htask rfl
  | answered i window htask => exact balanced_setTask htask rfl
  | clears i window slot view htask hslot hcertificate =>
      have hkeep := places_keep { slot with view := view } (live_of_slot hslot).symm x
      have hset := places_setTask (s := s.setSlot window { slot with view := view }) htask
        (.updating window view) x
      exact balanced_of_eq (by simpa [Task.tokens, hkeep] using hset)
  | updates i window view htask => exact balanced_setTask htask rfl
  | receives i p event hpump hpc =>
      exact balanced_setPump hpump (by simp [hpc]) (by simp)
  | cancels i p hpump hpc haborted =>
      exact balanced_setPump hpump (by simp [hpc]) (by simp)
  | folds i p event slot slot' view hpump hpc hslot howned hlive hview =>
      have hkeep := places_keep slot' (hlive.trans (live_of_slot hslot).symm) x
      have hset := places_setPump (s := s.setSlot p.window slot') hpump (.forwarding event view) x
      have hsame : (Task.pump { p with pc := .forwarding event view }).tokens =
          (Task.pump p).tokens := tokens_setPump (by simp [hpc]) (by simp)
      rw [hsame] at hset
      exact balanced_of_eq (by omega)
  | drops i p event hpump hpc =>
      exact balanced_setPump hpump (by simp [hpc]) (by simp)
  | detaches i p slot hpump hpc hslot howned =>
      obtain ⟨live, hlive, hhandle, -⟩ := hlinked.handle_eq hpump hslot howned
      have htake := places_take { slot with live := none, liveSince := none } rfl s
        p.window x
      have hset := places_setPump
        (s := s.setSlot p.window { slot with live := none, liveSince := none }) hpump .ending x
      have htokens : (Task.pump { p with pc := .ending }).tokens =
          liveTokens p.window (s.live p.window) := by
        rw [live_of_slot hslot, hlive]
        simp [Task.tokens, liveTokens, hhandle]
      have hempty : (Task.pump p).tokens = [] := by simp [Task.tokens, hpc]
      rw [htokens, hempty] at hset
      exact balanced_of_eq (by simp at hset; omega)
  | leaves i p hpump hpc hlost =>
      exact balanced_setPump hpump (by simp [hpc]) (by simp)
  | forwards i p event view hpump hpc =>
      have hobserve : (forward i p event).foldl Sessions.observe m = m := by
        unfold forward
        split <;> rfl
      rw [hobserve]
      exact balanced_setPump hpump (by simp [hpc]) (by cases view <;> simp)
  | notifies i p view hpump hpc =>
      exact balanced_setPump hpump (by simp [hpc]) (by simp)
  | endsPump i p hpump hpc =>
      exact balanced_ended (pump?_eq_some.mp hpump) (by simp [Task.tokens, hpc])

/-! ### Invariants -/

/-- Each session was started once, and is in one place until it is ended. -/
structure Ledger (s : Manager) (m : Sessions) : Prop where
  fresh : ∀ x ∈ m.started, x.2 < s.sessions
  once : m.started.Nodup
  balance : ∀ x, s.places x + m.ended.count x ≤ m.started.count x

theorem Ledger.le_one (h : s.Ledger m) (x : String × SessionId) :
    s.places x + m.ended.count x ≤ 1 :=
  (h.balance x).trans (List.nodup_iff_count_le_one.mp h.once x)

theorem attached_of_live {live : Live} (h : s.live window = some live) :
    s.attached (window, live.handle) = 1 := by
  simp [attached, h, liveTokens]

theorem attached_le (s : Manager) (x : String × SessionId) : s.attached x ≤ s.places x :=
  Nat.le_add_right _ _

theorem count_tokens_le (h : s.tasks[i]? = some t) (x : String × SessionId) :
    s.attached x + t.tokens.count x ≤ s.places x :=
  Nat.add_le_add_left (count_le_count_held Task.tokens h x) _

theorem Ledger.not_mem_tokens (h : s.Ledger m) {live : Live} (hlive : s.live window = some live)
    (htask : t ∈ s.tasks) : (window, live.handle) ∉ t.tokens := by
  intro hmem
  obtain ⟨i, hi⟩ := List.getElem?_of_mem htask
  have hattached := attached_of_live hlive
  have hcount := List.count_pos_iff.mpr hmem
  have hplaces := count_tokens_le hi (window, live.handle)
  have hle := h.le_one (window, live.handle)
  omega

theorem Ledger.not_mem_ended (h : s.Ledger m) {live : Live} (hlive : s.live window = some live) :
    (window, live.handle) ∉ m.ended := by
  intro hmem
  have hattached := attached_of_live hlive
  have hcount := List.count_pos_iff.mpr hmem
  have hplaces := attached_le s (window, live.handle)
  have hle := h.le_one (window, live.handle)
  omega

theorem Linked.next (h : s.Linked) (hid : ∀ i, s'.identity? i = s.identity? i)
    (hgeneration : s'.nextGeneration = s.nextGeneration)
    (hlive : ∀ {w l}, s'.live w = some l → s.live w = some l)
    (htaken : ∀ {t x}, t ∈ s'.tasks → x ∈ t.lives →
      (∃ t ∈ s.tasks, x ∈ t.lives) ∨ s.live x.1 = some x.2)
    (hrunning : ∀ {w l p}, s'.live w = some l → s'.pump? l.pump = some p →
      p.pc ≠ .ending ∧ p.pc ≠ .finished ∧ p.aborted = false) : s'.Linked where
  generation_le := fun hi => by
    rw [hid] at hi
    rw [hgeneration]
    exact h.generation_le hi
  generation_inj := fun hi hj heq => by
    rw [hid] at hi hj
    exact h.generation_inj hi hj heq
  live := fun hl => by
    rw [hid]
    exact h.live (hlive hl)
  taken := fun ht hx => by
    rw [hid]
    rcases htaken ht hx with ⟨t, ht, hx⟩ | hl
    · exact h.taken ht hx
    · exact h.live hl
  running := hrunning

theorem Linked.of_pumps (h : s.Linked) (hpump : ∀ i, s'.pump? i = s.pump? i)
    (hgeneration : s'.nextGeneration = s.nextGeneration)
    (hlive : ∀ {w l}, s'.live w = some l → s.live w = some l)
    (htaken : ∀ {t x}, t ∈ s'.tasks → x ∈ t.lives →
      (∃ t ∈ s.tasks, x ∈ t.lives) ∨ s.live x.1 = some x.2) : s'.Linked := by
  refine h.next (fun i => by rw [identity?, identity?, hpump]) hgeneration hlive htaken ?_
  intro w l p hl hp
  rw [hpump] at hp
  exact h.running (hlive hl) hp

theorem taken_set {t' : Task} (ht' : ∀ x ∈ t'.lives, (∃ t ∈ s.tasks, x ∈ t.lives) ∨
    s.live x.1 = some x.2) {x : String × Live} (ht : t ∈ s.tasks.set i t') (hx : x ∈ t.lives) :
    (∃ t ∈ s.tasks, x ∈ t.lives) ∨ s.live x.1 = some x.2 := by
  rcases List.mem_or_eq_of_mem_set ht with hmem | rfl
  · exact .inl ⟨t, hmem, hx⟩
  · exact ht' x hx

theorem Linked.setTask (h : s.Linked) (htask : s.tasks[i]? = some t) (hpump : t.isPump = false)
    {t' : Task} (hpump' : t'.isPump = false) (hlives : ∀ x ∈ t'.lives, x ∈ t.lives) :
    (s.setTask i t').Linked :=
  h.of_pumps (pump?_setTask htask hpump hpump') rfl id fun ht hx =>
    taken_set (fun x hx => .inl ⟨t, List.mem_of_getElem? htask, hlives x hx⟩) ht hx

theorem Linked.start (h : s.Linked) (s' : Manager) (htasks : s'.tasks = s.tasks)
    (hgeneration : s'.nextGeneration = s.nextGeneration)
    (hlive : ∀ {w l}, s'.live w = some l → s.live w = some l) (hpump : t.isPump = false)
    (hlives : ∀ x ∈ t.lives, s.live x.1 = some x.2) : (s'.start t).Linked := by
  have hsame : ∀ i, (s'.start t).pump? i = s.pump? i := by
    intro i
    rw [pump?_start hpump]
    unfold pump?
    rw [htasks]
  refine h.of_pumps hsame hgeneration hlive fun {t' x} ht hx => ?_
  rw [tasks_start, htasks, List.mem_append, List.mem_singleton] at ht
  rcases ht with ht | rfl
  · exact .inl ⟨t', ht, hx⟩
  · exact .inr (hlives x hx)

theorem Linked.setPump {s' : Manager} (h : s.Linked) (htasks : s'.tasks = s.tasks)
    (hgeneration : s'.nextGeneration = s.nextGeneration)
    (hlive : ∀ {w l}, s'.live w = some l → s.live w = some l) (hpump : s.pump? i = some p)
    {pc : Pumping}
    (hpc : ∀ {w l}, s'.live w = some l → l.pump = i → pc ≠ .ending ∧ pc ≠ .finished) :
    (s'.setPump i p pc).Linked := by
  have hsame : ∀ j, s'.pump? j = s.pump? j := by
    intro j
    unfold pump?
    rw [htasks]
  have hset : ∀ j, (s'.setPump i p pc).pump? j =
      if j = i then some { p with pc := pc } else s.pump? j := by
    intro j
    rw [pump?_setPump ((hsame i).trans hpump), hsame]
  refine h.next ?_ hgeneration hlive ?_ ?_
  · intro j
    rw [identity?, identity?, hset]
    split_ifs with hj
    · rw [hj, hpump]
      rfl
    · rfl
  · intro t x ht hx
    have ht' : t ∈ s.tasks.set i (.pump { p with pc := pc }) := by
      rw [← htasks]
      exact ht
    exact taken_set (fun x hx => absurd hx List.not_mem_nil) ht' hx
  · intro w l q hl hq
    rw [hset] at hq
    split_ifs at hq with hj
    · obtain rfl := Option.some.inj hq
      have hrunning := h.running (hlive hl) (by rw [hj]; exact hpump)
      exact ⟨(hpc hl hj).1, (hpc hl hj).2, hrunning.2.2⟩
    · exact h.running (hlive hl) hq

theorem Linked.abort (h : s.Linked) (hledger : s.Ledger m) (htask : s.tasks[i]? = some t)
    (hpump : t.isPump = false) {y : String × Live} (hy : y ∈ t.lives) {t' : Task}
    (hpump' : t'.isPump = false) (hlives : ∀ x ∈ t'.lives, x ∈ t.lives) :
    ((s.abort y.2.pump).setTask i t').Linked := by
  have hmem := List.mem_of_getElem? htask
  have hpumps : ∀ j, ((s.abort y.2.pump).setTask i t').pump? j =
      if j = y.2.pump then (s.pump? j).map fun p => { p with aborted := true }
      else s.pump? j := by
    intro j
    rw [pump?_setTask (getElem?_abort htask hpump _) hpump hpump' j, pump?_abort]
  have hlive : ∀ {w l}, ((s.abort y.2.pump).setTask i t').live w = some l →
      s.live w = some l := by
    intro w l hl
    simpa [Manager.live] using hl
  refine h.next ?_ ?_ hlive ?_ ?_
  · intro j
    rw [identity?, identity?, hpumps]
    split_ifs
    · cases s.pump? j <;> rfl
    · rfl
  · unfold Manager.abort
    split <;> rfl
  · intro t'' x ht hx
    rcases List.mem_or_eq_of_mem_set ht with ht | rfl
    · rcases mem_tasks_abort ht with ht | hnil
      · exact .inl ⟨t'', ht, hx⟩
      · rw [hnil] at hx
        exact absurd hx List.not_mem_nil
    · exact .inl ⟨t, hmem, hlives x hx⟩
  · intro w l p hl hp
    have hl' := hlive hl
    rw [hpumps] at hp
    split_ifs at hp with hj
    · have hid := h.live hl'
      rw [hj, h.taken hmem hy] at hid
      have heq := Option.some.inj hid
      have hsame : (y.1, y.2.handle) = (w, l.handle) :=
        Prod.ext (congrArg Identity.window heq) (congrArg Identity.session heq)
      exact absurd (hsame ▸ Task.mem_tokens_of_mem_lives hy) (hledger.not_mem_tokens hl' hmem)
    · exact h.running hl' hp

theorem pump?_insertSession {profile : ConnectionProfile} {handle : SessionId}
    (htask : s.tasks[i]? = some (.opening window profile (.inserting handle))) (j : TaskId) :
    (s.insertSession i window profile handle).pump? j =
      if j = s.tasks.length then some (s.newPump window profile handle) else s.pump? j := by
  let slotted := (s.advance window).setSlot window (s.newSlot window profile handle)
  have hdone : (slotted.setTask i .done).pump? j = s.pump? j :=
    pump?_setTask (s := slotted) htask rfl rfl j
  have hlength : (slotted.setTask i .done).tasks.length = s.tasks.length := List.length_set ..
  have hstart := pump?_start_pump (slotted.setTask i .done) (s.newPump window profile handle) j
  rw [hdone, hlength] at hstart
  exact hstart

theorem live_insertSession (s : Manager) (i : TaskId) (window : String)
    (profile : ConnectionProfile) (handle : SessionId) (w : String) :
    (s.insertSession i window profile handle).live w =
      if w = window then some ⟨s.nextGeneration + 1, handle, s.tasks.length⟩ else s.live w :=
  live_setSlot (s := s.advance window) (s.newSlot window profile handle)

theorem Linked.insertSession (h : s.Linked) {profile : ConnectionProfile} {handle : SessionId}
    (htask : s.tasks[i]? = some (.opening window profile (.inserting handle))) :
    (s.insertSession i window profile handle).Linked := by
  have hpumps := pump?_insertSession htask
  have hid : ∀ j, (s.insertSession i window profile handle).identity? j =
      if j = s.tasks.length then some ⟨window, s.nextGeneration + 1, handle⟩
      else s.identity? j := by
    intro j
    rw [identity?, hpumps]
    split_ifs <;> rfl
  -- The pumps so far are not at the new place.
  have hold : ∀ {j id}, s.identity? j = some id → j ≠ s.tasks.length := by
    rintro j id hj rfl
    simp [identity?, pump?] at hj
  have hkept : ∀ {j id}, s.identity? j = some id →
      (s.insertSession i window profile handle).identity? j = some id := by
    intro j id hj
    rw [hid, if_neg (hold hj)]
    exact hj
  constructor
  · intro j id hj
    rw [hid] at hj
    split_ifs at hj
    · obtain rfl := Option.some.inj hj
      exact le_refl _
    · exact (h.generation_le hj).trans (Nat.le_succ _)
  · intro j k id id' hj hk heq
    rw [hid] at hj hk
    split_ifs at hj hk with hj' hk' hk'
    · rw [hj', hk']
    · obtain rfl := Option.some.inj hj
      have hle := h.generation_le hk
      simp only at heq
      omega
    · obtain rfl := Option.some.inj hk
      have hle := h.generation_le hj
      simp only at heq
      omega
    · exact h.generation_inj hj hk heq
  · intro w l hl
    rw [live_insertSession] at hl
    split_ifs at hl with hw
    · obtain rfl := Option.some.inj hl
      rw [hid, if_pos rfl, hw]
    · exact hkept (h.live hl)
  · intro t x ht hx
    have ht' : t ∈ s.tasks.set i .done ++ [.pump (s.newPump window profile handle)] := ht
    rw [List.mem_append, List.mem_singleton] at ht'
    rcases ht' with ht' | rfl
    · rcases List.mem_or_eq_of_mem_set ht' with ht' | rfl
      · exact hkept (h.taken ht' hx)
      · exact absurd hx List.not_mem_nil
    · exact absurd hx List.not_mem_nil
  · intro w l p hl hp
    rw [hpumps] at hp
    rw [live_insertSession] at hl
    split_ifs at hp with hlast
    · obtain rfl := Option.some.inj hp
      exact ⟨by simp [newPump], by simp [newPump], rfl⟩
    · split_ifs at hl
      · obtain rfl := Option.some.inj hl
        exact absurd rfl hlast
      · exact h.running hl hp

theorem Moves.linked (hmoves : Moves s a s' os) (h : s.Linked) (hledger : s.Ledger m) :
    s'.Linked := by
  have hset : ∀ {window : String} {slot : Slot} (slot' : Slot), s.slot window = some slot →
      slot'.live = slot.live ∨ slot'.live = none →
        ∀ {w l}, (s.setSlot window slot').live w = some l → s.live w = some l := by
    intro window slot slot' hslot hlive w l hl
    rw [live_setSlot] at hl
    split_ifs at hl with hw
    · rcases hlive with hlive | hlive
      · rw [hw, live_of_slot hslot, ← hlive]
        exact hl
      · rw [hlive] at hl
        cases hl
    · exact hl
  cases hmoves with
  | stays a => exact h
  | elapses time => exact h.of_pumps (fun _ => rfl) rfl id fun ht hx => .inl ⟨_, ht, hx⟩
  | opens window profile hslot => exact h.start _ rfl rfl id rfl (by simp [Task.lives])
  | takes window profile slot hslot =>
      refine h.start _ (tasks_setSlot ..) rfl (hset { slot with live := none } hslot (.inr rfl)) rfl ?_
      intro x hx
      cases hlive : slot.live with
      | none => simp [hlive, Task.lives] at hx
      | some live =>
          rw [hlive] at hx
          obtain rfl := List.mem_singleton.mp hx
          exact (live_of_slot hslot).trans hlive
  | closes window =>
      refine h.start { s with windows := s.windows.erase window } rfl rfl ?_ rfl ?_
      · intro w l hl
        rw [live_erase] at hl
        split_ifs at hl
        exact hl
      · intro x hx
        simp only [Task.lives, List.mem_map, Option.mem_toList] at hx
        obtain ⟨live, hlive, rfl⟩ := hx
        exact hlive
  | shutsDown =>
      refine h.start { s with windows := ∅ } rfl rfl ?_ rfl ?_
      · intro w l hl
        simp [Manager.live, Manager.slot] at hl
      · intro x hx
        simp only [Task.lives, List.mem_insertionSort, List.mem_filterMap] at hx
        obtain ⟨⟨window, slot⟩, hmem, hx⟩ := hx
        obtain ⟨live, hlive, rfl⟩ := Option.map_eq_some_iff.mp hx
        exact live_eq_some.mpr ⟨slot, AList.mem_lookup_iff.mpr hmem, hlive⟩
  | toggles window slot hslot view =>
      exact h.start _ (tasks_setSlot ..) rfl (hset { slot with view := view } hslot (.inl rfl)) rfl
        (by simp [Task.lives])
  | answers window live answer hlive => exact h.start _ rfl rfl id rfl (by simp [Task.lives])
  | replaces i window profile old htask =>
      exact h.abort (y := (window, old)) hledger htask rfl (List.mem_singleton_self _) rfl
        fun x hx => hx
  | endsOld i window profile old htask => exact h.setTask htask rfl rfl (by simp [Task.lives])
  | spawns i window profile htask =>
      have hspawned : ({ s with sessions := s.sessions + 1 } : Manager).Linked :=
        h.of_pumps (fun _ => rfl) rfl id fun ht hx => .inl ⟨_, ht, hx⟩
      exact hspawned.setTask htask rfl rfl (by simp [Task.lives])
  | fails i window profile htask => exact h.setTask htask rfl rfl (by simp [Task.lives])
  | inserts i window profile handle htask => exact h.insertSession htask
  | tells i lives report htask => exact h.setTask htask rfl rfl fun x hx => hx
  | waited a i lives report report' ha htask => exact h.setTask htask rfl rfl fun x hx => hx
  | expires i window live rest report report' htask =>
      exact h.abort (y := (window, live)) hledger htask rfl List.mem_cons_self rfl fun x hx => hx
  | releases i window live rest report htask =>
      exact h.setTask htask rfl rfl fun x hx => List.mem_cons_of_mem _ hx
  | closed i report htask => exact h.setTask htask rfl rfl (by simp [Task.lives])
  | answered i window htask => exact h.setTask htask rfl rfl (by simp [Task.lives])
  | clears i window slot view htask hslot hcertificate =>
      have hslotted : (s.setSlot window { slot with view := view }).Linked :=
        h.of_pumps (fun _ => rfl) rfl (hset { slot with view := view } hslot (.inl rfl))
          fun ht hx => .inl ⟨_, ht, hx⟩
      exact hslotted.setTask htask rfl rfl (by simp [Task.lives])
  | updates i window view htask => exact h.setTask htask rfl rfl (by simp [Task.lives])
  | receives i p event hpump hpc => exact h.setPump rfl rfl id hpump fun _ _ => by simp
  | cancels i p hpump hpc haborted =>
      refine h.setPump rfl rfl id hpump fun {w l} hl hi => ?_
      have hrunning := h.running hl (by rw [hi]; exact hpump)
      simp [haborted] at hrunning
  | folds i p event slot slot' view hpump hpc hslot howned hlive hview =>
      exact h.setPump (tasks_setSlot ..) rfl (hset slot' hslot (.inl hlive)) hpump fun _ _ => by simp
  | drops i p event hpump hpc => exact h.setPump rfl rfl id hpump fun _ _ => by simp
  | detaches i p slot hpump hpc hslot howned =>
      have hkept := fun {w l} => hset (w := w) (l := l)
        { slot with live := none, liveSince := none } hslot (.inr rfl)
      refine h.setPump (tasks_setSlot ..) rfl hkept hpump fun {w l} hl hi => ?_
      have hw := (h.of_pump (hkept hl) (by rw [hi]; exact hpump)).1
      rw [hw, live_setSlot, if_pos rfl] at hl
      cases hl
  | leaves i p hpump hpc hlost =>
      refine h.setPump rfl rfl id hpump fun {w l} hl hi => ?_
      obtain ⟨hw, hgeneration, -⟩ := h.of_pump hl (by rw [hi]; exact hpump)
      obtain ⟨slot, hslot, hlive⟩ := live_eq_some.mp hl
      have howned := hlost slot (by rw [← hw]; exact hslot)
      simp [Slot.ownedBy, hlive, hgeneration] at howned
  | forwards i p event view hpump hpc =>
      exact h.setPump rfl rfl id hpump fun _ _ => by cases view <;> simp
  | notifies i p view hpump hpc => exact h.setPump rfl rfl id hpump fun _ _ => by simp
  | endsPump i p hpump hpc =>
      refine h.setPump rfl rfl id hpump fun {w l} hl hi => ?_
      have hrunning := h.running hl (by rw [hi]; exact hpump)
      exact absurd hpc hrunning.1

/-- A step has nothing to do with the starts and ends of sessions, or starts a session that is new, or
ends one that is with a task. -/
theorem Moves.told (hmoves : Moves s a s' os) :
    ((∀ o ∈ os, ∀ m : Sessions, m.Accepts o ∧ m.observe o = m) ∧ s'.sessions = s.sessions) ∨
      (∃ (i : Nat) (window : String) (profile : ConnectionProfile),
        s.tasks[i]? = some (.opening window profile .spawning) ∧
          os = [.spawned window s.sessions] ∧ s'.sessions = s.sessions + 1) ∨
      ∃ (i : Nat) (t : Task) (window : String) (session : SessionId), s.tasks[i]? = some t ∧
        (window, session) ∈ t.tokens ∧ os = [.sessionEnded window session] ∧
          s'.sessions = s.sessions := by
  have habort : ∀ j, (s.abort j).sessions = s.sessions := by
    intro j
    unfold Manager.abort
    split <;> rfl
  have hone : ∀ {o : Out}, (∀ m : Sessions, m.Accepts o ∧ m.observe o = m) →
      ∀ o' ∈ [o], ∀ m : Sessions, m.Accepts o' ∧ m.observe o' = m := by
    intro o h o' ho'
    obtain rfl := List.mem_singleton.mp ho'
    exact h
  cases hmoves with
  | spawns i window profile htask => exact .inr (.inl ⟨i, window, profile, htask, rfl, rfl⟩)
  | endsOld i window profile old htask =>
      exact .inr (.inr ⟨i, _, window, old.handle, htask, List.mem_singleton_self _, rfl, rfl⟩)
  | releases i window live rest report htask =>
      exact .inr (.inr ⟨i, _, window, live.handle, htask, List.mem_cons_self, rfl, rfl⟩)
  | endsPump i p hpump hpc =>
      exact .inr (.inr ⟨i, _, p.window, p.session, pump?_eq_some.mp hpump,
        by simp [Task.tokens, hpc], rfl, rfl⟩)
  | shutsDown =>
      refine .inl ⟨fun o ho m => ?_, rfl⟩
      obtain ⟨w, -, rfl⟩ := List.mem_map.mp ho
      exact ⟨trivial, rfl⟩
  | tells i lives report htask =>
      refine .inl ⟨fun o ho m => ?_, rfl⟩
      obtain ⟨l, -, rfl⟩ := List.mem_map.mp ho
      exact ⟨trivial, rfl⟩
  | forwards i p event view hpump hpc =>
      refine .inl ⟨fun o ho m => ?_, rfl⟩
      unfold forward at ho
      split at ho <;> simp at ho <;> subst ho <;> exact ⟨trivial, rfl⟩
  | replaces i window profile old htask =>
      exact .inl ⟨hone fun m => ⟨trivial, rfl⟩, habort _⟩
  | expires i window live rest report report' htask => exact .inl ⟨by simp, habort _⟩
  | stays a => exact .inl ⟨by simp, rfl⟩
  | elapses time => exact .inl ⟨by simp, rfl⟩
  | opens window profile hslot => exact .inl ⟨by simp, rfl⟩
  | takes window profile slot hslot => exact .inl ⟨by simp, rfl⟩
  | closes window => exact .inl ⟨hone fun m => ⟨trivial, rfl⟩, rfl⟩
  | toggles window slot hslot view => exact .inl ⟨hone fun m => ⟨trivial, rfl⟩, rfl⟩
  | answers window live answer hlive => exact .inl ⟨hone fun m => ⟨trivial, rfl⟩, rfl⟩
  | fails i window profile htask => exact .inl ⟨by simp, rfl⟩
  | inserts i window profile handle htask => exact .inl ⟨hone fun m => ⟨trivial, rfl⟩, rfl⟩
  | waited a i lives report report' ha htask => exact .inl ⟨by simp, rfl⟩
  | closed i report htask => exact .inl ⟨by simp, rfl⟩
  | answered i window htask => exact .inl ⟨by simp, rfl⟩
  | clears i window slot view htask hslot hcertificate => exact .inl ⟨hone fun m => ⟨trivial, rfl⟩, rfl⟩
  | updates i window view htask => exact .inl ⟨hone fun m => ⟨trivial, rfl⟩, rfl⟩
  | receives i p event hpump hpc => exact .inl ⟨by simp, rfl⟩
  | cancels i p hpump hpc haborted => exact .inl ⟨by simp, rfl⟩
  | folds i p event slot slot' view hpump hpc hslot howned hlive hview =>
      exact .inl ⟨hone fun m => ⟨trivial, rfl⟩, rfl⟩
  | drops i p event hpump hpc => exact .inl ⟨by simp, rfl⟩
  | detaches i p slot hpump hpc hslot howned => exact .inl ⟨by simp, rfl⟩
  | leaves i p hpump hpc hlost => exact .inl ⟨by simp, rfl⟩
  | notifies i p view hpump hpc => exact .inl ⟨hone fun m => ⟨trivial, rfl⟩, rfl⟩

theorem Moves.ledger (hmoves : Moves s a s' os) (hlinked : s.Linked) (h : s.Ledger m) :
    s'.Ledger (os.foldl Sessions.observe m) := by
  have hbalance : ∀ x, s'.places x + (os.foldl Sessions.observe m).ended.count x ≤
      (os.foldl Sessions.observe m).started.count x := by
    intro x
    obtain ⟨lost, heq, -⟩ := hmoves.balanced hlinked m x
    have hle := h.balance x
    omega
  have hsame : (os.foldl Sessions.observe m).started = m.started → s'.sessions = s.sessions →
      s'.Ledger (os.foldl Sessions.observe m) := by
    intro hstarted hsessions
    refine ⟨?_, ?_, hbalance⟩
    · rw [hstarted, hsessions]
      exact h.fresh
    · rw [hstarted]
      exact h.once
  rcases hmoves.told with ⟨hneutral, hsessions⟩ | ⟨i, window, profile, -, rfl, hsessions⟩ |
    ⟨i, t, window, session, -, -, rfl, hsessions⟩
  · refine hsame ?_ hsessions
    rw [Transition.foldl_eq_self fun o ho => (hneutral o ho m).2]
  · refine ⟨?_, ?_, hbalance⟩
    · intro x hx
      rw [hsessions]
      rcases List.mem_cons.mp hx with rfl | hx
      · exact Nat.lt_succ_self _
      · exact Nat.lt_succ_of_lt (h.fresh x hx)
    · refine List.nodup_cons.mpr ⟨fun hmem => ?_, h.once⟩
      exact absurd (h.fresh _ hmem) (Nat.lt_irrefl _)
  · exact hsame rfl hsessions

/-- What holds in every run: the links and the ledger. -/
structure Sound (s : Manager) (m : Sessions) : Prop where
  linked : s.Linked
  ledger : s.Ledger m

theorem sound_new : new.Sound .start where
  linked :=
    { generation_le := fun h => by simp [identity?, pump?, new] at h
      generation_inj := fun h => by simp [identity?, pump?, new] at h
      live := fun h => by simp [Manager.live, Manager.slot, new] at h
      taken := fun h => by simp [new] at h
      running := fun h => by simp [Manager.live, Manager.slot, new] at h }
  ledger := ⟨fun x hx => absurd hx List.not_mem_nil, List.nodup_nil, fun x => Nat.le_refl 0⟩

theorem Sound.step (h : s.Sound m) (a : Action) :
    (s.step a).1.Sound ((s.step a).2.foldl Sessions.observe m) :=
  ⟨(step_moves s a).linked h.linked h.ledger, (step_moves s a).ledger h.linked h.ledger⟩

end Manager

end Drift.App
