import Drift.App.Record

/-!
# What one step of the manager can do

The steps of the tasks, with what each of them finds and leaves. Invariants of the manager follow by
cases.
-/

namespace Drift.App

namespace Manager

variable {s : Manager} {window w : String} {i j : TaskId} {t : Task} {p : Pump}

/-! ### The parts of the state -/

@[simp]
theorem slot_setSlot_same (s : Manager) (window : String) (slot : Slot) :
    (s.setSlot window slot).slot window = some slot := by
  simp [Manager.slot, setSlot]

theorem slot_setSlot_of_ne (h : w ≠ window) (slot : Slot) :
    (s.setSlot window slot).slot w = s.slot w := by
  simp [Manager.slot, setSlot, AList.lookup_insert_ne h]

theorem slot_setSlot (slot : Slot) :
    (s.setSlot window slot).slot w = if w = window then some slot else s.slot w := by
  split_ifs with h
  · rw [h, slot_setSlot_same]
  · exact slot_setSlot_of_ne h slot

@[simp]
theorem slot_setTask (s : Manager) (i : TaskId) (t : Task) (w : String) :
    (s.setTask i t).slot w = s.slot w := rfl

@[simp]
theorem slot_start (s : Manager) (t : Task) (w : String) : (s.start t).slot w = s.slot w := rfl

@[simp]
theorem slot_abort (s : Manager) (i : TaskId) (w : String) : (s.abort i).slot w = s.slot w := by
  unfold abort
  split <;> rfl

@[simp]
theorem tasks_setSlot (s : Manager) (window : String) (slot : Slot) :
    (s.setSlot window slot).tasks = s.tasks := rfl

@[simp]
theorem tasks_setTask (s : Manager) (i : TaskId) (t : Task) :
    (s.setTask i t).tasks = s.tasks.set i t := rfl

@[simp]
theorem tasks_start (s : Manager) (t : Task) : (s.start t).tasks = s.tasks ++ [t] := rfl

theorem pump?_eq_some : s.pump? i = some p ↔ s.tasks[i]? = some (.pump p) := by
  unfold pump?
  split
  · next q hq => simp [hq]
  · next hnot => simpa using hnot p

theorem live_eq_some {live : Live} :
    s.live window = some live ↔ ∃ slot, s.slot window = some slot ∧ slot.live = some live := by
  simp [Manager.live, Option.bind_eq_some_iff]

theorem live_of_slot {slot : Slot} (h : s.slot window = some slot) : s.live window = slot.live := by
  simp [Manager.live, h]

/-! ### What tasks say -/

section Read

variable {β : Type} {f : Task → Option β}

/-- What the task says, where a task need not say anything. -/
def read (s : Manager) (f : Task → Option β) (i : TaskId) : Option β := s.tasks[i]?.bind f

theorem read_of_task (htask : s.tasks[i]? = some t) (f : Task → Option β) : s.read f i = f t := by
  rw [read, htask, Option.bind_some]

theorem read_eq_some {b : β} :
    s.read f i = some b ↔ ∃ t, s.tasks[i]? = some t ∧ f t = some b :=
  Option.bind_eq_some_iff

theorem read_eq_none_of_le (h : s.tasks.length ≤ i) (f : Task → Option β) : s.read f i = none := by
  rw [read, List.getElem?_eq_none h, Option.bind_none]

theorem read_setTask (htask : s.tasks[i]? = some t) (t' : Task) (f : Task → Option β)
    (j : TaskId) : (s.setTask i t').read f j = if j = i then f t' else s.read f j := by
  have hlt : i < s.tasks.length := (List.getElem?_eq_some_iff.mp htask).1
  unfold read
  rw [tasks_setTask]
  split_ifs with h
  · rw [h, List.getElem?_set_self hlt, Option.bind_some]
  · rw [List.getElem?_set_ne (Ne.symm h)]

theorem read_start (s : Manager) (t : Task) (f : Task → Option β) (j : TaskId) :
    (s.start t).read f j = if j = s.tasks.length then f t else s.read f j := by
  unfold read
  rw [tasks_start]
  split_ifs with h
  · rw [h, List.getElem?_concat_length, Option.bind_some]
  · rcases Nat.lt_or_gt_of_ne h with hlt | hgt
    · rw [List.getElem?_append_left hlt]
    · have hlength : (s.tasks ++ [t]).length ≤ j := by
        rw [List.length_append, List.length_singleton]
        omega
      rw [List.getElem?_eq_none hlength, List.getElem?_eq_none (Nat.le_of_lt hgt)]

theorem read_setTask_of_eq (htask : s.tasks[i]? = some t) (t' : Task) (h : f t' = f t) (j : TaskId) :
    (s.setTask i t').read f j = s.read f j := by
  rw [read_setTask htask]
  split_ifs with hj
  · rw [hj, read_of_task htask, h]
  · rfl

theorem read_start_of_none (h : f t = none) (j : TaskId) : (s.start t).read f j = s.read f j := by
  rw [read_start]
  split_ifs with hj
  · rw [h, hj, read_eq_none_of_le (Nat.le_refl _)]
  · rfl

theorem read_abort (h : ∀ p : Pump, f (.pump { p with aborted := true }) = f (.pump p))
    (s : Manager) (i j : TaskId) : (s.abort i).read f j = s.read f j := by
  unfold abort
  split
  · next p hpump => exact read_setTask_of_eq (pump?_eq_some.mp hpump) _ (h p) j
  · rfl

end Read

theorem opens_of_getElem? (htask : s.tasks[i]? = some t) (hopening : t.isOpening window = true) :
    s.opens window = true :=
  List.any_eq_true.mpr ⟨t, List.mem_of_getElem? htask, hopening⟩

theorem opens_eq_true :
    s.opens window = true ↔ ∃ (i : Nat) (t : Task), s.tasks[i]? = some t ∧
      t.isOpening window = true := by
  constructor
  · intro h
    obtain ⟨t, hmem, hopening⟩ := List.any_eq_true.mp h
    obtain ⟨i, hi⟩ := List.getElem?_of_mem hmem
    exact ⟨i, t, hi, hopening⟩
  · rintro ⟨i, t, htask, hopening⟩
    exact opens_of_getElem? htask hopening

theorem opens_setTask (htask : s.tasks[i]? = some t) {t' : Task}
    (h : t'.isOpening window = true → t.isOpening window = true)
    (hopens : (s.setTask i t').opens window = true) : s.opens window = true := by
  obtain ⟨j, u, hu, hopening⟩ := opens_eq_true.mp hopens
  rw [tasks_setTask, List.getElem?_set] at hu
  split_ifs at hu with hij
  · obtain rfl := Option.some.inj hu
    exact opens_of_getElem? htask (h hopening)
  · exact opens_of_getElem? hu hopening

theorem opens_of_start (h : (s.start t).opens window = true) (ht : t.isOpening window = false) :
    s.opens window = true := by
  simpa [opens, List.any_append, ht] using h

theorem opens_abort (h : (s.abort j).opens window = true) : s.opens window = true := by
  unfold abort at h
  split at h
  · next p hpump =>
      have hopening : (Task.pump { p with aborted := true }).isOpening window = true →
          (Task.pump p).isOpening window = true := fun hp => by cases hp
      exact opens_setTask (pump?_eq_some.mp hpump) hopening h
  · exact h

/-! ### Steps -/

/-- What an action can do to the manager, and what happens then. -/
inductive Moves (s : Manager) : Action → Manager → List Out → Prop
  | stays (a : Action) : Moves s a s []
  | elapses (time : Duration) : Moves s (.elapse time) { s with now := s.now + time } []
  | opens (window : String) (profile : ConnectionProfile) (hslot : s.slot window = none) :
      Moves s (.open window profile) (s.start (.opening window profile .spawning)) []
  | takes (window : String) (profile : ConnectionProfile) (slot : Slot)
      (hslot : s.slot window = some slot) :
      Moves s (.open window profile)
        ((s.setSlot window { slot with live := none }).start
          (.opening window profile (slot.live.elim .spawning .replacing))) []
  | closes (window : String) :
      Moves s (.close window) (s.close window).1 [.removed window]
  | shutsDown : Moves s .shutdown s.shutdown.1 (s.windows.keys.map .removed)
  | toggles (window : String) (slot : Slot) (hslot : s.slot window = some slot)
      (view : SessionView) :
      Moves s (.toggleStats window)
        ((s.setSlot window { slot with view := view }).start (.updating window view))
        [.checked s.tasks.length window (some view)]
  | answers (window : String) (live : Live) (answer : CertificateAnswer)
      (hlive : s.live window = some live) :
      Moves s (.answerCertificate window answer true) (s.start (.answering window))
        [.answered live.handle answer]
  | replaces (i : TaskId) (window : String) (profile : ConnectionProfile) (old : Live)
      (htask : s.tasks[i]? = some (.opening window profile (.replacing old))) :
      Moves s (.run i) ((s.abort old.pump).setTask i (.opening window profile (.ending old)))
        [.closeSent old.handle]
  | endsOld (i : TaskId) (window : String) (profile : ConnectionProfile) (old : Live)
      (htask : s.tasks[i]? = some (.opening window profile (.ending old))) :
      Moves s (.run i) (s.setTask i (.opening window profile .spawning))
        [.sessionEnded window old.handle]
  | spawns (i : TaskId) (window : String) (profile : ConnectionProfile)
      (htask : s.tasks[i]? = some (.opening window profile .spawning)) :
      Moves s (.spawn i true)
        ({ s with sessions := s.sessions + 1 }.setTask i
          (.opening window profile (.inserting s.sessions)))
        [.spawned window s.sessions]
  | fails (i : TaskId) (window : String) (profile : ConnectionProfile)
      (htask : s.tasks[i]? = some (.opening window profile .spawning)) :
      Moves s (.spawn i false) (s.setTask i .done) []
  | inserts (i : TaskId) (window : String) (profile : ConnectionProfile) (handle : SessionId)
      (htask : s.tasks[i]? = some (.opening window profile (.inserting handle))) :
      Moves s (.run i) (s.insertSession i window profile handle)
        [.inserted window handle]
  | tells (i : TaskId) (lives : List (String × Live)) (report : ShutdownReport)
      (htask : s.tasks[i]? = some (.closing lives .telling report)) :
      Moves s (.run i) (s.setTask i (.closing lives .waiting report))
        (lives.map fun l => .closeSent l.2.handle)
  | waited (a : Action) (i : TaskId) (lives : List (String × Live))
      (report report' : ShutdownReport) (ha : a = .run i ∨ a = .expire i)
      (htask : s.tasks[i]? = some (.closing lives .waiting report)) :
      Moves s a (s.setTask i (.closing lives .ending report')) []
  | expires (i : TaskId) (window : String) (live : Live) (rest : List (String × Live))
      (report report' : ShutdownReport)
      (htask : s.tasks[i]? = some (.closing ((window, live) :: rest) .waiting report)) :
      Moves s (.expire i)
        ((s.abort live.pump).setTask i (.closing ((window, live) :: rest) .ending report')) []
  | releases (i : TaskId) (window : String) (live : Live) (rest : List (String × Live))
      (report : ShutdownReport)
      (htask : s.tasks[i]? = some (.closing ((window, live) :: rest) .ending report)) :
      Moves s (.run i) (s.setTask i (.closing rest .waiting report))
        [.sessionEnded window live.handle]
  | closed (i : TaskId) (report : ShutdownReport)
      (htask : s.tasks[i]? = some (.closing [] .waiting report)) :
      Moves s (.run i) (s.setTask i .done) []
  | answered (i : TaskId) (window : String) (htask : s.tasks[i]? = some (.answering window)) :
      Moves s (.run i) (s.setTask i .done) []
  | clears (i : TaskId) (window : String) (slot : Slot) (view : SessionView)
      (htask : s.tasks[i]? = some (.answering window)) (hslot : s.slot window = some slot)
      (hcertificate : slot.view.certificate.isSome = true) :
      Moves s (.run i)
        ((s.setSlot window { slot with view := view }).setTask i (.updating window view))
        [.checked i window (some view)]
  | updates (i : TaskId) (window : String) (view : SessionView)
      (htask : s.tasks[i]? = some (.updating window view)) :
      Moves s (.run i) (s.setTask i .done) [.viewChanged i window view]
  | receives (i : TaskId) (p : Pump) (event : Option SessionEvent) (hpump : s.pump? i = some p)
      (hpc : p.pc = .waiting) : Moves s (.recv i event) (s.setPump i p (.received event)) []
  | cancels (i : TaskId) (p : Pump) (hpump : s.pump? i = some p) (hpc : p.pc = .waiting)
      (haborted : p.aborted = true) : Moves s (.cancel i) (s.setPump i p .finished) []
  | folds (i : TaskId) (p : Pump) (event : SessionEvent) (slot slot' : Slot)
      (view : Option SessionView) (hpump : s.pump? i = some p)
      (hpc : p.pc = .received (some event)) (hslot : s.slot p.window = some slot)
      (howned : slot.ownedBy p.generation = true) (hlive : slot'.live = slot.live)
      (hview : view = some slot'.view ∨ view = none ∧ slot'.view = slot.view) :
      Moves s (.run i) ((s.setSlot p.window slot').setPump i p (.forwarding event view))
        [.checked i p.window view]
  | drops (i : TaskId) (p : Pump) (event : SessionEvent) (hpump : s.pump? i = some p)
      (hpc : p.pc = .received (some event)) : Moves s (.run i) (s.setPump i p .waiting) []
  | detaches (i : TaskId) (p : Pump) (slot : Slot) (hpump : s.pump? i = some p)
      (hpc : p.pc = .received none) (hslot : s.slot p.window = some slot)
      (howned : slot.ownedBy p.generation = true) :
      Moves s (.run i)
        ((s.setSlot p.window { slot with live := none, liveSince := none }).setPump i p .ending) []
  | leaves (i : TaskId) (p : Pump) (hpump : s.pump? i = some p) (hpc : p.pc = .received none)
      (hlost : ∀ slot, s.slot p.window = some slot → slot.ownedBy p.generation = false) :
      Moves s (.run i) (s.setPump i p .finished) []
  | forwards (i : TaskId) (p : Pump) (event : SessionEvent) (view : Option SessionView)
      (hpump : s.pump? i = some p) (hpc : p.pc = .forwarding event view) :
      Moves s (.run i) (s.setPump i p (view.elim .waiting .notifying)) (forward i p event)
  | notifies (i : TaskId) (p : Pump) (view : SessionView) (hpump : s.pump? i = some p)
      (hpc : p.pc = .notifying view) :
      Moves s (.run i) (s.setPump i p .waiting) [.viewChanged i p.window view]
  | endsPump (i : TaskId) (p : Pump) (hpump : s.pump? i = some p) (hpc : p.pc = .ending) :
      Moves s (.run i) (s.setPump i p .finished) [.sessionEnded p.window p.session]

@[simp]
theorem live_noteLive (slot : Slot) (now : Instant) : (slot.noteLive now).live = slot.live := rfl

@[simp]
theorem view_noteLive (slot : Slot) (now : Instant) : (slot.noteLive now).view = slot.view := rfl

theorem filter_eq_none_iff {slot : Option Slot} {generation : Nat} :
    slot.filter (·.ownedBy generation) = none ↔
      ∀ x, slot = some x → x.ownedBy generation = false := by
  cases slot with
  | none => simp
  | some x => simp [Option.filter]

theorem runOpening_moves {profile : ConnectionProfile} {pc : Opening}
    (htask : s.tasks[i]? = some (.opening window profile pc)) :
    Moves s (.run i) (s.runOpening i window profile pc).1
      (s.runOpening i window profile pc).2 := by
  cases pc with
  | replacing old => exact .replaces i window profile old htask
  | ending old => exact .endsOld i window profile old htask
  | spawning => exact .stays _
  | inserting handle => exact .inserts i window profile handle htask

theorem runClosing_moves {lives : List (String × Live)} {pc : Closing} {report : ShutdownReport}
    (htask : s.tasks[i]? = some (.closing lives pc report)) :
    Moves s (.run i) (s.runClosing i lives report pc).1 (s.runClosing i lives report pc).2 := by
  cases pc with
  | telling => exact .tells i lives report htask
  | waiting =>
      cases lives with
      | nil => exact .closed i report htask
      | cons l rest =>
          simp only [runClosing]
          split
          · exact .waited _ i _ report _ (.inl rfl) htask
          · exact .stays _
  | ending =>
      cases lives with
      | nil => exact .stays _
      | cons l rest => exact .releases i l.1 l.2 rest report htask

theorem runAnswering_moves (htask : s.tasks[i]? = some (.answering window)) :
    Moves s (.run i) (s.runAnswering i window).1 (s.runAnswering i window).2 := by
  unfold runAnswering
  split
  · exact .answered i window htask
  · next slot hslot =>
      split
      · exact .answered i window htask
      · next hcertificate =>
          refine .clears i window slot _ htask hslot ?_
          simpa [Option.isSome_iff_ne_none] using hcertificate

theorem foldEvent_moves {event : SessionEvent} (hpump : s.pump? i = some p)
    (hpc : p.pc = .received (some event)) :
    Moves s (.run i) (s.foldEvent i p event).1 (s.foldEvent i p event).2 := by
  unfold foldEvent
  split
  · next slot hfilter =>
      obtain ⟨hslot, howned⟩ := Option.filter_eq_some_iff.mp hfilter
      refine .folds i p event slot _ _ hpump hpc hslot howned rfl ?_
      cases hchanged : (slot.view.apply event).2 with
      | true => exact .inl rfl
      | false => exact .inr ⟨rfl, SessionView.apply_eq_of_not_changed hchanged⟩
  · exact .drops i p event hpump hpc

theorem endStream_moves (hpump : s.pump? i = some p) (hpc : p.pc = .received none) :
    Moves s (.run i) (s.endStream i p).1 (s.endStream i p).2 := by
  unfold endStream
  split
  · next slot hfilter =>
      obtain ⟨hslot, howned⟩ := Option.filter_eq_some_iff.mp hfilter
      exact .detaches i p slot hpump hpc hslot howned
  · next hfilter => exact .leaves i p hpump hpc (filter_eq_none_iff.mp hfilter)

theorem runPump_moves (hpump : s.pump? i = some p) :
    Moves s (.run i) (s.runPump i p).1 (s.runPump i p).2 := by
  unfold runPump
  split
  · exact .stays _
  · next event hpc => exact foldEvent_moves hpump hpc
  · next hpc => exact endStream_moves hpump hpc
  · next event view hpc => exact .forwards i p event view hpump hpc
  · next view hpc => exact .notifies i p view hpump hpc
  · next hpc => exact .endsPump i p hpump hpc
  · exact .stays _

theorem run_moves (s : Manager) (i : TaskId) : Moves s (.run i) (s.run i).1 (s.run i).2 := by
  unfold run
  split
  · next window profile pc htask => exact runOpening_moves htask
  · next lives pc report htask => exact runClosing_moves htask
  · next window htask => exact runAnswering_moves htask
  · next window view htask => exact .updates i window view htask
  · next p htask => exact runPump_moves (pump?_eq_some.mpr htask)
  · exact .stays _
  · exact .stays _

theorem expire_moves (s : Manager) (i : TaskId) :
    Moves s (.expire i) (s.expire i).1 (s.expire i).2 := by
  unfold expire
  split
  · next window live rest report htask =>
      split
      · next hfinished =>
          simp only [runClosing, hfinished, if_true]
          exact .waited _ i _ report _ (.inr rfl) htask
      · exact .expires i window live rest report _ htask
  · exact .stays _

/-- **Steps.** An action does one of the things of `Moves`. -/
theorem step_moves (s : Manager) (a : Action) : Moves s a (s.step a).1 (s.step a).2 := by
  cases a with
  | «open» window profile =>
      simp only [step, Manager.open]
      split
      · next slot hslot => exact .takes window profile slot hslot
      · next hslot => exact .opens window profile hslot
  | close window => exact .closes window
  | shutdown => exact .shutsDown
  | toggleStats window =>
      simp only [step, toggleStats]
      split
      · exact .stays _
      · next slot hslot => exact .toggles window slot hslot _
  | answerCertificate window answer delivered =>
      simp only [step, answerCertificate]
      split
      · next live hlive =>
          cases delivered with
          | true => exact .answers window live answer hlive
          | false => exact .stays _
      · exact .stays _
  | run i => exact run_moves s i
  | spawn i started =>
      simp only [step, spawn]
      split
      · next window profile htask =>
          cases started with
          | true => exact .spawns i window profile htask
          | false => exact .fails i window profile htask
      · exact .stays _
  | recv i event =>
      simp only [step, recv]
      split
      · next p hpump =>
          split
          · next hpc => exact .receives i p event hpump hpc
          · exact .stays _
      · exact .stays _
  | cancel i =>
      simp only [step, cancel]
      split
      · next p hpump =>
          split
          · next h => exact .cancels i p hpump h.1 h.2
          · exact .stays _
      · exact .stays _
  | expire i => exact expire_moves s i
  | elapse time => exact .elapses time

end Manager

end Drift.App
