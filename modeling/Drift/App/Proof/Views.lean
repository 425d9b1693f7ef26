import Drift.App.Proof.Ledger

/-!
# The last view a window was given

A view is taken under the lock and given to the window later. While windows are given their views in the
order in which these were taken, what a window was given last is what the manager has.
-/

namespace Drift.App

open Transition

namespace Manager

variable {s s' : Manager} {a : Action} {os : List Out} {window w : String} {i j : TaskId}
  {t t' : Task} {p : Pump} {m : Displays} {view : SessionView}

/-! ### Views on the way -/

/-- The view that the task is to give to the window. -/
def viewAt (s : Manager) (i : TaskId) (window : String) : Option SessionView :=
  s.read (·.view? window) i

theorem viewAt_of_task (htask : s.tasks[i]? = some t) (w : String) :
    s.viewAt i w = t.view? w :=
  read_of_task htask _

theorem viewAt_eq_none_of_le (h : s.tasks.length ≤ j) (w : String) : s.viewAt j w = none :=
  read_eq_none_of_le h _

theorem viewAt_setTask (htask : s.tasks[i]? = some t) (t' : Task) (j : TaskId) (w : String) :
    (s.setTask i t').viewAt j w = if j = i then t'.view? w else s.viewAt j w :=
  read_setTask htask t' _ j

theorem viewAt_setTask_of_eq (htask : s.tasks[i]? = some t) (t' : Task)
    (h : ∀ w, t'.view? w = t.view? w) (j : TaskId) (w : String) :
    (s.setTask i t').viewAt j w = s.viewAt j w :=
  read_setTask_of_eq htask t' (h w) j

theorem viewAt_start_of_eq (h : ∀ w, t.view? w = none) (j : TaskId) (w : String) :
    (s.start t).viewAt j w = s.viewAt j w :=
  read_start_of_none (h w) j

theorem viewAt_abort (s : Manager) (i j : TaskId) (w : String) :
    (s.abort i).viewAt j w = s.viewAt j w :=
  read_abort (fun _ => rfl) s i j

/-! ### Steps -/

/-- What a step does to the views: it leaves them, puts in a session with a view of its own, takes a
view, or gives one to its window. -/
inductive ViewMoves (s : Manager) (a : Action) (s' : Manager) : List Out → Prop
  | keeps (os : List Out) (hos : ∀ o ∈ os, ∀ m : Displays, m.observe o = m)
      (hviews : ∀ j w, s'.viewAt j w = s.viewAt j w)
      (hslots : ∀ w slot', s'.slot w = some slot' →
        ∃ slot, s.slot w = some slot ∧ slot.view = slot'.view) : ViewMoves s a s' os
  | inserts (window : String) (session : SessionId)
      (hviews : ∀ j w, s'.viewAt j w = s.viewAt j w)
      (hslots : ∀ w, w ≠ window → s'.slot w = s.slot w) :
      ViewMoves s a s' [.inserted window session]
  | takes (i : TaskId) (window : String) (slot : Slot) (hbefore : ∀ w, s.viewAt i w = none)
      (hviews : ∀ j w, s'.viewAt j w =
        if j = i ∧ w = window then some slot.view else s.viewAt j w)
      (hslots : ∀ w, s'.slot w = if w = window then some slot else s.slot w) :
      ViewMoves s a s' [.checked i window (some slot.view)]
  | shows (i : TaskId) (window : String) (view : SessionView)
      (ha : s.shows a = some (i, window)) (hbefore : s.viewAt i window = some view)
      (hviews : ∀ j w, s'.viewAt j w = if j = i then none else s.viewAt j w)
      (hslots : ∀ w, s'.slot w = s.slot w) : ViewMoves s a s' [.viewChanged i window view]

def Pumping.isBlind : Pumping → Bool
  | .forwarding _ _ | .notifying _ => false
  | _ => true

theorem view?_pump_of_isBlind (h : Pumping.isBlind p.pc = true) (w : String) :
    (Task.pump p).view? w = none := by
  simp only [Task.view?]
  split_ifs
  · cases hpc : p.pc <;> first | rfl | (rw [hpc] at h; cases h)
  · rfl

theorem viewAt_setPump_of_isBlind (hpump : s.pump? i = some p) (hpc : Pumping.isBlind p.pc = true)
    {pc : Pumping} (hpc' : Pumping.isBlind pc = true) (j : TaskId) (w : String) :
    (s.setPump i p pc).viewAt j w = s.viewAt j w :=
  viewAt_setTask_of_eq (pump?_eq_some.mp hpump) _ (fun w => by
    rw [view?_pump_of_isBlind (p := { p with pc := pc }) hpc', view?_pump_of_isBlind hpc]) j w

theorem slots_setSlot {slot slot' : Slot} (hslot : s.slot window = some slot)
    (hview : slot'.view = slot.view) (w : String) (x : Slot)
    (hx : (s.setSlot window slot').slot w = some x) :
    ∃ y, s.slot w = some y ∧ y.view = x.view := by
  rw [slot_setSlot] at hx
  split_ifs at hx with hw
  · obtain rfl := Option.some.inj hx
    exact ⟨slot, by rw [hw]; exact hslot, hview.symm⟩
  · exact ⟨x, hx, rfl⟩

theorem if_taken (hbefore : ∀ w, s.viewAt i w = none) (j : TaskId) (w : String) :
    (if j = i then if window = w then some view else none else s.viewAt j w) =
      if j = i ∧ w = window then some view else s.viewAt j w := by
  by_cases hj : j = i
  · by_cases hw : w = window
    · simp [hj, hw]
    · simp [hj, hw, Ne.symm hw, hbefore]
  · simp [hj]

theorem Moves.views (hmoves : Moves s a s' os) : ViewMoves s a s' os := by
  have hnil : ∀ o ∈ ([] : List Out), ∀ m : Displays, m.observe o = m := by simp
  have hone : ∀ {o : Out}, (∀ m : Displays, m.observe o = m) →
      ∀ o' ∈ [o], ∀ m : Displays, m.observe o' = m := by
    intro o h o' ho'
    obtain rfl := List.mem_singleton.mp ho'
    exact h
  have hsame : ∀ w slot', s.slot w = some slot' →
      ∃ slot, s.slot w = some slot ∧ slot.view = slot'.view :=
    fun w slot' h => ⟨slot', h, rfl⟩
  cases hmoves with
  | stays a => exact .keeps _ hnil (fun _ _ => rfl) hsame
  | elapses time => exact .keeps _ hnil (fun _ _ => rfl) hsame
  | opens window profile hslot => exact .keeps _ hnil (viewAt_start_of_eq fun w => rfl) hsame
  | takes window profile slot hslot =>
      exact .keeps _ hnil (viewAt_start_of_eq fun w => rfl) (slots_setSlot hslot rfl)
  | closes window =>
      refine .keeps _ (hone fun m => rfl) (viewAt_start_of_eq fun w => rfl) ?_
      intro w slot' h
      refine ⟨slot', ?_, rfl⟩
      by_cases hw : w = window
      · subst hw
        simp [Manager.close, Manager.slot, Manager.start] at h
      · have herase : (s.windows.erase window).lookup w = some slot' := h
        rw [AList.lookup_erase_ne hw] at herase
        exact herase
  | shutsDown =>
      refine .keeps _ (fun o ho m => ?_) (viewAt_start_of_eq fun w => rfl) ?_
      · obtain ⟨w, -, rfl⟩ := List.mem_map.mp ho
        rfl
      · intro w slot' h
        have hempty : (∅ : AList fun _ : String => Slot).lookup w = some slot' := h
        rw [AList.lookup_empty] at hempty
        cases hempty
  | toggles window slot hslot view =>
      refine .takes s.tasks.length window { slot with view := view }
        (viewAt_eq_none_of_le (Nat.le_refl _)) ?_ fun w => slot_setSlot _
      intro j w
      refine (read_start (s.setSlot window { slot with view := view }) _ _ j).trans ?_
      exact if_taken (fun w => viewAt_eq_none_of_le (Nat.le_refl _) w) j w
  | answers window live answer hlive =>
      exact .keeps _ (hone fun m => rfl) (viewAt_start_of_eq fun w => rfl) hsame
  | replaces i window profile old htask =>
      refine .keeps _ (hone fun m => rfl) ?_ (fun w slot' h => hsame w slot' (by simpa using h))
      intro j w
      exact (viewAt_setTask_of_eq (getElem?_abort htask rfl old.pump)
        (.opening window profile (.ending old)) (fun w => rfl) j w).trans
        (viewAt_abort ..)
  | endsOld i window profile old htask =>
      exact .keeps _ (hone fun m => rfl) (viewAt_setTask_of_eq htask _ fun w => rfl) hsame
  | spawns i window profile htask =>
      exact .keeps _ (hone fun m => rfl)
        (viewAt_setTask_of_eq (s := { s with sessions := s.sessions + 1 }) htask _ fun w => rfl) hsame
  | fails i window profile htask =>
      exact .keeps _ hnil (viewAt_setTask_of_eq htask _ fun w => rfl) hsame
  | inserts i window profile handle htask =>
      let slotted := (s.advance window).setSlot window (s.newSlot window profile handle)
      refine .inserts window handle ?_ fun w hw => slot_setSlot_of_ne hw _
      intro j w
      have hstart : (s.insertSession i window profile handle).viewAt j w =
          (slotted.setTask i .done).viewAt j w :=
        viewAt_start_of_eq (fun w => view?_pump_of_isBlind rfl w) j w
      exact hstart.trans (viewAt_setTask_of_eq (s := slotted) htask .done (fun w => rfl) j w)
  | tells i lives report htask =>
      refine .keeps _ (fun o ho m => ?_) (viewAt_setTask_of_eq htask _ fun w => rfl) hsame
      obtain ⟨l, -, rfl⟩ := List.mem_map.mp ho
      rfl
  | waited a i lives report report' ha htask =>
      exact .keeps _ hnil (viewAt_setTask_of_eq htask _ fun w => rfl) hsame
  | expires i window live rest report report' htask =>
      refine .keeps _ hnil ?_ (fun w slot' h => hsame w slot' (by simpa using h))
      intro j w
      exact (viewAt_setTask_of_eq (getElem?_abort htask rfl live.pump)
        (.closing ((window, live) :: rest) .ending report') (fun w => rfl) j w).trans
        (viewAt_abort ..)
  | releases i window live rest report htask =>
      exact .keeps _ (hone fun m => rfl) (viewAt_setTask_of_eq htask _ fun w => rfl) hsame
  | closed i report htask =>
      exact .keeps _ hnil (viewAt_setTask_of_eq htask _ fun w => rfl) hsame
  | answered i window htask =>
      exact .keeps _ hnil (viewAt_setTask_of_eq htask _ fun w => rfl) hsame
  | clears i window slot view htask hslot hcertificate =>
      refine .takes i window { slot with view := view } (fun w => viewAt_of_task htask w) ?_
        fun w => slot_setSlot _
      intro j w
      rw [viewAt_setTask (s := s.setSlot window { slot with view := view }) htask]
      exact if_taken (fun w => viewAt_of_task htask w) j w
  | updates i window view htask =>
      refine .shows i window view (by simp [Manager.shows, htask]) ?_
        (viewAt_setTask htask .done) fun w => rfl
      rw [viewAt_of_task htask]
      simp [Task.view?]
  | receives i p event hpump hpc =>
      exact .keeps _ hnil (viewAt_setPump_of_isBlind hpump (by rw [hpc]; rfl) rfl) hsame
  | cancels i p hpump hpc haborted =>
      exact .keeps _ hnil (viewAt_setPump_of_isBlind hpump (by rw [hpc]; rfl) rfl) hsame
  | folds i p event slot slot' view hpump hpc hslot howned hlive hview =>
      have hblind : ∀ w, s.viewAt i w = none := fun w => by
        rw [viewAt_of_task (pump?_eq_some.mp hpump)]
        exact view?_pump_of_isBlind (by rw [hpc]; rfl) w
      have hset := viewAt_setTask (s := s.setSlot p.window slot') (pump?_eq_some.mp hpump)
        (.pump { p with pc := .forwarding event view })
      rcases hview with rfl | ⟨rfl, hview⟩
      · refine .takes i p.window slot' hblind ?_ fun w => slot_setSlot _
        intro j w
        exact (hset j w).trans (if_taken hblind j w)
      · refine .keeps _ (hone fun m => rfl) ?_ (slots_setSlot hslot hview)
        intro j w
        refine (hset j w).trans ?_
        split_ifs with hj
        · rw [hj, hblind]
          simp [Task.view?]
        · rfl
  | drops i p event hpump hpc =>
      exact .keeps _ hnil (viewAt_setPump_of_isBlind hpump (by rw [hpc]; rfl) rfl) hsame
  | detaches i p slot hpump hpc hslot howned =>
      exact .keeps _ hnil
        (viewAt_setPump_of_isBlind
          (s := s.setSlot p.window { slot with live := none, liveSince := none }) hpump
          (by rw [hpc]; rfl) rfl) (slots_setSlot hslot rfl)
  | leaves i p hpump hpc hlost =>
      exact .keeps _ hnil (viewAt_setPump_of_isBlind hpump (by rw [hpc]; rfl) rfl) hsame
  | forwards i p event view hpump hpc =>
      refine .keeps _ (fun o ho m => ?_)
        (viewAt_setTask_of_eq (pump?_eq_some.mp hpump) _ fun w => ?_) hsame
      · unfold forward at ho
        split at ho <;> simp at ho <;> subst ho <;> rfl
      · cases view <;> simp [Task.view?, hpc]
  | notifies i p view hpump hpc =>
      have hshows : s.shows (.run i) = some (i, p.window) := by
        simp [Manager.shows, pump?_eq_some.mp hpump, hpc]
      refine .shows i p.window view hshows ?_ ?_ fun w => rfl
      · rw [viewAt_of_task (pump?_eq_some.mp hpump)]
        simp [Task.view?, hpc]
      · intro j w
        refine (viewAt_setTask (pump?_eq_some.mp hpump) _ j w).trans ?_
        rw [view?_pump_of_isBlind (p := { p with pc := .waiting }) rfl]
  | endsPump i p hpump hpc =>
      exact .keeps _ (hone fun m => rfl)
        (viewAt_setPump_of_isBlind hpump (by rw [hpc]; rfl) rfl) hsame

/-! ### Runs -/

theorem window_eq_of_viewAt {view' : SessionView} (h : s.viewAt i window = some view)
    (h' : s.viewAt i w = some view') : w = window := by
  obtain ⟨t, htask, hview⟩ := Option.bind_eq_some_iff.mp h
  rw [viewAt_of_task htask] at h'
  cases t with
  | updating w₀ view₀ =>
      simp only [Task.view?] at hview h'
      split_ifs at hview h' with hw hw'
      exact hw'.symm.trans hw
  | pump p =>
      simp only [Task.view?] at hview h'
      split_ifs at hview h' with hw hw'
      exact hw'.symm.trans hw
  | _ => cases hview

def lastTaken (m : Displays) (window : String) : Option SessionView :=
  ((m.queue window).getLast?.map (·.2)).or (m.shown window)

/-- The queues hold the views on the way, and the last one taken is the view of the window. -/
structure Displayed (s : Manager) (m : Displays) : Prop where
  queued : ∀ i w v, (i, v) ∈ m.queue w ↔ s.viewAt i w = some v
  nodup : ∀ w, ((m.queue w).map Prod.fst).Nodup
  latest : ∀ w slot, s.slot w = some slot → m.changed w = true → lastTaken m w = some slot.view

theorem displayed_new : new.Displayed .start where
  queued := fun i w v => by simp [Displays.start, viewAt, read, new]
  nodup := fun w => List.nodup_nil
  latest := fun w slot hslot => by simp [Manager.slot, new] at hslot

theorem Displayed.takes {slot : Slot} (h : s.Displayed m) (hbefore : ∀ w, s.viewAt i w = none)
    (hviews : ∀ j w, s'.viewAt j w =
      if j = i ∧ w = window then some slot.view else s.viewAt j w)
    (hslots : ∀ w, s'.slot w = if w = window then some slot else s.slot w) :
    s'.Displayed (m.observe (.checked i window (some slot.view))) := by
  have hfresh : ∀ w v, (i, v) ∉ m.queue w := by
    intro w v hmem
    rw [h.queued, hbefore] at hmem
    cases hmem
  have hqueue : ∀ w, (m.observe (.checked i window (some slot.view))).queue w =
      if w = window then m.queue w ++ [(i, slot.view)] else m.queue w := by
    intro w
    simp only [Displays.observe, Function.update_apply]
    split_ifs with hw
    · rw [hw]
    · rfl
  constructor
  · intro j w v
    rw [hqueue, hviews]
    by_cases hw : w = window
    · by_cases hj : j = i
      · simp [hw, hj, hfresh, eq_comm]
      · simp [hw, hj, h.queued]
    · simp [hw, h.queued]
  · intro w
    rw [hqueue]
    split_ifs
    · rw [List.map_append, List.nodup_append]
      refine ⟨h.nodup w, List.nodup_singleton i, ?_⟩
      intro j hj k hk
      obtain ⟨x, hx, rfl⟩ := List.mem_map.mp hj
      obtain rfl := List.mem_singleton.mp hk
      rintro rfl
      exact hfresh w x.2 hx
    · exact h.nodup w
  · intro w slot' hslot hchanged
    rw [hslots] at hslot
    unfold lastTaken
    rw [hqueue]
    split_ifs at hslot ⊢ with hw
    · obtain rfl := Option.some.inj hslot
      simp
    · have hchanged' : m.changed w = true := by
        simpa [Displays.observe, hw] using hchanged
      exact h.latest w slot' hslot hchanged'

theorem Displayed.shows (h : s.Displayed m) (hbefore : s.viewAt i window = some view)
    (hhead : (m.queue window).head?.map (·.1) = some i)
    (hviews : ∀ j w, s'.viewAt j w = if j = i then none else s.viewAt j w)
    (hslots : ∀ w, s'.slot w = s.slot w) :
    s'.Displayed (m.observe (.viewChanged i window view)) := by
  obtain ⟨rest, hrest⟩ : ∃ rest, m.queue window = (i, view) :: rest := by
    obtain ⟨x, hx, rfl⟩ := Option.map_eq_some_iff.mp hhead
    obtain ⟨rest, hrest⟩ := List.head?_eq_some_iff.mp hx
    have hmem : (x.1, x.2) ∈ m.queue window := hrest ▸ List.mem_cons_self
    rw [h.queued, hbefore] at hmem
    refine ⟨rest, ?_⟩
    rw [hrest, Option.some.inj hmem]
  have hnodup := h.nodup window
  rw [hrest, List.map_cons, List.nodup_cons] at hnodup
  have hqueue : ∀ w, (m.observe (.viewChanged i window view)).queue w =
      if w = window then rest else m.queue w := by
    intro w
    simp only [Displays.observe, Function.update_apply, hrest]
    split_ifs
    · simp
    · rfl
  constructor
  · intro j w v
    rw [hqueue, hviews]
    split_ifs with hw hj hj
    · rw [hj]
      refine iff_of_false (fun hmem => ?_) nofun
      exact hnodup.1 (List.mem_map.mpr ⟨_, hmem, rfl⟩)
    · rw [← h.queued, hw, hrest, List.mem_cons]
      simp [hj]
    · rw [hj, h.queued]
      refine iff_of_false (fun hsome => ?_) nofun
      exact hw (window_eq_of_viewAt hbefore hsome)
    · exact h.queued j w v
  · intro w
    rw [hqueue]
    split_ifs
    · exact hnodup.2
    · exact h.nodup w
  · intro w slot hslot hchanged
    rw [hslots] at hslot
    have hlatest := h.latest w slot hslot hchanged
    unfold lastTaken at hlatest ⊢
    rw [hqueue]
    split_ifs with hw
    · rw [hw, hrest] at hlatest
      cases rest with
      | nil => simpa [Displays.observe, hw] using hlatest
      | cons x rest =>
          simp only [List.getLast?_cons_cons] at hlatest
          simpa [Displays.observe, hw, List.getLast?_cons] using hlatest
    · simpa [Displays.observe, hw] using hlatest

theorem Displayed.moves (h : s.Displayed m) (hmoves : ViewMoves s a s' os)
    (horder : s.showsInOrder m a = true) : s'.Displayed (os.foldl Displays.observe m) := by
  cases hmoves with
  | keeps os hos hviews hslots =>
      have hsame : os.foldl Displays.observe m = m := foldl_eq_self fun o ho => hos o ho m
      rw [hsame]
      refine ⟨fun j w v => by rw [hviews]; exact h.queued j w v, h.nodup, ?_⟩
      intro w slot' hslot hchanged
      obtain ⟨slot, hslot', hview⟩ := hslots w slot' hslot
      rw [← hview]
      exact h.latest w slot hslot' hchanged
  | inserts window session hviews hslots =>
      refine ⟨fun j w v => by rw [hviews]; exact h.queued j w v, h.nodup, ?_⟩
      intro w slot hslot hchanged
      have hne : w ≠ window := by
        rintro rfl
        simp [Displays.observe] at hchanged
      rw [hslots w hne] at hslot
      exact h.latest w slot hslot (by simpa [Displays.observe, hne] using hchanged)
  | takes i window slot hbefore hviews hslots => exact h.takes hbefore hviews hslots
  | shows i window view ha hbefore hviews hslots =>
      refine h.shows hbefore ?_ hviews hslots
      simpa [showsInOrder, ha] using horder

/-- **Views.** If every window is given its views in the order in which they were taken, the last view
that a window was given is the one the manager has for it, wherever no view is on the way to the window
and its view has changed since its session was put in. -/
theorem views_history (as : List Action)
    (horder : Along step Displays.observe (fun s m a => s.showsInOrder m a = true) new .start as) :
    let after := history as
    let m := after.2.foldl Displays.observe .start
    ∀ window slot, after.1.slot window = some slot → m.changed window = true →
      (∀ t ∈ after.1.tasks, t.view? window = none) → m.shown window = some slot.view := by
  have hdisplayed := run_related Displayed
    (fun s m a h horder => h.moves (step_moves s a).views horder) displayed_new horder
  intro after m window slot hslot hchanged hquiet
  have hlatest : lastTaken m window = some slot.view :=
    hdisplayed.latest window slot hslot hchanged
  have hempty : m.queue window = [] := by
    refine List.eq_nil_iff_forall_not_mem.mpr fun x hx => ?_
    have hview := (hdisplayed.queued x.1 window x.2).mp hx
    obtain ⟨t, htask, hview⟩ := Option.bind_eq_some_iff.mp hview
    rw [hquiet t (List.mem_of_getElem? htask)] at hview
    cases hview
  rw [lastTaken, hempty] at hlatest
  exact hlatest

/-- The view changes, the statistics are switched on, and the changes are shown one after the other. -/
def shownInOrder : List Action :=
  [.open "w" sample, .spawn 0 true, .run 0, .recv 1 (some connected), .run 1, .run 1,
    .toggleStats "w", .run 1, .run 2]

theorem views_shownInOrder :
    let after := history shownInOrder
    let m := after.2.foldl Displays.observe .start
    ∀ window slot, after.1.slot window = some slot → m.changed window = true →
      (∀ t ∈ after.1.tasks, t.view? window = none) → m.shown window = some slot.view :=
  views_history shownInOrder (by decide)

/-- The statistics are switched on and shown before the state of the session is, which was taken first. -/
def overtaken : List Action :=
  [.open "w" sample, .spawn 0 true, .run 0, .recv 1 (some connected), .run 1, .run 1,
    .toggleStats "w", .run 2, .run 1]

theorem not_views_overtaken :
    let after := history overtaken
    let m := after.2.foldl Displays.observe .start
    after.1.Quiet ∧ m.changed "w" = true ∧ (m.shown "w").map (·.showStats) = some false ∧
      (after.1.slot "w").map (·.view.showStats) = some true := by
  decide

end Manager

end Drift.App
