import Drift.App.Proof.Ledger

/-!
# What reaches the host is of the session that owns the window

What a task is to deliver to a window was taken from the session that owned the window. It is delivered
in time, when the owner of a window does not change while something is on the way to the window.
-/

namespace Drift.App

open Transition

/-- What the task speaks for the window by, if it has something for the window: the generation of a pump,
and nothing for a call. -/
def Task.ticket? (window : String) (t : Task) : Option (Option Nat) :=
  if t.isDelivering window then
    match t with
    | .pump p => some (some p.generation)
    | _ => some none
  else none

namespace Manager

variable {s s' : Manager} {a : Action} {os : List Out} {window w : String} {i j : TaskId}
  {t t' : Task} {p : Pump} {m m' : Deliveries} {ticket : Option Nat}

def ticketAt (s : Manager) (i : TaskId) (window : String) : Option (Option Nat) :=
  s.read (·.ticket? window) i

/-! ### Timely deliveries -/

/-- What the task is to deliver comes from the owner of the window. -/
structure Timely (s : Manager) (m : Deliveries) (i : TaskId) (ticket : Option Nat)
    (window : String) : Prop where
  carried : m.carried i = m.owner window
  slot : ∃ slot, s.slot window = some slot ∧
    ∀ generation ∈ ticket, slot.ownedBy generation = true
  closed : ticket = none → s.opens window = false

/-- The owner of the window is the session it has, or the last one it had. -/
def Owning (s : Manager) (m : Deliveries) (window : String) : Prop :=
  ∀ slot, s.slot window = some slot → ∃ session, m.owner window = some session ∧
    ∀ live, slot.live = some live → live.handle = session

/-- All deliveries are timely, and the owners of the windows are known. -/
structure Attended (s : Manager) (m : Deliveries) : Prop where
  owner : ∀ w, s.Owning m w
  timely : ∀ {i w ticket}, s.ticketAt i w = some ticket → s.Timely m i ticket w

/-- The window has the same session as before, and is not opened meanwhile. -/
structure Stays (s : Manager) (m : Deliveries) (s' : Manager) (m' : Deliveries) (window : String) :
    Prop where
  owner : m'.owner window = m.owner window
  slot : (s'.slot window).map (·.live) = (s.slot window).map (·.live)
  opens : s'.opens window = true → s.opens window = true

theorem Stays.owning (hstays : Stays s m s' m' window) (h : s.Owning m window) :
    s'.Owning m' window := by
  intro slot' hslot'
  have hsame := hstays.slot
  rw [hslot', Option.map_some, eq_comm, Option.map_eq_some_iff] at hsame
  obtain ⟨slot, hslot, hlive⟩ := hsame
  rw [hstays.owner, ← hlive]
  exact h slot hslot

theorem Timely.stays (h : s.Timely m i ticket window) (hstays : Stays s m s' m' window)
    (hcarried : m'.carried i = m.carried i) : s'.Timely m' i ticket window := by
  obtain ⟨slot, hslot, howned⟩ := h.slot
  have hsame := hstays.slot
  rw [hslot, Option.map_some, Option.map_eq_some_iff] at hsame
  obtain ⟨slot', hslot', hlive⟩ := hsame
  refine ⟨by rw [hcarried, hstays.owner, h.carried], ⟨slot', hslot', ?_⟩, ?_⟩
  · intro generation hgeneration
    rw [Slot.ownedBy, hlive]
    exact howned generation hgeneration
  · intro hnone
    have hclosed := h.closed hnone
    by_contra hopens
    rw [hstays.opens (by simpa using hopens)] at hclosed
    cases hclosed

theorem Attended.next (h : s.Attended m) (window : String)
    (hstays : ∀ w, w ≠ window → Stays s m s' m' w) (howning : s'.Owning m' window)
    (htickets : ∀ {j w ticket}, s'.ticketAt j w = some ticket → w ≠ window →
      s.ticketAt j w = some ticket ∧ m'.carried j = m.carried j)
    (hwindow : ∀ {j ticket}, s'.ticketAt j window = some ticket → s'.Timely m' j ticket window) :
    s'.Attended m' := by
  constructor
  · intro w
    by_cases hw : w = window
    · rw [hw]
      exact howning
    · exact (hstays w hw).owning (h.owner w)
  · intro j w ticket hticket
    by_cases hw : w = window
    · rw [hw] at hticket ⊢
      exact hwindow hticket
    · obtain ⟨hbefore, hcarried⟩ := htickets hticket hw
      exact (h.timely hbefore).stays (hstays w hw) hcarried

/-- A step that leaves all windows as they are, and has nothing new to deliver. -/
theorem Attended.keep (h : s.Attended m) (hstays : ∀ w, Stays s m s' m' w)
    (hcarried : m'.carried = m.carried)
    (htickets : ∀ {j w ticket}, s'.ticketAt j w = some ticket → s.ticketAt j w = some ticket) :
    s'.Attended m' := by
  refine ⟨fun w => (hstays w).owning (h.owner w), fun {j w ticket} hticket => ?_⟩
  exact (h.timely (htickets hticket)).stays (hstays w) (by rw [hcarried])

theorem Attended.allows (h : s.Attended m) (hsound : s.Sound m.sessions)
    (hticket : s.ticketAt i window = some ticket) : m.Allows s i window := by
  obtain ⟨hcarried, ⟨slot, hslot, howned⟩, hclosed⟩ := h.timely hticket
  obtain ⟨session, howner, hhandle⟩ := h.owner window slot hslot
  refine ⟨by rw [hcarried, howner]; simp, hcarried.symm, ?_⟩
  intro hopens session' hsession'
  obtain rfl : session = session' := by
    rw [hcarried, howner] at hsession'
    exact Option.some.inj hsession'
  cases ticket with
  | none =>
      rw [hclosed rfl] at hopens
      cases hopens
  | some generation =>
      have hsome := howned generation rfl
      rw [Slot.ownedBy, Option.any_eq_true] at hsome
      obtain ⟨live, hlive, -⟩ := hsome
      rw [← hhandle live hlive]
      exact hsound.ledger.not_mem_ended (live_eq_some.mpr ⟨slot, hslot, hlive⟩)

/-! ### Tickets -/

theorem ticket?_eq_none (h : t.isDelivering window = false) : t.ticket? window = none := by
  simp [Task.ticket?, h]

theorem ticket?_updating {view : SessionView} {u : Option Nat}
    (h : (Task.updating window view).ticket? w = some u) : window = w ∧ u = none := by
  unfold Task.ticket? at h
  split_ifs at h with hdelivers
  exact ⟨of_decide_eq_true hdelivers, (Option.some.inj h).symm⟩

theorem ticket?_forwarding {event : SessionEvent} {view : Option SessionView}
    {u : Option Nat} (h : (Task.pump { p with pc := .forwarding event view }).ticket? w = some u) :
    p.window = w ∧ u = some p.generation := by
  unfold Task.ticket? at h
  split_ifs at h with hdelivers
  simp only [Task.isDelivering, Bool.and_eq_true, decide_eq_true_eq] at hdelivers
  exact ⟨hdelivers.1, (Option.some.inj h).symm⟩

theorem ticketAt_eq_none (h : s.delivering window = false) (j : TaskId) :
    s.ticketAt j window = none := by
  rw [Option.eq_none_iff_forall_ne_some]
  intro ticket hticket
  obtain ⟨t, htask, ht⟩ := read_eq_some.mp hticket
  have hnot := List.any_eq_false.mp h t (List.mem_of_getElem? htask)
  rw [ticket?_eq_none (by simpa using hnot)] at ht
  cases ht

theorem pump?_of_ticketAt {generation : Nat} (h : s.ticketAt j window = some (some generation)) :
    ∃ q, s.pump? j = some q ∧ q.generation = generation := by
  obtain ⟨t, htask, ht⟩ := read_eq_some.mp h
  unfold Task.ticket? at ht
  split_ifs at ht
  cases t with
  | pump q => exact ⟨q, pump?_eq_some.mpr htask, Option.some.inj (Option.some.inj ht)⟩
  | _ => cases ht

theorem ticketAt_setTask (htask : s.tasks[i]? = some t)
    (h : ∀ w ticket, t'.ticket? w = some ticket → t.ticket? w = some ticket)
    (hticket : (s.setTask i t').ticketAt j w = some ticket) : s.ticketAt j w = some ticket := by
  unfold ticketAt at hticket ⊢
  rw [read_setTask htask] at hticket
  split_ifs at hticket with hj
  · rw [hj, read_of_task htask]
    exact h w ticket hticket
  · exact hticket

theorem ticketAt_start (h : ∀ w, t.ticket? w = none) (j : TaskId) (w : String) :
    (s.start t).ticketAt j w = s.ticketAt j w :=
  read_start_of_none (h w) j

theorem ticketAt_abort (s : Manager) (i j : TaskId) (w : String) :
    (s.abort i).ticketAt j w = s.ticketAt j w :=
  read_abort (fun _ => rfl) s i j

/-! ### Steps -/

theorem Attended.of_eq (h : s.Attended m) (howner : m'.owner = m.owner)
    (hcarried : m'.carried = m.carried) : s.Attended m' :=
  h.keep (fun w => ⟨by rw [howner], rfl, fun hw => hw⟩) hcarried fun hticket => hticket

theorem Attended.setTask (h : s.Attended m) (htask : s.tasks[i]? = some t)
    (hopening : ∀ w, t'.isOpening w = true → t.isOpening w = true)
    (htickets : ∀ w ticket, t'.ticket? w = some ticket → t.ticket? w = some ticket) :
    (s.setTask i t').Attended m :=
  h.keep (fun w => ⟨rfl, rfl, opens_setTask htask (hopening w)⟩) rfl
    (ticketAt_setTask htask htickets)

theorem Attended.setPump (h : s.Attended m) (hpump : s.pump? i = some p) {pc : Pumping}
    (htickets : ∀ w ticket, (Task.pump { p with pc := pc }).ticket? w = some ticket →
      (Task.pump p).ticket? w = some ticket) : (s.setPump i p pc).Attended m :=
  h.setTask (pump?_eq_some.mp hpump) (fun w hw => by cases hw) htickets

theorem Attended.abort (h : s.Attended m) (j : TaskId) : (s.abort j).Attended m := by
  refine h.keep (fun w => ⟨rfl, by rw [slot_abort], opens_abort⟩) rfl fun {k w ticket} hticket => ?_
  rw [ticketAt_abort] at hticket
  exact hticket

theorem Attended.start (h : s.Attended m) (hopening : ∀ w, t.isOpening w = false)
    (htickets : ∀ w, t.ticket? w = none) : (s.start t).Attended m := by
  refine h.keep (fun w => ⟨rfl, rfl, fun hw => ?_⟩) rfl fun {k w ticket} hticket => ?_
  · exact opens_of_start hw (hopening w)
  · rw [ticketAt_start htickets] at hticket
    exact hticket

/-- A task takes something for a window from the session of the window. -/
theorem Attended.checks (h : s.Attended m) (ticket : Option Nat) {slot : Slot} (slot' : Slot)
    {view : Option SessionView} (hslot : s.slot window = some slot)
    (hlive : slot'.live = slot.live)
    (hslots : ∀ w, s'.slot w = if w = window then some slot' else s.slot w)
    (hopens : ∀ w, s'.opens w = true → s.opens w = true)
    (htickets : ∀ j w, s'.ticketAt j w = if j = i then t.ticket? w else s.ticketAt j w)
    (hticket : ∀ {w u}, t.ticket? w = some u → window = w ∧ u = ticket)
    (howned : ∀ generation ∈ ticket, slot.ownedBy generation = true)
    (hclosed : ticket = none → s.opens window = false) :
    s'.Attended (m.observe (.checked i window view)) := by
  have hstays : ∀ w, Stays s m s' (m.observe (.checked i window view)) w := by
    intro w
    refine ⟨rfl, ?_, hopens w⟩
    rw [hslots]
    split_ifs with hw
    · rw [hw, hslot, Option.map_some, Option.map_some, hlive]
    · rfl
  refine ⟨fun w => (hstays w).owning (h.owner w), fun {j w u} hread => ?_⟩
  rw [htickets] at hread
  split_ifs at hread with hj
  · subst hj
    obtain ⟨rfl, rfl⟩ := hticket hread
    refine ⟨by simp [Deliveries.observe], ⟨slot', by rw [hslots, if_pos rfl], ?_⟩, ?_⟩
    · intro generation hgeneration
      rw [Slot.ownedBy, hlive]
      exact howned generation hgeneration
    · intro hnone
      have hbefore := hclosed hnone
      by_contra hopens'
      rw [hopens window (by simpa using hopens')] at hbefore
      cases hbefore
  · exact (h.timely hread).stays (hstays w) (by simp [Deliveries.observe, hj])

/-- The window is opened, or given another session, when nothing is on the way to it. -/
theorem Attended.turn (h : s.Attended m) (hfree : s.delivering window = false)
    (hstays : ∀ w, w ≠ window → Stays s m s' m' w) (howning : s'.Owning m' window)
    (hcarried : m'.carried = m.carried)
    (htickets : ∀ {j w ticket}, s'.ticketAt j w = some ticket → s.ticketAt j w = some ticket) :
    s'.Attended m' := by
  refine h.next window hstays howning (fun hticket _ => ⟨htickets hticket, by rw [hcarried]⟩) ?_
  intro j ticket hticket
  have hnone := ticketAt_eq_none hfree j
  rw [htickets hticket] at hnone
  cases hnone

theorem stays_setSlot {slot : Slot} (htasks : s'.opens w = true → s.opens w = true)
    (hslots : s'.slot w = if w = window then some slot else s.slot w) (hw : w ≠ window)
    (howner : m'.owner w = m.owner w) : Stays s m s' m' w := by
  refine ⟨howner, ?_, htasks⟩
  rw [hslots, if_neg hw]

theorem foldl_observe_eq {os : List Out}
    (h : ∀ o ∈ os, ∀ m : Deliveries, (m.observe o).owner = m.owner ∧
      (m.observe o).carried = m.carried) (m : Deliveries) :
    (os.foldl Deliveries.observe m).owner = m.owner ∧
      (os.foldl Deliveries.observe m).carried = m.carried := by
  induction os generalizing m with
  | nil => exact ⟨rfl, rfl⟩
  | cons o os ih =>
      obtain ⟨howner, hcarried⟩ := h o List.mem_cons_self m
      obtain ⟨howner', hcarried'⟩ := ih (fun o' ho' => h o' (List.mem_cons_of_mem o ho'))
        (m.observe o)
      exact ⟨howner'.trans howner, hcarried'.trans hcarried⟩

theorem sessions_foldl_observe (os : List Out) (m : Deliveries) :
    (os.foldl Deliveries.observe m).sessions = os.foldl Sessions.observe m.sessions := by
  induction os generalizing m with
  | nil => rfl
  | cons o os ih =>
      rw [List.foldl_cons, List.foldl_cons, ih]
      cases o <;> rfl

/-- A session is put into its window, when nothing is on the way to the window. -/
theorem Attended.insertSession (h : s.Attended m) {profile : ConnectionProfile}
    {handle : SessionId}
    (htask : s.tasks[i]? = some (.opening window profile (.inserting handle)))
    (hfree : s.delivering window = false) :
    (s.insertSession i window profile handle).Attended (m.observe (.inserted window handle)) := by
  let slotted := (s.advance window).setSlot window (s.newSlot window profile handle)
  have hopens : ∀ {w}, (s.insertSession i window profile handle).opens w = true →
      s.opens w = true := by
    intro w hw
    have hstart : ((slotted.setTask i .done).start
        (.pump (s.newPump window profile handle))).opens w = true := hw
    have hopening : Task.done.isOpening w = true →
        (Task.opening window profile (.inserting handle)).isOpening w = true :=
      fun hdone => by cases hdone
    exact opens_setTask (s := slotted) htask hopening (opens_of_start hstart rfl)
  refine h.turn hfree (fun w hw => stays_setSlot hopens (slot_setSlot ..) hw ?_) ?_ rfl ?_
  · simp [Deliveries.observe, hw]
  · intro slot hslot
    have hsame : (s.insertSession i window profile handle).slot window =
        some (s.newSlot window profile handle) :=
      slot_setSlot_same (s.advance window) window _
    obtain rfl := Option.some.inj (hsame.symm.trans hslot)
    refine ⟨handle, by simp [Deliveries.observe], fun live hlive => ?_⟩
    exact (congrArg Live.handle (Option.some.inj hlive)).symm
  · intro j w ticket hticket
    have hstart : (s.insertSession i window profile handle).ticketAt j w =
        (slotted.setTask i .done).ticketAt j w := by
      refine ticketAt_start (fun w => ticket?_eq_none ?_) j w
      simp [Task.isDelivering, newPump]
    rw [hstart] at hticket
    exact ticketAt_setTask (s := slotted) htask (fun w ticket hnone => by
      simp [Task.ticket?, Task.isDelivering] at hnone) hticket

theorem Attended.detach (h : s.Attended m) (hlinked : s.Linked) {slot : Slot}
    (hpump : s.pump? i = some p) (hslot : s.slot p.window = some slot)
    (howned : slot.ownedBy p.generation = true) :
    ((s.setSlot p.window { slot with live := none, liveSince := none }).setPump i p
      .ending).Attended m := by
  let slotted := s.setSlot p.window { slot with live := none, liveSince := none }
  have htickets : ∀ {j w ticket}, (slotted.setPump i p .ending).ticketAt j w = some ticket →
      s.ticketAt j w = some ticket ∧ j ≠ i := by
    intro j w ticket hticket
    have hset := read_setTask (s := slotted) (pump?_eq_some.mp hpump)
      (.pump { p with pc := .ending }) (·.ticket? w) j
    have hread : (if j = i then (Task.pump { p with pc := .ending }).ticket? w
        else s.ticketAt j w) = some ticket := hset.symm.trans hticket
    split_ifs at hread with hj
    · simp [Task.ticket?, Task.isDelivering] at hread
    · exact ⟨hread, hj⟩
  have hopens : ∀ {w}, (slotted.setPump i p .ending).opens w = true → s.opens w = true := by
    intro w hw
    have hopening : (Task.pump { p with pc := .ending }).isOpening w = true →
        (Task.pump p).isOpening w = true := fun hp => by cases hp
    exact opens_setTask (s := slotted) (pump?_eq_some.mp hpump) hopening hw
  refine h.next p.window (fun w hw => stays_setSlot hopens (slot_setSlot ..) hw rfl) ?_
    (fun hticket _ => ⟨(htickets hticket).1, rfl⟩) ?_
  · intro slot' hslot'
    obtain rfl := Option.some.inj ((slot_setSlot_same s p.window _).symm.trans hslot')
    obtain ⟨session, howner, -⟩ := h.owner p.window slot hslot
    exact ⟨session, howner, fun live hlive => by cases hlive⟩
  · intro j ticket hticket
    obtain ⟨hbefore, hj⟩ := htickets hticket
    have htimely := h.timely hbefore
    refine ⟨htimely.carried, ⟨_, slot_setSlot_same s p.window _, ?_⟩, ?_⟩
    · -- The other pumps of the window do not own it.
      intro generation hgeneration
      obtain rfl := Option.mem_def.mp hgeneration
      obtain ⟨q, hq, hqgeneration⟩ := pump?_of_ticketAt hbefore
      obtain ⟨slot', hslot', hqowned⟩ := htimely.slot
      obtain rfl := Option.some.inj (hslot.symm.trans hslot')
      obtain ⟨live, hlive, hgeneration⟩ := (Option.any_eq_true ..).mp howned
      have hq' := hqowned _ rfl
      simp [Slot.ownedBy, hlive] at hq' hgeneration
      refine absurd ?_ hj
      exact hlinked.generation_inj (identity?_of_pump? hq) (identity?_of_pump? hpump)
        (hqgeneration.trans (hq'.symm.trans hgeneration))
    · intro hnone
      have hclosed := htimely.closed hnone
      by_contra hopened
      rw [hopens (by simpa using hopened)] at hclosed
      cases hclosed

theorem Moves.attended (hmoves : Moves s a s' os) (h : s.Attended m) (hlinked : s.Linked)
    (hquiet : s.overtakes a = false) : s'.Attended (os.foldl Deliveries.observe m) := by
  have hpump : ∀ (pc : Pumping) {i : TaskId} {p : Pump}, s.pump? i = some p →
      (∀ w, (Task.pump { p with pc := pc }).isDelivering w = false) →
        (s.setPump i p pc).Attended m := by
    intro pc i p hpump hnone
    refine h.setPump hpump fun w ticket hticket => ?_
    rw [ticket?_eq_none (hnone w)] at hticket
    cases hticket
  have hcall : ∀ (t' : Task) {i : TaskId} {t : Task}, s.tasks[i]? = some t →
      (∀ w, t'.isOpening w = true → t.isOpening w = true) → (∀ w, t'.isDelivering w = false) →
        (s.setTask i t').Attended m := by
    intro t' i t htask hopening hnone
    refine h.setTask htask hopening fun w ticket hticket => ?_
    rw [ticket?_eq_none (hnone w)] at hticket
    cases hticket
  cases hmoves with
  | stays a => exact h
  | elapses time =>
      exact h.keep (fun w => ⟨rfl, rfl, fun hw => hw⟩) rfl fun hticket => hticket
  | opens window profile hslot =>
      have htickets : ∀ w, (Task.opening window profile .spawning).ticket? w = none :=
        fun w => ticket?_eq_none rfl
      refine h.turn hquiet (fun w hw => ⟨rfl, rfl, fun hopens => ?_⟩) (h.owner window) rfl
        fun {j w ticket} hticket => ?_
      · exact opens_of_start hopens (by simp [Task.isOpening, Ne.symm hw])
      · rw [ticketAt_start htickets] at hticket
        exact hticket
  | takes window profile slot hslot =>
      let slotted := s.setSlot window { slot with live := none }
      have htickets : ∀ w, (Task.opening window profile
          (slot.live.elim .spawning .replacing)).ticket? w = none :=
        fun w => ticket?_eq_none rfl
      refine h.turn hquiet (fun w hw => stays_setSlot (fun hopens => ?_) (slot_setSlot ..) hw rfl)
        ?_ rfl fun {j w ticket} hticket => ?_
      · exact opens_of_start hopens (by simp [Task.isOpening, Ne.symm hw])
      · intro slot' hslot'
        obtain rfl := Option.some.inj ((slot_setSlot_same s window _).symm.trans hslot')
        obtain ⟨session, howner, -⟩ := h.owner window slot hslot
        exact ⟨session, howner, fun live hlive => by cases hlive⟩
      · exact (ticketAt_start (s := slotted) htickets j w).symm.trans hticket
  | closes window =>
      let erased : Manager := { s with windows := s.windows.erase window }
      refine h.turn hquiet (fun w hw => ⟨?_, ?_, fun hopens => ?_⟩) (fun slot hslot => ?_) rfl
        fun {j w ticket} hticket => ?_
      · simp [Deliveries.observe, hw]
      · have herase : (s.close window).1.slot w = (s.windows.erase window).lookup w := rfl
        rw [herase, AList.lookup_erase_ne hw]
        rfl
      · exact opens_of_start (s := erased) hopens rfl
      · simp [Manager.close, Manager.slot, Manager.start] at hslot
      · exact (ticketAt_start (s := erased) (fun w => ticket?_eq_none rfl) j w).symm.trans hticket
  | shutsDown =>
      have hslots : ∀ w, s.shutdown.1.slot w = none := fun w => AList.lookup_empty w
      refine ⟨fun w slot hslot => ?_, fun {j w ticket} hticket => ?_⟩
      · rw [hslots] at hslot
        cases hslot
      · have hbefore : s.ticketAt j w = some ticket :=
          (ticketAt_start (s := { s with windows := ∅ }) (fun w => ticket?_eq_none rfl) j w).symm.trans
            hticket
        obtain ⟨slot, hslot, -⟩ := (h.timely hbefore).slot
        have hkey : w ∈ s.windows.keys :=
          AList.mem_keys.mpr (AList.lookup_isSome.mp (Option.isSome_of_mem hslot))
        have hfree := List.any_eq_false.mp hquiet w hkey
        rw [ticketAt_eq_none (by simpa using hfree)] at hbefore
        cases hbefore
  | toggles window slot hslot view =>
      let slotted := s.setSlot window { slot with view := view }
      refine h.checks none { slot with view := view } hslot rfl
        (fun w => slot_setSlot _) (fun w hopens => opens_of_start hopens rfl)
        (fun j w => read_start slotted (.updating window view) _ j) ticket?_updating (by simp) fun _ => ?_
      simpa [overtakes, hslot] using hquiet
  | answers window live answer hlive =>
      exact h.start (fun w => rfl) fun w => ticket?_eq_none rfl
  | replaces i window profile old htask =>
      have haborted := h.abort old.pump
      exact haborted.setTask (getElem?_abort htask rfl old.pump) (fun w hw => hw)
        fun w ticket hticket => by simp [Task.ticket?, Task.isDelivering] at hticket
  | endsOld i window profile old htask =>
      have hnext := hcall (.opening window profile .spawning) htask (fun w hw => hw) fun w => rfl
      exact hnext.of_eq rfl rfl
  | spawns i window profile htask =>
      have hnext := hcall (.opening window profile (.inserting s.sessions)) htask (fun w hw => hw)
        fun w => rfl
      exact hnext.keep (fun w => ⟨rfl, rfl, fun hw => hw⟩) rfl fun hticket => hticket
  | fails i window profile htask => exact hcall .done htask (fun w hw => by cases hw) fun w => rfl
  | inserts i window profile handle htask =>
      refine h.insertSession htask ?_
      simpa [overtakes, htask] using hquiet
  | tells i lives report htask =>
      have hneutral : ∀ o ∈ lives.map (fun l => Out.closeSent l.2.handle), ∀ m : Deliveries,
          (m.observe o).owner = m.owner ∧ (m.observe o).carried = m.carried := by
        intro o ho m
        obtain ⟨l, -, rfl⟩ := List.mem_map.mp ho
        exact ⟨rfl, rfl⟩
      have hsame := foldl_observe_eq hneutral m
      have hnext := hcall (.closing lives .waiting report) htask (fun w hw => hw) fun w => rfl
      exact hnext.of_eq hsame.1 hsame.2
  | waited a i lives report report' ha htask =>
      exact hcall (.closing lives .ending report') htask (fun w hw => hw) fun w => rfl
  | expires i window live rest report report' htask =>
      have haborted := h.abort live.pump
      exact haborted.setTask (getElem?_abort htask rfl live.pump) (fun w hw => hw)
        fun w ticket hticket => by simp [Task.ticket?, Task.isDelivering] at hticket
  | releases i window live rest report htask =>
      have hnext := hcall (.closing rest .waiting report) htask (fun w hw => hw) fun w => rfl
      exact hnext.of_eq rfl rfl
  | closed i report htask => exact hcall .done htask (fun w hw => by cases hw) fun w => rfl
  | answered i window htask => exact hcall .done htask (fun w hw => by cases hw) fun w => rfl
  | clears i window slot view htask hslot hcertificate =>
      let slotted := s.setSlot window { slot with view := view }
      have hopening : ∀ w, (Task.updating window view).isOpening w = true →
          (Task.answering window).isOpening w = true := fun w hw => by cases hw
      refine h.checks none { slot with view := view } hslot rfl
        (fun w => slot_setSlot _) (fun w => opens_setTask (s := slotted) htask (hopening w))
        (fun j w => read_setTask (s := slotted) htask (.updating window view) _ j) ticket?_updating (by simp)
        fun _ => ?_
      simpa [overtakes, htask, hslot, hcertificate] using hquiet
  | updates i window view htask =>
      have hnext := hcall .done htask (fun w hw => by cases hw) fun w => rfl
      exact hnext.of_eq rfl rfl
  | receives i p event hp hpc =>
      exact hpump (.received event) hp fun w => by simp [Task.isDelivering]
  | cancels i p hp hpc haborted =>
      exact hpump .finished hp fun w => by simp [Task.isDelivering]
  | folds i p event slot slot' view hp hpc hslot howned hlive hview =>
      let slotted := s.setSlot p.window slot'
      have hopening : ∀ w, (Task.pump { p with pc := .forwarding event view }).isOpening w = true →
          (Task.pump p).isOpening w = true := fun w hw => by cases hw
      exact h.checks (some p.generation) slot' hslot hlive (fun w => slot_setSlot _)
        (fun w => opens_setTask (s := slotted) (pump?_eq_some.mp hp) (hopening w))
        (fun j w => read_setTask (s := slotted) (pump?_eq_some.mp hp) _ _ j) ticket?_forwarding
        (by simpa using howned) fun hnone => by cases hnone
  | drops i p event hp hpc => exact hpump .waiting hp fun w => by simp [Task.isDelivering]
  | detaches i p slot hp hpc hslot howned => exact h.detach hlinked hp hslot howned
  | leaves i p hp hpc hlost => exact hpump .finished hp fun w => by simp [Task.isDelivering]
  | forwards i p event view hp hpc =>
      have hneutral : ∀ o ∈ forward i p event, ∀ m : Deliveries,
          (m.observe o).owner = m.owner ∧ (m.observe o).carried = m.carried := by
        intro o ho m
        unfold forward at ho
        split at ho <;> simp at ho <;> subst ho <;> exact ⟨rfl, rfl⟩
      have hsame := foldl_observe_eq hneutral m
      refine (h.setPump hp fun w ticket hticket => ?_).of_eq hsame.1 hsame.2
      cases view with
      | none => simp [Task.ticket?, Task.isDelivering] at hticket
      | some view => simpa [Task.ticket?, Task.isDelivering, hpc] using hticket
  | notifies i p view hp hpc =>
      have hnext := hpump .waiting hp fun w => by simp [Task.isDelivering]
      exact hnext.of_eq rfl rfl
  | endsPump i p hp hpc =>
      have hnext := hpump .finished hp fun w => by simp [Task.isDelivering]
      exact hnext.of_eq rfl rfl

theorem Moves.accepted (hmoves : Moves s a s' os)
    (hallows : ∀ {i w ticket}, s.ticketAt i w = some ticket → m.Allows s i w) :
    ∀ o ∈ os, m.Accepts s o := by
  have hone : ∀ {o : Out}, m.Accepts s o → ∀ o' ∈ [o], m.Accepts s o' := by
    intro o ho o' ho'
    obtain rfl := List.mem_singleton.mp ho'
    exact ho
  cases hmoves with
  | updates i window view htask =>
      have hticket : s.ticketAt i window = some none := by
        refine (read_of_task htask _).trans ?_
        simp [Task.ticket?, Task.isDelivering]
      exact hone (hallows hticket)
  | notifies i p view hpump hpc =>
      have hticket : s.ticketAt i p.window = some (some p.generation) := by
        refine (read_of_task (pump?_eq_some.mp hpump) _).trans ?_
        simp [Task.ticket?, Task.isDelivering, hpc]
      exact hone (hallows hticket)
  | forwards i p event view hpump hpc =>
      have hticket (hpasses : Task.passesOn event = true) :
          s.ticketAt i p.window = some (some p.generation) := by
        refine (read_of_task (pump?_eq_some.mp hpump) _).trans ?_
        simp [Task.ticket?, Task.isDelivering, hpc, hpasses]
      intro o ho
      unfold forward at ho
      split at ho <;> simp at ho <;> subst ho
      · trivial
      · refine hallows (hticket ?_)
        grind [Task.passesOn]
  | shutsDown =>
      intro o ho
      obtain ⟨w, -, rfl⟩ := List.mem_map.mp ho
      trivial
  | tells i lives report htask =>
      intro o ho
      obtain ⟨l, -, rfl⟩ := List.mem_map.mp ho
      trivial
  | stays a => exact fun o ho => absurd ho List.not_mem_nil
  | elapses time => exact fun o ho => absurd ho List.not_mem_nil
  | opens window profile hslot => exact fun o ho => absurd ho List.not_mem_nil
  | takes window profile slot hslot => exact fun o ho => absurd ho List.not_mem_nil
  | closes window => exact hone trivial
  | toggles window slot hslot view => exact hone trivial
  | answers window live answer hlive => exact hone trivial
  | replaces i window profile old htask => exact hone trivial
  | endsOld i window profile old htask => exact hone trivial
  | spawns i window profile htask => exact hone trivial
  | fails i window profile htask => exact fun o ho => absurd ho List.not_mem_nil
  | inserts i window profile handle htask => exact hone trivial
  | waited a i lives report report' ha htask => exact fun o ho => absurd ho List.not_mem_nil
  | expires i window live rest report report' htask =>
      exact fun o ho => absurd ho List.not_mem_nil
  | releases i window live rest report htask => exact hone trivial
  | closed i report htask => exact fun o ho => absurd ho List.not_mem_nil
  | answered i window htask => exact fun o ho => absurd ho List.not_mem_nil
  | clears i window slot view htask hslot hcertificate => exact hone trivial
  | receives i p event hpump hpc => exact fun o ho => absurd ho List.not_mem_nil
  | cancels i p hpump hpc haborted => exact fun o ho => absurd ho List.not_mem_nil
  | folds i p event slot slot' view hpump hpc hslot howned hlive hview => exact hone trivial
  | drops i p event hpump hpc => exact fun o ho => absurd ho List.not_mem_nil
  | detaches i p slot hpump hpc hslot howned => exact fun o ho => absurd ho List.not_mem_nil
  | leaves i p hpump hpc hlost => exact fun o ho => absurd ho List.not_mem_nil
  | endsPump i p hpump hpc => exact hone trivial

/-! ### Runs -/

theorem attended_new : new.Attended .start where
  owner := fun w slot hslot => by simp [Manager.slot, new] at hslot
  timely := fun {i w ticket} hticket => by simp [ticketAt, read, new] at hticket

/-- A session tells its state, which is shown before the window is closed. -/
def shownThenClosed : List Action :=
  [.open "w" sample, .spawn 0 true, .run 0, .recv 1 (some connected), .run 1, .run 1, .run 1,
    .close "w", .run 2]

/-- The window is closed before the state of its session is shown. -/
def closedThenShown : List Action :=
  [.open "w" sample, .spawn 0 true, .run 0, .recv 1 (some connected), .run 1, .run 1,
    .close "w", .run 2, .run 1]

end Manager

end Drift.App
