import Drift.Egfx.Session

/-!
# The flow of the frames

The server sends no frame while too many are not acknowledged. With the client's policy it is never stuck: whatever
happened, what is on the way is enough to let it send again, as long as it does not forget, in a resize, that the
client has suspended it.
-/

namespace Drift.Egfx

open Table

namespace Loop

/-- The acknowledgements that the server has not handled, oldest first. -/
def transit (l : Loop) : List Gfx.FrameAcknowledge := l.up ++ l.client.acks.outbox

/-- The server takes the acknowledgement for a suspension. -/
def Suspends (ack : Gfx.FrameAcknowledge) : Prop := wireDepth ack = suspendFrameAckQueueDepth

/-- The frame is still to be presented, or what will take it out is on the way. -/
def Pending (l : Loop) (frameId : UInt32) : Prop :=
  frameId ∈ l.down ∨ frameId ∈ l.client.callbacks ∨ ∃ ack ∈ l.transit, ack.frameId = frameId ∨ Suspends ack

/-- The client has asked the server to suspend, and nothing else since. -/
def Asked (l : Loop) : Prop :=
  (∃ before last, l.transit = before ++ [last] ∧ Suspends last) ∨ l.transit = [] ∧ l.tracker.ackSuspended = true

structure Inv (l : Loop) : Prop where
  distinct : Distinct FrameInfo.frameId l.tracker.unacknowledged
  pending : ∀ info ∈ l.tracker.unacknowledged, l.Pending info.frameId
  asked : l.client.acks.hidden = true → l.client.acks.suspendSent = true → l.Asked
  suspended : l.tracker.ackSuspended = true → l.tracker.unacknowledged = []

theorem inv_new (h : Handler) : (new h).Inv where
  distinct := List.nodup_nil
  pending := List.forall_mem_nil _
  asked := by
    intro h
    cases h
  suspended := by
    intro h
    cases h

variable {l : Loop}

/-! ### One step -/

theorem inv_send (h : l.Inv) (timestamp : Timestamp) : (l.send timestamp).Inv := by
  unfold send
  by_cases hblocked : l.tracker.shouldBackpressure
  · rw [if_pos hblocked]
    exact h
  rw [if_neg hblocked]
  let frameId := l.tracker.nextFrameId
  let tracker := (l.tracker.beginFrame timestamp).2
  change Inv { l with tracker := tracker, down := l.down ++ [frameId] }
  by_cases hsuspended : l.tracker.ackSuspended = true
  · have hkept : tracker.unacknowledged = l.tracker.unacknowledged := if_pos hsuspended
    have hempty : tracker.unacknowledged = [] := hkept.trans (h.suspended hsuspended)
    refine ⟨?_, ?_, h.asked, fun _ => hempty⟩
    · unfold Distinct
      rw [hempty]
      exact List.nodup_nil
    · intro info hinfo
      rw [hempty] at hinfo
      cases hinfo
  · have hput : tracker.unacknowledged = put FrameInfo.frameId ⟨frameId, timestamp⟩ l.tracker.unacknowledged :=
      if_neg hsuspended
    refine ⟨?_, ?_, h.asked, fun hnow => absurd hnow hsuspended⟩
    · unfold Distinct
      rw [hput]
      exact h.distinct.put _
    · intro info hinfo
      rw [hput] at hinfo
      rcases mem_put hinfo with rfl | hold
      · exact .inl (List.mem_append_right _ (List.mem_singleton.mpr rfl))
      · exact (h.pending info hold).imp_left (List.mem_append_left _)

theorem inv_arrive (h : l.Inv) : l.arrive.Inv := by
  unfold arrive
  rcases hdown : l.down with _ | ⟨frameId, down⟩
  · exact h
  refine ⟨h.distinct, ?_, h.asked, h.suspended⟩
  intro info hinfo
  rcases h.pending info hinfo with hin | hin | hin
  · rw [hdown] at hin
    rcases List.mem_cons.mp hin with heq | hlater
    · exact .inr (.inl (List.mem_append_right _ (List.mem_singleton.mpr heq)))
    · exact .inl hlater
  · exact .inr (.inl (List.mem_append_left _ hin))
  · exact .inr (.inr hin)

/-- What the callback of a frame does to the outbox. -/
inductive Presented (s s' : Gfx.AckState) (frameId : UInt32) : Prop where
  | acknowledged (ack : Gfx.FrameAcknowledge) (hframe : ack.frameId = frameId) (hvisible : s'.hidden = false)
    (houtbox : s'.outbox = s.outbox ++ [ack])
  | suspends (ack : Gfx.FrameAcknowledge) (hframe : ack.frameId = frameId) (hsuspends : Suspends ack)
    (houtbox : s'.outbox = s.outbox ++ [ack])
  | ignored (hhidden : s.hidden = true) (hsent : s.suspendSent = true) (houtbox : s'.outbox = s.outbox)

theorem presented_cases (s : Gfx.AckState) (frameId : UInt32) : Presented s (s.presented frameId) frameId := by
  let left := s.inFlight - 1
  let depth : Gfx.QueueDepth := if left = 0 then .unavailable else .availableBytes left
  rcases s with ⟨outbox, inFlight, totalDecoded, hidden, suspendSent⟩
  cases hidden with
  | false => exact .acknowledged ⟨depth, frameId, totalDecoded⟩ rfl rfl rfl
  | true =>
      cases suspendSent with
      | false => exact .suspends ⟨.suspend, frameId, totalDecoded⟩ rfl rfl rfl
      | true => exact .ignored rfl rfl rfl

theorem step_present {s : Gfx.System} {index : Nat} {frameId : UInt32} (h : s.callbacks[index]? = some frameId) :
    (s.step (.present index)).1 = ⟨s.acks.presented frameId, s.callbacks.eraseIdx index⟩ := by
  simp only [Gfx.System.step, h]

theorem step_present_none {s : Gfx.System} {index : Nat} (h : s.callbacks[index]? = none) :
    (s.step (.present index)).1 = s := by
  simp only [Gfx.System.step, h]

/-- A frame that is presented while the client is suspended is forgotten, but so it is by the server. -/
theorem pending_of_asked {frameId : UInt32} (h : l.Inv) (hasked : l.Asked) {info : FrameInfo}
    (hinfo : info ∈ l.tracker.unacknowledged) : ∃ ack ∈ l.transit, ack.frameId = frameId ∨ Suspends ack := by
  rcases hasked with ⟨before, last, htransit, hlast⟩ | ⟨-, hsuspended⟩
  · refine ⟨last, ?_, .inr hlast⟩
    rw [htransit]
    exact List.mem_append_right before (List.mem_singleton.mpr rfl)
  · rw [h.suspended hsuspended] at hinfo
    cases hinfo

theorem transit_snoc {l' : Loop} {ack : Gfx.FrameAcknowledge} (hup : l'.up = l.up)
    (houtbox : l'.client.acks.outbox = l.client.acks.outbox ++ [ack]) : l'.transit = l.transit ++ [ack] := by
  unfold transit
  rw [hup, houtbox, List.append_assoc]

theorem mem_eraseIdx_of_mem {ids : List UInt32} {index : Nat} {frameId id : UInt32} (h : ids[index]? = some frameId)
    (hid : id ∈ ids) : id = frameId ∨ id ∈ ids.eraseIdx index := by
  obtain ⟨hindex, hget⟩ := List.getElem?_eq_some_iff.mp h
  have hperm := (List.getElem_cons_eraseIdx_perm hindex).mem_iff.mpr hid
  rw [hget] at hperm
  exact List.mem_cons.mp hperm

theorem inv_present (h : l.Inv) (index : Nat) : (l.present index).Inv := by
  unfold present
  cases hframe : l.client.callbacks[index]? with
  | none =>
      rw [step_present_none hframe]
      exact h
  | some frameId =>
      rw [step_present hframe]
      let l' : Loop := { l with client := ⟨l.client.acks.presented frameId, l.client.callbacks.eraseIdx index⟩ }
      change l'.Inv
      cases presented_cases l.client.acks frameId with
      | acknowledged ack hack hvisible houtbox =>
          have htransit : l'.transit = l.transit ++ [ack] := transit_snoc rfl houtbox
          refine ⟨h.distinct, ?_, ?_, h.suspended⟩
          · intro info hinfo
            rcases h.pending info hinfo with hin | hin | ⟨a, hin, ha⟩
            · exact .inl hin
            · rcases mem_eraseIdx_of_mem hframe hin with heq | hin
              · refine .inr (.inr ⟨ack, ?_, .inl (hack.trans heq.symm)⟩)
                rw [htransit]
                exact List.mem_append_right _ (List.mem_singleton.mpr rfl)
              · exact .inr (.inl hin)
            · refine .inr (.inr ⟨a, ?_, ha⟩)
              rw [htransit]
              exact List.mem_append_left _ hin
          · intro hhidden
            rw [hvisible] at hhidden
            cases hhidden
      | suspends ack hack hsuspends houtbox =>
          have htransit : l'.transit = l.transit ++ [ack] := transit_snoc rfl houtbox
          refine ⟨h.distinct, ?_, fun _ _ => .inl ⟨l.transit, ack, htransit, hsuspends⟩, h.suspended⟩
          intro info _
          refine .inr (.inr ⟨ack, ?_, .inr hsuspends⟩)
          rw [htransit]
          exact List.mem_append_right _ (List.mem_singleton.mpr rfl)
      | ignored hhidden hsent houtbox =>
          have htransit : l'.transit = l.transit := congrArg (l.up ++ ·) houtbox
          have hasked := h.asked hhidden hsent
          refine ⟨h.distinct, ?_, ?_, h.suspended⟩
          · intro info hinfo
            refine .inr (.inr ?_)
            rw [htransit]
            exact pending_of_asked h hasked hinfo
          · intro _ _
            unfold Asked
            rw [htransit]
            exact hasked

theorem inv_setHidden (h : l.Inv) (hidden : Bool) : (l.setHidden hidden).Inv := by
  refine ⟨h.distinct, h.pending, ?_, h.suspended⟩
  intro hnow hsent
  change hidden = true at hnow
  change (if l.client.acks.hidden ≠ hidden then false else l.client.acks.suspendSent) = true at hsent
  by_cases hchange : l.client.acks.hidden ≠ hidden
  · rw [if_pos hchange] at hsent
    cases hsent
  · rw [if_neg hchange] at hsent
    exact h.asked ((not_not.mp hchange).trans hnow) hsent

theorem inv_drain (h : l.Inv) : l.drain.Inv := by
  have htransit : l.drain.transit = l.transit := List.append_nil _
  refine ⟨h.distinct, ?_, ?_, h.suspended⟩
  · intro info hinfo
    unfold Pending
    rw [htransit]
    exact h.pending info hinfo
  · intro hhidden hsent
    unfold Asked
    rw [htransit]
    exact h.asked hhidden hsent

theorem acknowledge_suspends {ack : Gfx.FrameAcknowledge} (h : Suspends ack) (t : FrameTracker) :
    (t.acknowledge ack.frameId (wireDepth ack)).2.unacknowledged = [] ∧
      (t.acknowledge ack.frameId (wireDepth ack)).2.ackSuspended = true :=
  ⟨if_pos h, decide_eq_true h⟩

theorem acknowledge_takes {ack : Gfx.FrameAcknowledge} (h : ¬ Suspends ack) (t : FrameTracker) :
    (t.acknowledge ack.frameId (wireDepth ack)).2.unacknowledged =
        erase FrameInfo.frameId t.unacknowledged ack.frameId ∧
      (t.acknowledge ack.frameId (wireDepth ack)).2.ackSuspended = false :=
  ⟨if_neg h, decide_eq_false h⟩

/-- Once the first acknowledgement is handled, the request is still behind it, or was this one. -/
theorem Asked.tail {ack : Gfx.FrameAcknowledge} {rest : List Gfx.FrameAcknowledge} (h : l.Asked)
    (htransit : l.transit = ack :: rest) :
    (∃ before last, rest = before ++ [last] ∧ Suspends last) ∨ rest = [] ∧ Suspends ack := by
  rcases h with ⟨before, last, hlast, hsuspends⟩ | ⟨hempty, -⟩
  · rw [htransit] at hlast
    rcases before with _ | ⟨first, before⟩
    · obtain ⟨rfl, hrest⟩ := List.cons.inj hlast
      exact .inr ⟨hrest, hsuspends⟩
    · exact .inl ⟨before, last, (List.cons.inj hlast).2, hsuspends⟩
  · rw [htransit] at hempty
    cases hempty

theorem inv_acknowledge (h : l.Inv) : l.acknowledge.Inv := by
  unfold acknowledge
  rcases hup : l.up with _ | ⟨ack, up⟩
  · exact h
  have htransit : l.transit = ack :: (up ++ l.client.acks.outbox) := by
    unfold transit
    rw [hup]
    rfl
  by_cases hsuspends : Suspends ack
  · obtain ⟨hcleared, hsuspended⟩ := acknowledge_suspends hsuspends l.tracker
    refine ⟨?_, ?_, ?_, fun _ => hcleared⟩
    · unfold Distinct
      rw [hcleared]
      exact List.nodup_nil
    · intro info hinfo
      rw [hcleared] at hinfo
      cases hinfo
    · intro hhidden hsent
      rcases (h.asked hhidden hsent).tail htransit with hwaiting | ⟨hrest, -⟩
      · exact .inl hwaiting
      · exact .inr ⟨hrest, hsuspended⟩
  · obtain ⟨herased, hawake⟩ := acknowledge_takes hsuspends l.tracker
    refine ⟨?_, ?_, ?_, ?_⟩
    · unfold Distinct
      rw [herased]
      exact h.distinct.erase _
    · intro info hinfo
      rw [herased] at hinfo
      rcases h.pending info (List.mem_of_mem_eraseP hinfo) with hin | hin | ⟨a, hin, ha⟩
      · exact .inl hin
      · exact .inr (.inl hin)
      · rw [htransit] at hin
        rcases List.mem_cons.mp hin with rfl | hlater
        · have hother : info.frameId ≠ a.frameId := ne_of_mem_erase h.distinct hinfo
          rcases ha with hframe | hsuspending
          · exact absurd hframe.symm hother
          · exact absurd hsuspending hsuspends
        · exact .inr (.inr ⟨a, hlater, ha⟩)
    · intro hhidden hsent
      rcases (h.asked hhidden hsent).tail htransit with hwaiting | ⟨-, hlast⟩
      · exact .inl hwaiting
      · exact absurd hlast hsuspends
    · intro hnow
      exact absurd (hawake.symm.trans hnow) Bool.false_ne_true

theorem inv_resize (h : l.Inv) (hawake : l.tracker.ackSuspended = false) : (l.step .resize).Inv := by
  refine ⟨List.nodup_nil, List.forall_mem_nil _, ?_, fun _ => rfl⟩
  intro hhidden hsent
  rcases h.asked hhidden hsent with hwaiting | ⟨-, hsuspended⟩
  · exact .inl hwaiting
  · exact absurd (hawake.symm.trans hsuspended) Bool.false_ne_true

theorem inv_step (h : l.Inv) (event : LoopEvent) (hawake : event = .resize → l.tracker.ackSuspended = false) :
    (l.step event).Inv := by
  cases event with
  | send timestamp => exact inv_send h timestamp
  | arrive => exact inv_arrive h
  | present index => exact inv_present h index
  | setHidden hidden => exact inv_setHidden h hidden
  | drain => exact inv_drain h
  | acknowledge => exact inv_acknowledge h
  | setMaxFramesInFlight max => exact ⟨h.distinct, h.pending, h.asked, h.suspended⟩
  | resize => exact inv_resize h (hawake rfl)

/-! ### Runs -/

/-- The server resizes only while the client has not suspended it. -/
def ResizesAwake : Loop → List LoopEvent → Prop
  | _, [] => True
  | l, event :: events =>
    (event = .resize → l.tracker.ackSuspended = false) ∧ ResizesAwake (l.step event) events

instance decidableResizesAwake : (l : Loop) → (events : List LoopEvent) → Decidable (ResizesAwake l events)
  | _, [] => isTrue trivial
  | l, event :: events =>
    have := decidableResizesAwake (l.step event) events
    inferInstanceAs (Decidable ((event = .resize → l.tracker.ackSuspended = false) ∧
      ResizesAwake (l.step event) events))

theorem inv_run {events : List LoopEvent} (h : l.Inv) (hawake : ResizesAwake l events) : (l.run events).Inv := by
  induction events generalizing l with
  | nil => exact h
  | cons event events ih => exact ih (inv_step h event hawake.1) hawake.2

/-- Nothing is on the way. -/
structure Quiet (l : Loop) : Prop where
  down : l.down = []
  callbacks : l.client.callbacks = []
  outbox : l.client.acks.outbox = []
  up : l.up = []

theorem Quiet.transit (h : l.Quiet) : l.transit = [] := by
  unfold Loop.transit
  rw [h.up, h.outbox]
  rfl

theorem unacknowledged_of_quiet (h : l.Inv) (hquiet : l.Quiet) : l.tracker.unacknowledged = [] := by
  rw [List.eq_nil_iff_forall_not_mem]
  intro info hinfo
  rcases h.pending info hinfo with hin | hin | ⟨ack, hin, -⟩
  · rw [hquiet.down] at hin
    cases hin
  · rw [hquiet.callbacks] at hin
    cases hin
  · rw [hquiet.transit] at hin
    cases hin

theorem not_blocked_of_quiet (h : l.Inv) (hquiet : l.Quiet) (hmax : 0 < l.tracker.maxInFlight) :
    l.tracker.shouldBackpressure = false := by
  have hnone : l.tracker.inFlight = 0 := by
    unfold FrameTracker.inFlight
    rw [unacknowledged_of_quiet h hquiet]
    rfl
  have hfew : ¬ l.tracker.maxInFlight ≤ 0 := UInt32.not_le.mpr hmax
  unfold FrameTracker.shouldBackpressure
  rw [hnone, decide_eq_false hfew, Bool.and_false]

/-! ### Everything arrives -/

/-- The events that only bring on what is on the way. -/
def Delivers : LoopEvent → Prop
  | .arrive | .present _ | .drain | .acknowledge => True
  | _ => False

/-- How many steps everything on the way has before it. -/
def distance (l : Loop) : Nat :=
  4 * l.down.length + 3 * l.client.callbacks.length + 2 * l.client.acks.outbox.length + l.up.length

theorem outbox_presented_le (s : Gfx.AckState) (frameId : UInt32) :
    (s.presented frameId).outbox.length ≤ s.outbox.length + 1 := by
  cases presented_cases s frameId with
  | acknowledged ack _ _ houtbox => rw [houtbox, List.length_append, List.length_singleton]
  | suspends ack _ _ houtbox => rw [houtbox, List.length_append, List.length_singleton]
  | ignored _ _ houtbox =>
      rw [houtbox]
      exact Nat.le_succ _

theorem distance_present {frameId : UInt32} {callbacks : List UInt32}
    (h : l.client.callbacks = frameId :: callbacks) : (l.present 0).distance < l.distance := by
  have hpresent : l.present 0 = { l with client := ⟨l.client.acks.presented frameId, callbacks⟩ } := by
    unfold present
    rw [step_present (by rw [h]; rfl), h]
    rfl
  have houtbox := outbox_presented_le l.client.acks frameId
  unfold distance
  rw [hpresent, h, List.length_cons]
  change 4 * l.down.length + 3 * callbacks.length + 2 * (l.client.acks.presented frameId).outbox.length +
    l.up.length < 4 * l.down.length + 3 * (callbacks.length + 1) + 2 * l.client.acks.outbox.length + l.up.length
  omega

theorem distance_drain (h : l.client.acks.outbox ≠ []) : l.drain.distance < l.distance := by
  have hpositive := List.length_pos_iff.mpr h
  change 4 * l.down.length + 3 * l.client.callbacks.length + 2 * 0 + (l.up ++ l.client.acks.outbox).length <
    4 * l.down.length + 3 * l.client.callbacks.length + 2 * l.client.acks.outbox.length + l.up.length
  rw [List.length_append]
  omega

theorem exists_closer (h : ¬ l.Quiet) : ∃ event, Delivers event ∧ (l.step event).distance < l.distance := by
  rcases hdown : l.down with _ | ⟨frameId, down⟩
  · rcases hcallbacks : l.client.callbacks with _ | ⟨frameId, callbacks⟩
    · by_cases houtbox : l.client.acks.outbox = []
      · rcases hup : l.up with _ | ⟨ack, up⟩
        · exact absurd ⟨hdown, hcallbacks, houtbox, hup⟩ h
        · refine ⟨.acknowledge, trivial, ?_⟩
          unfold step acknowledge distance
          rw [hup, List.length_cons]
          exact Nat.lt_succ_self _
      · exact ⟨.drain, trivial, distance_drain houtbox⟩
    · exact ⟨.present 0, trivial, distance_present hcallbacks⟩
  · refine ⟨.arrive, trivial, ?_⟩
    unfold step arrive distance
    rw [hdown, List.length_cons]
    change 4 * down.length + 3 * (l.client.callbacks ++ [frameId]).length + 2 * l.client.acks.outbox.length +
      l.up.length < 4 * (down.length + 1) + 3 * l.client.callbacks.length + 2 * l.client.acks.outbox.length +
        l.up.length
    rw [List.length_append, List.length_singleton]
    omega

theorem exists_quiet (l : Loop) :
    ∃ events, (∀ event ∈ events, Delivers event) ∧ events.length ≤ l.distance ∧ (l.run events).Quiet := by
  induction hdistance : l.distance using Nat.strongRecOn generalizing l with
  | ind n ih =>
      by_cases hquiet : l.Quiet
      · exact ⟨[], List.forall_mem_nil _, Nat.zero_le _, hquiet⟩
      obtain ⟨event, hdelivers, hcloser⟩ := exists_closer hquiet
      rw [hdistance] at hcloser
      obtain ⟨events, hall, hlength, hrest⟩ := ih _ hcloser (l.step event) rfl
      refine ⟨event :: events, List.forall_mem_cons.mpr ⟨hdelivers, hall⟩, ?_, hrest⟩
      rw [List.length_cons]
      omega

theorem resizesAwake_of_delivers {events : List LoopEvent} (h : ∀ event ∈ events, Delivers event) :
    ResizesAwake l events := by
  induction events generalizing l with
  | nil => trivial
  | cons event events ih =>
      obtain ⟨hevent, hevents⟩ := List.forall_mem_cons.mp h
      refine ⟨?_, ih hevents⟩
      rintro rfl
      exact hevent.elim

theorem maxInFlight_of_delivers {event : LoopEvent} (h : Delivers event) :
    (l.step event).tracker.maxInFlight = l.tracker.maxInFlight := by
  cases event with
  | arrive =>
      unfold step arrive
      cases l.down <;> rfl
  | present index => rfl
  | drain => rfl
  | acknowledge =>
      unfold step acknowledge
      cases l.up <;> rfl
  | _ => exact h.elim

theorem maxInFlight_run_of_delivers {events : List LoopEvent} (h : ∀ event ∈ events, Delivers event) :
    (l.run events).tracker.maxInFlight = l.tracker.maxInFlight := by
  induction events generalizing l with
  | nil => rfl
  | cons event events ih =>
      obtain ⟨hevent, hevents⟩ := List.forall_mem_cons.mp h
      exact (ih hevents).trans (maxInFlight_of_delivers hevent)

/-! ### The number of frames in flight -/

/-- No more frames are in flight than the server was ever told. -/
structure Few (most : UInt32) (l : Loop) : Prop where
  inFlight : l.tracker.unacknowledged.length ≤ most.toNat
  maxInFlight : l.tracker.maxInFlight ≤ most

variable {most : UInt32}

theorem few_send (h : Few most l) (timestamp : Timestamp) : Few most (l.send timestamp) := by
  unfold send
  by_cases hblocked : l.tracker.shouldBackpressure
  · rw [if_pos hblocked]
    exact h
  rw [if_neg hblocked]
  refine ⟨?_, h.maxInFlight⟩
  change (if l.tracker.ackSuspended then l.tracker.unacknowledged
    else put FrameInfo.frameId ⟨l.tracker.nextFrameId, timestamp⟩ l.tracker.unacknowledged).length ≤ most.toNat
  cases hsuspended : l.tracker.ackSuspended with
  | true => exact h.inFlight
  | false =>
      have hbelow : l.tracker.inFlight < l.tracker.maxInFlight := by
        unfold FrameTracker.shouldBackpressure at hblocked
        rw [hsuspended] at hblocked
        simpa only [Bool.not_false, Bool.true_and, ge_iff_le, decide_eq_true_eq, UInt32.not_le] using hblocked
      have hcount : l.tracker.inFlight.toNat = l.tracker.unacknowledged.length :=
        UInt32.toNat_ofNat_of_lt' (Nat.lt_of_le_of_lt h.inFlight most.toNat_lt)
      have hroom : l.tracker.unacknowledged.length < most.toNat := calc
        l.tracker.unacknowledged.length = l.tracker.inFlight.toNat := hcount.symm
        _ < l.tracker.maxInFlight.toNat := UInt32.lt_iff_toNat_lt.mp hbelow
        _ ≤ most.toNat := UInt32.le_iff_toNat_le.mp h.maxInFlight
      exact (length_put_le _ _).trans hroom

theorem few_step (h : Few most l) (event : LoopEvent)
    (hevent : ∀ max, event = .setMaxFramesInFlight max → max ≤ most) : Few most (l.step event) := by
  cases event with
  | send timestamp => exact few_send h timestamp
  | arrive =>
      unfold step arrive
      cases l.down <;> exact ⟨h.inFlight, h.maxInFlight⟩
  | present index => exact ⟨h.inFlight, h.maxInFlight⟩
  | setHidden hidden => exact ⟨h.inFlight, h.maxInFlight⟩
  | drain => exact ⟨h.inFlight, h.maxInFlight⟩
  | acknowledge =>
      unfold step acknowledge
      rcases l.up with _ | ⟨ack, up⟩
      · exact h
      refine ⟨?_, h.maxInFlight⟩
      change (l.tracker.acknowledge ack.frameId (wireDepth ack)).2.unacknowledged.length ≤ most.toNat
      by_cases hsuspends : Suspends ack
      · rw [(acknowledge_suspends hsuspends l.tracker).1]
        exact Nat.zero_le _
      · rw [(acknowledge_takes hsuspends l.tracker).1]
        exact List.eraseP_sublist.length_le.trans h.inFlight
  | setMaxFramesInFlight max => exact ⟨h.inFlight, hevent max rfl⟩
  | resize => exact ⟨Nat.zero_le _, h.maxInFlight⟩

theorem few_run {events : List LoopEvent} (h : Few most l)
    (hevents : ∀ max, .setMaxFramesInFlight max ∈ events → max ≤ most) : Few most (l.run events) := by
  induction events generalizing l with
  | nil => exact h
  | cons event events ih =>
      refine ih (few_step h event ?_) fun max hmax => hevents max (List.mem_cons_of_mem _ hmax)
      rintro max rfl
      exact hevents max List.mem_cons_self

/-- **Flow of the frames.** As long as the server does not resize while it is suspended, it has no frame outstanding
once nothing is on the way, whatever happened; so what is on the way always lets it send again. And it never has more
frames outstanding than it was told. -/
theorem frames_flow (h : Handler) (events : List LoopEvent) (hawake : ResizesAwake (new h) events) :
    (((new h).run events).Quiet → ((new h).run events).tracker.unacknowledged = []) ∧
      (0 < ((new h).run events).tracker.maxInFlight → ∃ more, (∀ event ∈ more, Delivers event) ∧
        more.length ≤ ((new h).run events).distance ∧
          (((new h).run events).run more).tracker.shouldBackpressure = false) ∧
      ∀ most : UInt32, h.maxFramesInFlight ≤ most → (∀ max, .setMaxFramesInFlight max ∈ events → max ≤ most) →
        ((new h).run events).tracker.unacknowledged.length ≤ most.toNat := by
  have hinv : ((new h).run events).Inv := inv_run (inv_new h) hawake
  refine ⟨unacknowledged_of_quiet hinv, ?_, ?_⟩
  · intro hmax
    obtain ⟨more, hdelivers, hlength, hquiet⟩ := exists_quiet ((new h).run events)
    refine ⟨more, hdelivers, hlength, not_blocked_of_quiet ?_ hquiet ?_⟩
    · exact inv_run hinv (resizesAwake_of_delivers hdelivers)
    · rw [maxInFlight_run_of_delivers hdelivers]
      exact hmax
  · intro most hmost hset
    have hfew : Few most (new h) := ⟨Nat.zero_le _, hmost⟩
    exact (few_run hfew hset).inFlight

/-- A client that is hidden and shown again, and then a resize. -/
def hiddenAndShown : List LoopEvent :=
  [.send ⟨0, 0, 0, 0⟩, .arrive, .setHidden true, .present 0, .drain, .acknowledge, .send ⟨0, 0, 0, 0⟩, .arrive,
    .setHidden false, .present 0, .drain, .acknowledge, .resize]

theorem frames_flow_hidden :
    ResizesAwake (new .default) hiddenAndShown ∧ (((new .default).run hiddenAndShown).Quiet →
      ((new .default).run hiddenAndShown).tracker.unacknowledged = []) :=
  have hawake : ResizesAwake (new .default) hiddenAndShown := by decide
  ⟨hawake, (frames_flow .default hiddenAndShown hawake).1⟩

/-! ### A resize in between -/

/-- One frame sent, received and presented. -/
def oneFrame (timestamp : Timestamp) : List LoopEvent := [.send timestamp, .arrive, .present 0]

/-- What is asked of the client stays so. -/
structure Deaf (l : Loop) : Prop where
  quiet : l.Quiet
  hidden : l.client.acks.hidden = true
  suspendSent : l.client.acks.suspendSent = true

/-- The frames that the server waits for are the last ones it sent. -/
structure Waits (first : UInt32) (n : Nat) (l : Loop) : Prop where
  keys : l.tracker.unacknowledged.map FrameInfo.frameId = (List.range n).map fun i => first + .ofNat i
  next : l.tracker.nextFrameId = first + .ofNat n
  awake : l.tracker.ackSuspended = false

/-- A hidden client that has asked for a suspension takes the frame and says nothing. -/
theorem run_oneFrame (h : l.Deaf) (hfree : l.tracker.shouldBackpressure = false) (timestamp : Timestamp) :
    (l.run (oneFrame timestamp)).Deaf ∧
      (l.run (oneFrame timestamp)).tracker = (l.tracker.beginFrame timestamp).2 := by
  rcases l with ⟨tracker, down, ⟨⟨outbox, inFlight, totalDecoded, hidden, suspendSent⟩, callbacks⟩, up⟩
  obtain ⟨⟨rfl, rfl, rfl, rfl⟩, rfl, rfl⟩ := h
  change tracker.shouldBackpressure = false at hfree
  have hsend : send ⟨tracker, [], ⟨⟨[], inFlight, totalDecoded, true, true⟩, []⟩, []⟩ timestamp =
      ⟨(tracker.beginFrame timestamp).2, [tracker.nextFrameId],
        ⟨⟨[], inFlight, totalDecoded, true, true⟩, []⟩, []⟩ := if_neg (Bool.eq_false_iff.mp hfree)
  have hrun : run ⟨tracker, [], ⟨⟨[], inFlight, totalDecoded, true, true⟩, []⟩, []⟩ (oneFrame timestamp) =
      ⟨(tracker.beginFrame timestamp).2, [], ⟨⟨[], min (inFlight + 1) u32Max - 1,
        (totalDecoded + 1) % 2 ^ 32, true, true⟩, []⟩, []⟩ := by
    unfold run oneFrame
    rw [List.foldl_cons]
    change List.foldl step (send _ timestamp) _ = _
    rw [hsend]
    rfl
  rw [hrun]
  exact ⟨⟨⟨rfl, rfl, rfl, rfl⟩, rfl, rfl⟩, rfl⟩

theorem Waits.length {first : UInt32} {n : Nat} (h : Waits first n l) : l.tracker.unacknowledged.length = n := calc
  l.tracker.unacknowledged.length = (l.tracker.unacknowledged.map FrameInfo.frameId).length :=
    (List.length_map _).symm
  _ = n := by rw [h.keys, List.length_map, List.length_range]

theorem Waits.inFlight {first : UInt32} {n : Nat} (h : Waits first n l) (hn : n ≤ l.tracker.maxInFlight.toNat) :
    l.tracker.inFlight.toNat = n := by
  unfold FrameTracker.inFlight
  rw [h.length]
  exact UInt32.toNat_ofNat_of_lt' (Nat.lt_of_le_of_lt hn l.tracker.maxInFlight.toNat_lt)

theorem Waits.not_blocked {first : UInt32} {n : Nat} (h : Waits first n l) (hn : n < l.tracker.maxInFlight.toNat) :
    l.tracker.shouldBackpressure = false := by
  have hfew : ¬ l.tracker.maxInFlight ≤ l.tracker.inFlight := by
    rw [UInt32.le_iff_toNat_le, h.inFlight (Nat.le_of_lt hn)]
    exact Nat.not_le.mpr hn
  unfold FrameTracker.shouldBackpressure
  rw [decide_eq_false hfew, Bool.and_false]

theorem Waits.blocked {first : UInt32} (h : Waits first l.tracker.maxInFlight.toNat l) :
    l.tracker.shouldBackpressure = true := by
  have hfull : l.tracker.maxInFlight ≤ l.tracker.inFlight :=
    UInt32.le_iff_toNat_le.mpr (Nat.le_of_eq (h.inFlight (Nat.le_refl _)).symm)
  unfold FrameTracker.shouldBackpressure
  rw [h.awake, decide_eq_true hfull]
  rfl

theorem not_mem_keys {first : UInt32} {n : Nat} (hn : n < 2 ^ 32) :
    first + .ofNat n ∉ (List.range n).map fun i => first + UInt32.ofNat i := by
  intro hmem
  obtain ⟨i, hi, heq⟩ := List.mem_map.mp hmem
  rw [List.mem_range] at hi
  have hsame : UInt32.ofNat i = UInt32.ofNat n := (UInt32.add_right_inj first).mp heq
  have htoNat := congrArg UInt32.toNat hsame
  rw [UInt32.toNat_ofNat_of_lt' (Nat.lt_trans hi hn), UInt32.toNat_ofNat_of_lt' hn] at htoNat
  omega

theorem waits_oneFrame {first : UInt32} {n : Nat} (h : l.Deaf) (hwaits : Waits first n l)
    (hn : n < l.tracker.maxInFlight.toNat) (timestamp : Timestamp) :
    (l.run (oneFrame timestamp)).Deaf ∧ Waits first (n + 1) (l.run (oneFrame timestamp)) ∧
      (l.run (oneFrame timestamp)).tracker.maxInFlight = l.tracker.maxInFlight := by
  obtain ⟨hdeaf, htracker⟩ := run_oneFrame h (hwaits.not_blocked hn) timestamp
  have hput : (l.tracker.beginFrame timestamp).2.unacknowledged =
      put FrameInfo.frameId ⟨l.tracker.nextFrameId, timestamp⟩ l.tracker.unacknowledged :=
    if_neg (Bool.eq_false_iff.mp hwaits.awake)
  refine ⟨hdeaf, ⟨?_, ?_, ?_⟩, ?_⟩
  · have hnew : l.tracker.nextFrameId ∉ l.tracker.unacknowledged.map FrameInfo.frameId := by
      rw [hwaits.keys, hwaits.next]
      exact not_mem_keys (Nat.lt_trans hn l.tracker.maxInFlight.toNat_lt)
    rw [htracker, hput, keys_put, if_neg hnew, hwaits.keys, hwaits.next, List.range_succ, List.map_append]
    rfl
  · rw [htracker]
    change l.tracker.nextFrameId + 1 = first + .ofNat (n + 1)
    rw [hwaits.next, UInt32.add_assoc, UInt32.ofNat_add]
    rfl
  · rw [htracker]
    exact hwaits.awake
  · rw [htracker]
    rfl

/-- The server has sent all the frames it may, and no answer is on the way. -/
structure Stuck (l : Loop) : Prop where
  quiet : l.Quiet
  blocked : l.tracker.shouldBackpressure = true

theorem stuck_of_deaf {first : UInt32} (timestamp : Timestamp) {left n : Nat} (h : l.Deaf) (hwaits : Waits first n l)
    (hleft : n + left = l.tracker.maxInFlight.toNat) :
    Stuck (l.run (List.replicate left (oneFrame timestamp)).flatten) := by
  induction left generalizing l n with
  | zero =>
      rw [Nat.add_zero] at hleft
      rw [hleft] at hwaits
      exact ⟨h.quiet, hwaits.blocked⟩
  | succ left ih =>
      obtain ⟨hdeaf, hwaits', hmax⟩ := waits_oneFrame h hwaits (by omega) timestamp
      have hrest := ih hdeaf hwaits' (by rw [hmax]; omega)
      rw [List.replicate_succ, List.flatten_cons]
      unfold run at hrest ⊢
      rw [List.foldl_append]
      exact hrest

/-- Only a new limit or a resize lets the server send again. -/
def Frees : LoopEvent → Prop
  | .setMaxFramesInFlight _ | .resize => True
  | _ => False

theorem stuck_step (h : Stuck l) {event : LoopEvent} (hevent : ¬ Frees event) :
    Stuck (l.step event) ∧ (l.step event).tracker = l.tracker := by
  rcases l with ⟨tracker, down, ⟨acks, callbacks⟩, up⟩
  obtain ⟨⟨rfl, rfl, houtbox, rfl⟩, hblocked⟩ := h
  change acks.outbox = [] at houtbox
  cases event with
  | send timestamp =>
      have hsend : send ⟨tracker, [], ⟨acks, []⟩, []⟩ timestamp = ⟨tracker, [], ⟨acks, []⟩, []⟩ := if_pos hblocked
      change Stuck (send _ timestamp) ∧ (send _ timestamp).tracker = tracker
      rw [hsend]
      exact ⟨⟨⟨rfl, rfl, houtbox, rfl⟩, hblocked⟩, rfl⟩
  | arrive => exact ⟨⟨⟨rfl, rfl, houtbox, rfl⟩, hblocked⟩, rfl⟩
  | present index => exact ⟨⟨⟨rfl, rfl, houtbox, rfl⟩, hblocked⟩, rfl⟩
  | setHidden hidden => exact ⟨⟨⟨rfl, rfl, houtbox, rfl⟩, hblocked⟩, rfl⟩
  | drain => exact ⟨⟨⟨rfl, rfl, rfl, houtbox⟩, hblocked⟩, rfl⟩
  | acknowledge => exact ⟨⟨⟨rfl, rfl, houtbox, rfl⟩, hblocked⟩, rfl⟩
  | setMaxFramesInFlight max => exact absurd trivial hevent
  | resize => exact absurd trivial hevent

theorem stuck_run {events : List LoopEvent} (h : Stuck l) (hevents : ∀ event ∈ events, ¬ Frees event) :
    Stuck (l.run events) ∧ (l.run events).tracker = l.tracker := by
  induction events generalizing l with
  | nil => exact ⟨h, rfl⟩
  | cons event events ih =>
      obtain ⟨hevent, hevents⟩ := List.forall_mem_cons.mp hevents
      obtain ⟨hstuck, htracker⟩ := stuck_step h hevent
      obtain ⟨hend, hkept⟩ := ih hstuck hevents
      exact ⟨hend, hkept.trans htracker⟩

/-- The hidden client has asked for the suspension, and nothing it says is on the way. -/
structure Hushed (l : Loop) : Prop where
  outbox : l.client.acks.outbox = []
  up : l.up = []
  hidden : l.client.acks.hidden = true
  suspendSent : l.client.acks.suspendSent = true

/-- The client stays hidden, and the server is not freed. -/
def KeepsHidden : LoopEvent → Prop
  | .setHidden hidden => hidden = true
  | event => ¬ Frees event

theorem hushed_step (h : Hushed l) {event : LoopEvent} (hevent : KeepsHidden event) : Hushed (l.step event) := by
  obtain ⟨houtbox, hup, hhidden, hsent⟩ := h
  cases event with
  | send timestamp =>
      change Hushed (l.send timestamp)
      unfold send
      split
      · exact ⟨houtbox, hup, hhidden, hsent⟩
      · exact ⟨houtbox, hup, hhidden, hsent⟩
  | arrive =>
      change Hushed l.arrive
      unfold arrive
      split
      · exact ⟨houtbox, hup, hhidden, hsent⟩
      · exact ⟨houtbox, hup, hhidden, hsent⟩
  | present index =>
      have hpresented : ∀ frameId, l.client.acks.presented frameId =
          { l.client.acks with inFlight := l.client.acks.inFlight - 1 } := by
        intro frameId
        simp [Gfx.AckState.presented, hhidden, hsent]
      obtain ⟨inFlight, hacks⟩ : ∃ inFlight, (l.client.step (.present index)).1.acks =
          { l.client.acks with inFlight } := by
        simp only [Gfx.System.step]
        split
        · exact ⟨l.client.acks.inFlight, rfl⟩
        · next frameId _ => exact ⟨_, hpresented frameId⟩
      refine ⟨?_, hup, ?_, ?_⟩
      · exact (congrArg Gfx.AckState.outbox hacks).trans houtbox
      · exact (congrArg Gfx.AckState.hidden hacks).trans hhidden
      · exact (congrArg Gfx.AckState.suspendSent hacks).trans hsent
  | setHidden hidden =>
      obtain rfl : hidden = true := hevent
      refine ⟨houtbox, hup, rfl, ?_⟩
      change (if l.client.acks.hidden ≠ true then false else l.client.acks.suspendSent) = true
      rw [if_neg (not_not_intro hhidden)]
      exact hsent
  | drain =>
      refine ⟨rfl, ?_, hhidden, hsent⟩
      change l.up ++ l.client.acks.outbox = []
      rw [hup, houtbox]
      rfl
  | acknowledge =>
      change Hushed l.acknowledge
      unfold acknowledge
      rw [hup]
      exact ⟨houtbox, hup, hhidden, hsent⟩
  | setMaxFramesInFlight max => exact absurd trivial hevent
  | resize => exact absurd trivial hevent

theorem hushed_run {events : List LoopEvent} (h : Hushed l) (hevents : ∀ event ∈ events, KeepsHidden event) :
    Hushed (l.run events) := by
  induction events generalizing l with
  | nil => exact h
  | cons event events ih =>
      obtain ⟨hevent, hevents⟩ := List.forall_mem_cons.mp hevents
      exact ih (hushed_step h hevent) hevents

theorem Hushed.deaf (h : Hushed l) (hdown : l.down = []) (hcallbacks : l.client.callbacks = []) : l.Deaf :=
  ⟨⟨hdown, hcallbacks, h.outbox, h.up⟩, h.hidden, h.suspendSent⟩

/-- A server that resizes while a hidden client has suspended it, and fills its window before the client is shown,
never sends another frame: the client has forgotten those that the server waits for, shown or not. If no frame is on
the way at the resize, sending them one by one fills the window. -/
theorem resize_while_suspended (h : Hushed l) :
    (∀ filling later, (∀ event ∈ filling, KeepsHidden event) → (∀ event ∈ later, ¬ Frees event) →
      ((l.step .resize).run filling).down = [] → ((l.step .resize).run filling).client.callbacks = [] →
      ((l.step .resize).run filling).tracker.shouldBackpressure = true →
        ((l.step .resize).run (filling ++ later)).tracker = ((l.step .resize).run filling).tracker) ∧
      (l.down = [] → l.client.callbacks = [] → ∀ timestamp,
        let filling := (List.replicate l.tracker.maxInFlight.toNat (oneFrame timestamp)).flatten
        (∀ event ∈ filling, KeepsHidden event) ∧ ((l.step .resize).run filling).down = [] ∧
          ((l.step .resize).run filling).client.callbacks = [] ∧
          ((l.step .resize).run filling).tracker.shouldBackpressure = true) := by
  have hresized : Hushed (l.step .resize) := ⟨h.outbox, h.up, h.hidden, h.suspendSent⟩
  constructor
  · intro filling later hfilling hlater hdown hcallbacks hfull
    have hquiet := ((hushed_run hresized hfilling).deaf hdown hcallbacks).quiet
    have hkept := (stuck_run ⟨hquiet, hfull⟩ hlater).2
    unfold run at hkept ⊢
    rw [List.foldl_append]
    exact hkept
  · intro hdown hcallbacks timestamp filling
    have hwaits : Waits l.tracker.nextFrameId 0 (l.step .resize) :=
      ⟨by rfl, (UInt32.add_zero _).symm, by rfl⟩
    have hstuck : Stuck ((l.step .resize).run filling) :=
      stuck_of_deaf timestamp (hresized.deaf hdown hcallbacks) hwaits (Nat.zero_add _)
    refine ⟨?_, hstuck.quiet.down, hstuck.quiet.callbacks, hstuck.blocked⟩
    intro event hevent
    obtain ⟨frame, hframe, hmem⟩ := List.mem_flatten.mp hevent
    rw [List.eq_of_mem_replicate hframe] at hmem
    rcases List.mem_cons.mp hmem with rfl | hmem
    · exact id
    · rcases List.mem_pair.mp hmem with rfl | rfl <;> exact id

/-- One frame that is presented while the client is hidden. -/
def suspendedByHidden : Loop :=
  (new .default).run [.send ⟨0, 0, 0, 0⟩, .arrive, .setHidden true, .present 0, .drain, .acknowledge]

/-- The frames of a window, all sent before the first arrives. -/
def fillsWindow : List LoopEvent :=
  List.replicate 3 (.send ⟨0, 0, 0, 0⟩) ++ List.replicate 3 .arrive ++ [.present 2, .present 0, .present 0, .drain]

theorem resize_while_suspended_shown :
    ((suspendedByHidden.step .resize).run (fillsWindow ++
      [.setHidden false, .send ⟨0, 0, 0, 0⟩])).tracker.unacknowledged.map FrameInfo.frameId = [1, 2, 3] := by
  have hhushed : Hushed suspendedByHidden := ⟨rfl, rfl, rfl, rfl⟩
  have hfilling : ∀ event ∈ fillsWindow, KeepsHidden event := by
    have hpresented : ∀ event ∈ [LoopEvent.present 2, .present 0, .present 0, .drain], KeepsHidden event := by
      simp only [List.forall_mem_cons]
      exact ⟨id, id, id, id, List.forall_mem_nil _⟩
    intro event hevent
    rcases List.mem_append.mp hevent with hfirst | hlast
    · rcases List.mem_append.mp hfirst with hsent | harrived
      · rw [List.eq_of_mem_replicate hsent]
        exact id
      · rw [List.eq_of_mem_replicate harrived]
        exact id
    · exact hpresented event hlast
  have hlater : ∀ event ∈ [LoopEvent.setHidden false, .send ⟨0, 0, 0, 0⟩], ¬ Frees event :=
    List.forall_mem_cons.mpr ⟨id, List.forall_mem_cons.mpr ⟨id, List.forall_mem_nil _⟩⟩
  have hdown : ((suspendedByHidden.step .resize).run fillsWindow).down = [] := by decide
  have hcallbacks : ((suspendedByHidden.step .resize).run fillsWindow).client.callbacks = [] := by decide
  have hfull : ((suspendedByHidden.step .resize).run fillsWindow).tracker.shouldBackpressure = true := by
    decide
  rw [(resize_while_suspended hhushed).1 fillsWindow _ hfilling hlater hdown hcallbacks hfull]
  decide

end Loop

end Drift.Egfx
