import Drift.Gfx.Ack
import Mathlib.Data.Multiset.Count
import Mathlib.Tactic.Tauto

/-!
# The acknowledgement policy

A `Ledger` follows the record of a run: the frames not yet presented, the number of frames ended,
whether the session is hidden and whether the suspend of this hidden period is out, and the
acknowledgements not yet drained. `Ledger.check` accepts an effect when it is the one the policy
allows in that situation. Every run with fewer than `2 ^ 32` frames in flight has an accepted record
(`judge_history`), and what the policy promises is read off an accepted record.
-/

namespace Drift.Gfx

structure Ledger where
  outstanding : Multiset UInt32
  ended : Nat
  hidden : Bool
  suspended : Bool
  queue : List FrameAcknowledge

namespace Ledger

def new : Ledger := ⟨0, 0, false, false, []⟩

/-- The acknowledgement owed for a frame presented now. -/
def owed (l : Ledger) (frameId : UInt32) : Option FrameAcknowledge :=
  if l.hidden then
    if l.suspended then none else some ⟨.suspend, frameId, l.ended % 2 ^ 32⟩
  else
    let left := l.outstanding.card - 1
    some ⟨if left = 0 then .unavailable else .availableBytes left, frameId, l.ended % 2 ^ 32⟩

def present (l : Ledger) (frameId : UInt32) : Ledger :=
  { l with
    outstanding := l.outstanding.erase frameId
    suspended := l.suspended || l.hidden
    queue := l.queue ++ (l.owed frameId).toList }

def check (l : Ledger) : Effect → Option Ledger
  | .ended frameId =>
    some { l with outstanding := frameId ::ₘ l.outstanding, ended := l.ended + 1 }
  | .presented frameId ack =>
    if frameId ∈ l.outstanding ∧ ack = l.owed frameId then some (l.present frameId) else none
  | .hiddenSet hidden =>
    some
      { l with
        hidden := hidden
        suspended := if l.hidden ≠ hidden then false else l.suspended }
  | .drained acks => if acks = l.queue then some { l with queue := [] } else none

abbrev judge : Ledger → List Effect → Option Ledger := Transition.judge check

theorem check_presented_eq_some {l l' : Ledger} {frameId : UInt32} {ack : Option FrameAcknowledge}
    (h : l.check (.presented frameId ack) = some l') :
    frameId ∈ l.outstanding ∧ ack = l.owed frameId ∧ l' = l.present frameId := by
  simp only [check] at h
  split at h
  · next hcond => exact ⟨hcond.1, hcond.2, (Option.some.inj h).symm⟩
  · cases h

theorem check_drained_eq_some {l l' : Ledger} {acks : List FrameAcknowledge}
    (h : l.check (.drained acks) = some l') : acks = l.queue ∧ l' = { l with queue := [] } := by
  simp only [check] at h
  split at h
  · next hcond => exact ⟨hcond, (Option.some.inj h).symm⟩
  · cases h

end Ledger

/-! ### The code follows the ledger -/

/-- The system and the ledger describe the same situation. -/
structure Agrees (s : System) (l : Ledger) : Prop where
  outstanding_eq : l.outstanding = s.callbacks
  inFlight_eq : s.acks.inFlight = s.callbacks.length
  total_eq : s.acks.totalDecoded = l.ended % 2 ^ 32
  hidden_eq : s.acks.hidden = l.hidden
  suspended_eq : s.acks.hidden = true → s.acks.suspendSent = l.suspended
  visible_suspended : l.hidden = false → l.suspended = false
  queue_eq : s.acks.outbox = l.queue

namespace Agrees

variable {s : System} {l : Ledger}

theorem new : Agrees System.new Ledger.new :=
  ⟨rfl, rfl, rfl, rfl, fun _ => rfl, fun _ => rfl, rfl⟩

/-- What the callback of a frame adds to the outbox is what the ledger owes for it. -/
theorem outbox_presented (h : Agrees s l) (frameId : UInt32) :
    (s.acks.presented frameId).outbox = s.acks.outbox ++ (l.owed frameId).toList := by
  have hcard : l.outstanding.card = s.acks.inFlight := by
    rw [h.outstanding_eq, h.inFlight_eq, Multiset.coe_card]
  have hsuspended := h.suspended_eq
  unfold AckState.presented Ledger.owed
  rw [← h.hidden_eq, hcard, ← h.total_eq]
  cases hhidden : s.acks.hidden with
  | false => simp [AckState.queueAck]
  | true =>
      rw [← hsuspended hhidden]
      cases s.acks.suspendSent <;> simp [AckState.queueAck]

theorem endFrame (h : Agrees s l) (frameId : UInt32)
    (hbound : (s.step (.endFrame frameId)).1.callbacks.length < 2 ^ 32) :
    Agrees (s.step (.endFrame frameId)).1
      { l with outstanding := frameId ::ₘ l.outstanding, ended := l.ended + 1 } := by
  have hlength : (s.step (.endFrame frameId)).1.callbacks.length = s.callbacks.length + 1 := by
    simp [System.step]
  refine ⟨?_, ?_, ?_, h.hidden_eq, h.suspended_eq, h.visible_suspended, h.queue_eq⟩
  · rw [h.outstanding_eq, Multiset.cons_coe, Multiset.coe_eq_coe]
    exact (List.perm_append_singleton frameId s.callbacks).symm
  · rw [hlength] at hbound ⊢
    simp only [System.step, AckState.frameEnded, h.inFlight_eq, u32Max]
    omega
  · simp only [System.step, AckState.frameEnded, h.total_eq]
    omega

theorem present (h : Agrees s l) {index : Nat} {frameId : UInt32}
    (hframe : s.callbacks[index]? = some frameId) :
    Agrees ⟨s.acks.presented frameId, s.callbacks.eraseIdx index⟩ (l.present frameId) := by
  obtain ⟨hindex, hget⟩ := List.getElem?_eq_some_iff.mp hframe
  have hperm : (s.callbacks.eraseIdx index).Perm (s.callbacks.erase frameId) := by
    refine (List.perm_cons frameId).mp ?_
    refine .trans ?_ (List.perm_cons_erase (hget ▸ List.getElem_mem hindex))
    have := List.getElem_cons_eraseIdx_perm hindex
    rwa [hget] at this
  have hsuspended := h.suspended_eq
  have hinFlight : (s.acks.presented frameId).inFlight = s.acks.inFlight - 1 := by
    unfold AckState.presented
    cases s.acks.hidden <;> cases s.acks.suspendSent <;> rfl
  have htotal : (s.acks.presented frameId).totalDecoded = s.acks.totalDecoded := by
    unfold AckState.presented
    cases s.acks.hidden <;> cases s.acks.suspendSent <;> rfl
  have hhidden : (s.acks.presented frameId).hidden = s.acks.hidden := by
    unfold AckState.presented
    cases s.acks.hidden <;> cases s.acks.suspendSent <;> simp [AckState.queueAck]
  refine ⟨?_, ?_, htotal.trans h.total_eq, hhidden.trans h.hidden_eq, ?_, ?_, ?_⟩
  · simp only [Ledger.present]
    rw [h.outstanding_eq, Multiset.coe_erase, Multiset.coe_eq_coe]
    exact hperm.symm
  · rw [hinFlight, h.inFlight_eq, List.length_eraseIdx_of_lt hindex]
  · intro hnow
    rw [hhidden] at hnow
    have hlast := hsuspended hnow
    rw [h.hidden_eq] at hnow
    simp only [Ledger.present, hnow, Bool.or_true]
    unfold AckState.presented
    cases s.acks.suspendSent <;> simp [AckState.queueAck, h.hidden_eq, hnow]
  · intro hvisible
    have hnow : l.hidden = false := hvisible
    simp [Ledger.present, hnow, h.visible_suspended hnow]
  · simp only [Ledger.present, h.outbox_presented, h.queue_eq]

theorem setHidden (h : Agrees s l) (hidden : Bool) :
    Agrees { s with acks := s.acks.setHidden hidden }
      { l with
        hidden := hidden
        suspended := if l.hidden ≠ hidden then false else l.suspended } := by
  refine ⟨h.outstanding_eq, h.inFlight_eq, h.total_eq, rfl, ?_, ?_, h.queue_eq⟩
  · intro hnow
    simp only [AckState.setHidden] at hnow ⊢
    subst hnow
    rw [h.hidden_eq]
    by_cases hbefore : l.hidden = true
    · simp [hbefore, h.suspended_eq (h.hidden_eq.trans hbefore)]
    · simp [hbefore]
  · intro hvisible
    simp only at hvisible ⊢
    subst hvisible
    by_cases hbefore : l.hidden = false
    · simp [hbefore, h.visible_suspended hbefore]
    · simp [hbefore]

/-- **Step lemma.** Every event leaves an effect the ledger accepts. -/
theorem step (h : Agrees s l) (event : Event)
    (hbound : (s.step event).1.callbacks.length < 2 ^ 32) :
    ∃ l', l.judge (s.step event).2 = some l' ∧ Agrees (s.step event).1 l' := by
  cases event with
  | endFrame frameId => exact ⟨_, rfl, h.endFrame frameId hbound⟩
  | present index =>
      cases hframe : s.callbacks[index]? with
      | none =>
          refine ⟨l, ?_, ?_⟩ <;> simp only [System.step, hframe]
          · rfl
          · exact h
      | some frameId =>
          have hmem : frameId ∈ l.outstanding := by
            rw [h.outstanding_eq]
            exact List.mem_of_getElem? hframe
          have hack : ((s.acks.presented frameId).outbox.drop s.acks.outbox.length).head? =
              l.owed frameId := by
            rw [h.outbox_presented, List.drop_left]
            cases l.owed frameId <;> rfl
          refine ⟨l.present frameId, ?_, ?_⟩ <;> simp only [System.step, hframe]
          · rw [hack, Ledger.judge, Transition.judge_singleton, Ledger.check, if_pos ⟨hmem, rfl⟩]
          · exact h.present hframe
  | setHidden hidden => exact ⟨_, rfl, h.setHidden hidden⟩
  | drain =>
      refine ⟨{ l with queue := [] }, ?_, ?_⟩
      · simp [System.step, AckState.drain, Ledger.judge, Ledger.check, h.queue_eq]
      · exact { h with queue_eq := rfl }

end Agrees

/-- Every event in turn finds fewer than `2 ^ 32` frames in flight. -/
def BoundedInFlight (events : List Event) : Prop :=
  ∀ before, before <+: events → (System.history before).1.callbacks.length < 2 ^ 32

theorem length_callbacks_step (s : System) (event : Event) :
    (s.step event).1.callbacks.length ≤ s.callbacks.length + 1 := by
  cases event with
  | endFrame frameId => simp [System.step]
  | present index =>
      simp only [System.step]
      split
      · exact Nat.le_succ _
      · exact (List.length_eraseIdx_le _ _).trans (Nat.le_succ _)
  | setHidden hidden => exact Nat.le_succ _
  | drain => exact Nat.le_succ _

theorem length_callbacks_run (s : System) (events : List Event) :
    (Transition.run System.step s events).1.callbacks.length ≤
      s.callbacks.length + events.length := by
  induction events generalizing s with
  | nil => exact Nat.le_refl _
  | cons event events ih =>
      have hstep := length_callbacks_step s event
      have hrest := ih (s.step event).1
      simp only [Transition.run_cons, List.length_cons]
      omega

/-- A run of fewer than `2 ^ 32` events never has more frames in flight. -/
theorem boundedInFlight_of_length {events : List Event} (h : events.length < 2 ^ 32) :
    BoundedInFlight events := by
  intro before hprefix
  have hlength := hprefix.length_le
  have hcallbacks := length_callbacks_run System.new before
  rw [show System.new.callbacks.length = 0 from rfl, Nat.zero_add] at hcallbacks
  exact (hcallbacks.trans hlength).trans_lt h

theorem judge_history {events : List Event} (hbound : BoundedInFlight events) :
    ∃ l, Ledger.new.judge (System.history events).2 = some l ∧
      Agrees (System.history events).1 l :=
  Transition.run_judged_while (P := fun s : System => s.callbacks.length < 2 ^ 32) Agrees
    (fun _ _ event h hok => h.step event hok) Agrees.new hbound

/-! ### Reading an accepted record -/

namespace Ledger

variable {l l' : Ledger} {record : List Effect}

/-- What a ledger says about the record it followed. -/
structure Reads (l : Ledger) (record : List Effect) (l' : Ledger) : Prop where
  ended_eq : l'.ended = l.ended + (endedFrames record).length
  outstanding_eq : l'.outstanding + (presentedFrames record : Multiset UInt32) =
    l.outstanding + (endedFrames record : Multiset UInt32)
  hidden_eq : l'.hidden = record.foldl Effect.hiddenAfter l.hidden
  queue_eq : drainedAcks record ++ l'.queue = l.queue ++ queuedAcks record

theorem reads_of_judge (h : l.judge record = some l') : Reads l record l' := by
  induction record generalizing l with
  | nil =>
      obtain rfl : l = l' := Option.some.inj h
      exact ⟨rfl, by simp [presentedFrames, endedFrames], rfl, by simp [drainedAcks, queuedAcks]⟩
  | cons e record ih =>
      obtain ⟨l₁, hcheck, hrest⟩ := Option.bind_eq_some_iff.mp h
      have hreads := ih hrest
      cases e with
      | ended frameId =>
          obtain rfl := Option.some.inj hcheck
          refine ⟨?_, ?_, hreads.hidden_eq, hreads.queue_eq⟩
          · rw [hreads.ended_eq]
            simp only [endedFrames, List.filterMap_cons, Effect.ended?, List.length_cons]
            omega
          · have := hreads.outstanding_eq
            simp only [presentedFrames, endedFrames, List.filterMap_cons, Effect.ended?,
              Effect.presented?, ← Multiset.cons_coe, Multiset.cons_add, Multiset.add_cons]
              at this ⊢
            exact this
      | presented frameId ack =>
          obtain ⟨hmem, hack, rfl⟩ := check_presented_eq_some hcheck
          refine ⟨hreads.ended_eq, ?_, hreads.hidden_eq, ?_⟩
          · have hrest' : l'.outstanding + (presentedFrames record : Multiset UInt32) =
                l.outstanding.erase frameId + (endedFrames record : Multiset UInt32) :=
              hreads.outstanding_eq
            simp only [presentedFrames, endedFrames, List.filterMap_cons, Effect.ended?,
              Effect.presented?, ← Multiset.cons_coe, Multiset.add_cons] at hrest' ⊢
            rw [hrest', ← Multiset.cons_add, Multiset.cons_erase hmem]
          · have := hreads.queue_eq
            simp only [drainedAcks, queuedAcks, List.flatMap_cons, List.filterMap_cons,
              Effect.taken, Effect.queued?, List.nil_append, present, hack] at this ⊢
            rw [this]
            cases l.owed frameId <;> simp
      | hiddenSet hidden =>
          obtain rfl := Option.some.inj hcheck
          exact ⟨hreads.ended_eq, hreads.outstanding_eq, hreads.hidden_eq, hreads.queue_eq⟩
      | drained acks =>
          obtain ⟨rfl, rfl⟩ := check_drained_eq_some hcheck
          refine ⟨hreads.ended_eq, hreads.outstanding_eq, hreads.hidden_eq, ?_⟩
          have := hreads.queue_eq
          simp only [drainedAcks, queuedAcks, List.flatMap_cons, List.filterMap_cons,
            Effect.taken, Effect.queued?, List.nil_append] at this ⊢
          rw [List.append_assoc, this]

/-- A frame presented at some point of an accepted record was outstanding there and got what the
ledger owed for it. -/
theorem owed_of_judge {before after : List Effect} {frameId : UInt32}
    {ack : Option FrameAcknowledge}
    (h : new.judge (before ++ .presented frameId ack :: after) = some l') :
    ∃ m : Ledger, Reads new before m ∧ frameId ∈ m.outstanding ∧ ack = m.owed frameId := by
  obtain ⟨m, hbefore, hrest⟩ := Transition.judge_append_eq_some h
  obtain ⟨m', hcheck, _⟩ := Option.bind_eq_some_iff.mp hrest
  obtain ⟨hmem, hack, _⟩ := check_presented_eq_some hcheck
  exact ⟨m, reads_of_judge hbefore, hmem, hack⟩

/-- While the session stays hidden, at most the suspend is queued, and nothing once it is out. -/
theorem queuedAcks_hidden (h : l.judge record = some l') (hhidden : l.hidden = true)
    (hstay : .hiddenSet false ∉ record) :
    (queuedAcks record).length ≤ (if l.suspended then 0 else 1) ∧
      ∀ ack ∈ queuedAcks record, ack.queueDepth = .suspend := by
  induction record generalizing l with
  | nil => simp [queuedAcks]
  | cons e record ih =>
      obtain ⟨l₁, hcheck, hrest⟩ := Option.bind_eq_some_iff.mp h
      have hstay' : .hiddenSet false ∉ record := fun hmem => hstay (List.mem_cons_of_mem e hmem)
      cases e with
      | ended frameId =>
          obtain rfl := Option.some.inj hcheck
          have hrec := ih hrest hhidden hstay'
          exact hrec
      | presented frameId ack =>
          obtain ⟨_, hack, rfl⟩ := check_presented_eq_some hcheck
          have hrec := ih hrest hhidden hstay'
          simp only [present, hhidden, Bool.or_true, if_true, Nat.le_zero,
            List.length_eq_zero_iff] at hrec
          simp only [queuedAcks, List.filterMap_cons, Effect.queued?, hack, owed, hhidden,
            if_true] at hrec ⊢
          cases l.suspended <;> simp [hrec.1]
      | hiddenSet hidden =>
          obtain rfl := Option.some.inj hcheck
          have hnow : hidden = true := by
            by_contra hvisible
            rw [Bool.not_eq_true] at hvisible
            exact hstay (hvisible ▸ List.mem_cons_self)
          subst hnow
          have hrec := ih hrest rfl hstay'
          simp only [hhidden, ne_eq, not_true_eq_false, if_false] at hrec
          exact hrec
      | drained acks =>
          obtain ⟨rfl, rfl⟩ := check_drained_eq_some hcheck
          have hrec := ih hrest hhidden hstay'
          exact hrec

end Ledger

/-! ### The policy -/

/-- What the acknowledgements of a run promise, read off its record. -/
structure AckPolicy (record : List Effect) (final : AckState) : Prop where
  /-- In flight is ended minus presented. -/
  inFlight : final.inFlight + (presentedFrames record).length = (endedFrames record).length
  /-- Every ended frame is presented at most once. -/
  presentedOnce : (presentedFrames record : Multiset UInt32) ≤ endedFrames record
  /-- A frame presented while visible is acknowledged, with the frames still in flight. -/
  visible : ∀ before frameId ack after,
    record = before ++ .presented frameId ack :: after → hiddenAt before = false →
      ∃ a, ack = some a ∧ a.frameId = frameId ∧ a.queueDepth ≠ .suspend ∧
        a.queueDepth.toWire + (presentedFrames before).length + 1 = (endedFrames before).length
  /-- A stretch of the run during which the session is hidden queues at most one suspend. -/
  hiddenPeriod : ∀ before during after,
    record = before ++ during ++ after → hiddenAt before = true → .hiddenSet false ∉ during →
      (queuedAcks during).length ≤ 1 ∧ ∀ a ∈ queuedAcks during, a.queueDepth = .suspend
  /-- An acknowledgement is queued by the presentation of its own frame, which had ended. -/
  ownFrame : ∀ before frameId a after, record = before ++ .presented frameId (some a) :: after →
    a.frameId = frameId ∧ frameId ∈ endedFrames before ∧
      a.totalFramesDecoded = (endedFrames before).length % 2 ^ 32
  /-- Every queued acknowledgement is drained at most once and in order. -/
  drainedOnce : drainedAcks record ++ final.outbox = queuedAcks record
  /-- The total counts the ended frames modulo `2 ^ 32`. -/
  total : final.totalDecoded = (endedFrames record).length % 2 ^ 32

/-- **Acknowledgement policy.** Whatever the order in which frames end, callbacks run, the session
is hidden and shown and the outbox is drained, the acknowledgements follow the policy as long as
fewer than `2 ^ 32` frames are in flight. -/
theorem ackPolicy_history (events : List Event) (hbound : BoundedInFlight events) :
    AckPolicy (System.history events).2 (System.history events).1.acks := by
  obtain ⟨l, hjudge, hagrees⟩ := judge_history hbound
  generalize (System.history events).1 = s at hagrees ⊢
  generalize (System.history events).2 = record at hjudge ⊢
  have hreads := Ledger.reads_of_judge hjudge
  have houtstanding := hreads.outstanding_eq
  rw [Ledger.new, Multiset.zero_add, hagrees.outstanding_eq] at houtstanding
  refine ⟨?_, ?_, ?_, ?_, ?_, ?_, ?_⟩
  · have hcard := congrArg Multiset.card houtstanding
    simpa only [Multiset.card_add, Multiset.coe_card, ← hagrees.inFlight_eq] using hcard
  · rw [← houtstanding]
    exact Multiset.le_add_left _ _
  · intro before frameId ack after hsplit hvisible
    rw [hsplit] at hjudge
    obtain ⟨m, hread, hmem, hack⟩ := Ledger.owed_of_judge hjudge
    have hhidden : m.hidden = false := hread.hidden_eq.trans hvisible
    have hcard := congrArg Multiset.card hread.outstanding_eq
    simp only [Ledger.new, Multiset.zero_add, Multiset.card_add, Multiset.coe_card] at hcard
    have hpos : 0 < m.outstanding.card := Multiset.card_pos_iff_exists_mem.mpr ⟨frameId, hmem⟩
    simp only [Ledger.owed, hhidden, Bool.false_eq_true, if_false] at hack
    refine ⟨_, hack, rfl, ?_, ?_⟩
    · simp only
      split <;> simp
    · simp only
      split
      · next hlast =>
        simp only [QueueDepth.toWire]
        omega
      · simp only [QueueDepth.toWire]
        omega
  · intro before during after hsplit hhidden hstay
    rw [hsplit, List.append_assoc] at hjudge
    obtain ⟨m, hbefore, hrest⟩ := Transition.judge_append_eq_some hjudge
    obtain ⟨m', hduring, _⟩ := Transition.judge_append_eq_some hrest
    have hnow : m.hidden = true := (Ledger.reads_of_judge hbefore).hidden_eq.trans hhidden
    obtain ⟨hlength, hdepth⟩ := Ledger.queuedAcks_hidden hduring hnow hstay
    refine ⟨hlength.trans ?_, hdepth⟩
    split <;> decide
  · intro before frameId a after hsplit
    rw [hsplit] at hjudge
    obtain ⟨m, hread, hmem, hack⟩ := Ledger.owed_of_judge hjudge
    have hended : frameId ∈ endedFrames before := by
      have hle : m.outstanding ≤ (endedFrames before : Multiset UInt32) := by
        have := hread.outstanding_eq
        rw [Ledger.new, Multiset.zero_add] at this
        rw [← this]
        exact Multiset.le_add_right _ _
      exact Multiset.mem_coe.mp (Multiset.mem_of_le hle hmem)
    have htotal : m.ended = (endedFrames before).length := by
      rw [hread.ended_eq, Ledger.new, Nat.zero_add]
    rw [Ledger.owed] at hack
    split at hack
    · split at hack
      · cases hack
      · obtain rfl := Option.some.inj hack
        exact ⟨rfl, hended, congrArg (· % 2 ^ 32) htotal⟩
    · obtain rfl := Option.some.inj hack
      exact ⟨rfl, hended, congrArg (· % 2 ^ 32) htotal⟩
  · have := hreads.queue_eq
    rwa [Ledger.new, List.nil_append, ← hagrees.queue_eq] at this
  · rw [hagrees.total_eq, hreads.ended_eq, Ledger.new, Nat.zero_add]

/-- A run that presents out of order, hides with a frame in flight and shows again. -/
theorem ackPolicy_history_hide_show :
    let events := [.endFrame 7, .endFrame 8, .present 1, .setHidden true, .present 0, .endFrame 9,
      .drain, .setHidden false, .present 0, .drain]
    AckPolicy (System.history events).2 (System.history events).1.acks ∧
      drainedAcks (System.history events).2 =
        [⟨.availableBytes 1, 8, 2⟩, ⟨.suspend, 7, 2⟩, ⟨.unavailable, 9, 3⟩] :=
  ⟨ackPolicy_history _ (boundedInFlight_of_length (by decide)), by decide⟩

end Drift.Gfx
