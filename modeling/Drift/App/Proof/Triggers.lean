import Drift.App.Triggers
import Mathlib.Data.List.Induction
import Mathlib.Tactic.Common

/-!
# Merged triggers agree with the network

The merger follows the last trigger that says whether the network is there. While the network is down no
retry is remembered, so the retry that its return asks for is never taken for a duplicate
(`onTrigger_cases`). From this, the actions of a run tell whether the network is there, and a remembered
retry is the last one since the last pause (`Merged`).
-/

namespace Drift

/-- Whether the network is there after a trigger; a wake does not tell. -/
def Trigger.path (online : Bool) : Trigger → Bool
  | .networkOffline => false
  | .networkOnline => true
  | .wake => online

/-- Whether the network is there after some triggers. -/
def reachable (online : Bool) (triggers : List Trigger) : Bool := triggers.foldl Trigger.path online

namespace TriggerMerger

variable {m : TriggerMerger}

theorem isOnline_retry (m : TriggerMerger) (now : Instant) : (m.retry now).1.isOnline = m.isOnline := by
  unfold retry
  split_ifs <;> rfl

theorem isOnline_onTrigger (m : TriggerMerger) (trigger : Trigger) (now : Instant) :
    (m.onTrigger trigger now).1.isOnline = trigger.path m.isOnline := by
  unfold onTrigger
  cases trigger with
  | networkOffline =>
      cases honline : m.online
      · exact honline
      · rfl
  | networkOnline =>
      cases honline : m.online
      · exact isOnline_retry { m with online := true } now
      · exact honline
  | wake =>
      cases m.online
      · rfl
      · exact isOnline_retry m now

/-- The merger follows the triggers. -/
theorem isOnline_run (debounce : Duration) (online : Bool) (inputs : List (Trigger × Instant)) :
    (Transition.run step (withDebounce online debounce) inputs).1.isOnline =
      reachable online (inputs.map Prod.fst) := by
  rw [reachable, List.foldl_map]
  refine Transition.run_refines (fun (m : TriggerMerger) path => m.isOnline = path) ?_ rfl inputs
  intro m path input hpath
  rw [← hpath]
  exact isOnline_onTrigger m input.1 input.2

/-- No retry is remembered while the network is down. -/
def Settled (m : TriggerMerger) : Prop := m.online = false → m.lastRetry = none

theorem retry_cases (m : TriggerMerger) (now : Instant) :
    (m.retry now = (m, none) ∧ m.lastRetry ≠ none) ∨
      (m.retry now = ({ m with lastRetry := some now }, some .retryNow) ∧
        ∀ t, m.lastRetry = some t → m.debounce ≤ now - t) := by
  unfold retry
  by_cases hrecent : (m.lastRetry.any fun t => now - t < m.debounce) = true
  · left
    rw [if_pos hrecent]
    refine ⟨rfl, fun hnone => ?_⟩
    rw [hnone] at hrecent
    exact Bool.false_ne_true hrecent
  · right
    rw [if_neg hrecent]
    refine ⟨rfl, fun t ht => ?_⟩
    rw [ht, Option.any_some, decide_eq_true_eq] at hrecent
    exact Nat.not_lt.mp hrecent

/-- What a trigger does: nothing, an outage, or a retry, which comes late enough after the one
remembered. -/
theorem onTrigger_cases (h : m.Settled) (trigger : Trigger) (now : Instant) :
    m.onTrigger trigger now = (m, none) ∨
      m.onTrigger trigger now =
        ({ m with online := false, lastRetry := none }, some .pauseReconnect) ∨
      (m.onTrigger trigger now =
          ({ m with online := true, lastRetry := some now }, some .retryNow) ∧
        ∀ t, m.lastRetry = some t → m.debounce ≤ now - t) := by
  unfold onTrigger
  cases honline : m.online with
  | false =>
      cases trigger with
      | networkOffline => simp
      | wake => simp
      | networkOnline =>
          right
          right
          have hnone := h honline
          rcases retry_cases { m with online := true } now with ⟨-, hsome⟩ | ⟨heq, hlate⟩
          · exact absurd hnone hsome
          · exact ⟨heq, hlate⟩
  | true =>
      cases trigger with
      | networkOffline => simp
      | networkOnline => simp
      | wake =>
          rcases retry_cases m now with ⟨heq, -⟩ | ⟨heq, hlate⟩
          · exact .inl heq
          · refine .inr (.inr ⟨heq.trans ?_, hlate⟩)
            rw [← honline]

end TriggerMerger

/-! ### Runs -/

/-- Two retries without a pause between them are at least `debounce` apart. -/
def Spaced (debounce : Duration) (actions : List (TriggerAction × Instant)) : Prop :=
  ∀ before t₁ between t₂ after,
    actions = before ++ (.retryNow, t₁) :: (between ++ (.retryNow, t₂) :: after) →
    (∀ a ∈ between, a.1 ≠ .pauseReconnect) → t₁ + debounce ≤ t₂

/-- The reachability that the actions tell to someone who knew the initial one. -/
def told (online : Bool) (actions : List (TriggerAction × Instant)) : Bool :=
  actions.foldl (fun _ a => a.1.online) online

namespace TriggerMerger

/-- The merger after some triggers that had it take some actions. -/
structure Merged (debounce : Duration) (online : Bool) (inputs : List (Trigger × Instant))
    (m : TriggerMerger) (actions : List (TriggerAction × Instant)) : Prop where
  debounce_eq : m.debounce = debounce
  settled : m.Settled
  told_eq : told online actions = m.online
  fed : ∀ t, m.lastRetry = some t → ∃ input ∈ inputs, input.2 = t
  last : ∀ before t between, actions = before ++ (.retryNow, t) :: between →
    (∀ a ∈ between, a.1 ≠ .pauseReconnect) → ∃ t', m.lastRetry = some t' ∧ t ≤ t'
  spaced : Spaced debounce actions

theorem merged_new (debounce : Duration) (online : Bool) :
    Merged debounce online [] (withDebounce online debounce) [] where
  debounce_eq := rfl
  settled _ := rfl
  told_eq := rfl
  fed _ h := nomatch h
  last before t between h _ := by simp at h
  spaced before t₁ between t₂ after h _ := by simp at h

theorem concat_eq_split {α : Type} {xs before after : List α} {x a : α}
    (h : xs ++ [x] = before ++ a :: after) :
    (after = [] ∧ xs = before ∧ x = a) ∨
      ∃ after', after = after' ++ [x] ∧ xs = before ++ a :: after' := by
  rcases List.eq_nil_or_concat after with rfl | ⟨after', last, rfl⟩
  · obtain ⟨hinit, hlast⟩ := List.append_inj' h rfl
    exact .inl ⟨rfl, hinit, List.cons.inj hlast |>.1⟩
  · rw [List.concat_eq_append, ← List.cons_append, ← List.append_assoc] at h
    obtain ⟨hinit, hlast⟩ := List.append_inj' h rfl
    obtain rfl := (List.cons.inj hlast).1
    exact .inr ⟨after', List.concat_eq_append, hinit⟩

variable {debounce : Duration} {online : Bool} {inputs : List (Trigger × Instant)}
  {m : TriggerMerger} {actions : List (TriggerAction × Instant)}

theorem Merged.pause (h : Merged debounce online inputs m actions) (trigger : Trigger) (now : Instant) :
    Merged debounce online (inputs ++ [(trigger, now)]) { m with online := false, lastRetry := none }
      (actions ++ [(.pauseReconnect, now)]) where
  debounce_eq := h.debounce_eq
  settled _ := rfl
  told_eq := by simp [told, TriggerAction.online]
  fed _ ht := nomatch ht
  last before t between hsplit hbetween := by
    rcases concat_eq_split hsplit with ⟨-, -, heq⟩ | ⟨between', rfl, -⟩
    · cases heq
    · exact absurd rfl (hbetween _ List.mem_concat_self)
  spaced before t₁ between t₂ after hsplit hbetween := by
    rcases concat_eq_split hsplit with ⟨hnil, -⟩ | ⟨rest, hrest, hactions⟩
    · simp at hnil
    · rcases concat_eq_split hrest.symm with ⟨-, -, heq⟩ | ⟨after', -, hrest'⟩
      · cases heq
      · exact h.spaced before t₁ between t₂ after' (hrest' ▸ hactions) hbetween

theorem Merged.retried (h : Merged debounce online inputs m actions) (trigger : Trigger) {now : Instant}
    (htimes : ∀ input ∈ inputs, input.2 ≤ now)
    (hlate : ∀ t, m.lastRetry = some t → m.debounce ≤ now - t) :
    Merged debounce online (inputs ++ [(trigger, now)]) { m with online := true, lastRetry := some now }
      (actions ++ [(.retryNow, now)]) := by
  have hbefore : ∀ before t between, actions = before ++ (.retryNow, t) :: between →
      (∀ a ∈ between, a.1 ≠ .pauseReconnect) → t + debounce ≤ now := by
    intro before t between hsplit hbetween
    obtain ⟨t', hlast, hle⟩ := h.last before t between hsplit hbetween
    obtain ⟨input, hinput, htime⟩ := h.fed t' hlast
    have hgap := hlate t' hlast
    have hnow := htimes input hinput
    rw [h.debounce_eq] at hgap
    calc t + debounce ≤ t' + debounce := Nat.add_le_add_right hle debounce
      _ ≤ t' + (now - t') := Nat.add_le_add_left hgap t'
      _ = now := Nat.add_sub_cancel' (htime ▸ hnow)
  constructor
  case debounce_eq => exact h.debounce_eq
  case settled => exact nofun
  case told_eq => simp [told, TriggerAction.online]
  case fed =>
    intro t ht
    exact ⟨(trigger, now), List.mem_concat_self, Option.some.inj ht⟩
  case last =>
    intro before t between hsplit hbetween
    refine ⟨now, rfl, ?_⟩
    rcases concat_eq_split hsplit with ⟨-, -, heq⟩ | ⟨between', rfl, hactions⟩
    · exact (Prod.mk.inj heq).2.ge
    · exact Nat.le_of_add_right_le (hbefore before t between' hactions fun a ha =>
        hbetween a (List.mem_append_left _ ha))
  case spaced =>
    intro before t₁ between t₂ after hsplit hbetween
    rcases concat_eq_split hsplit with ⟨hnil, -⟩ | ⟨rest, hrest, hactions⟩
    · simp at hnil
    · rcases concat_eq_split hrest.symm with ⟨-, rfl, heq⟩ | ⟨after', -, rfl⟩
      · obtain rfl := (Prod.mk.inj heq).2
        exact hbefore before t₁ rest hactions hbetween
      · exact h.spaced before t₁ between t₂ after' hactions hbetween

theorem Merged.quiet (h : Merged debounce online inputs m actions) (input : Trigger × Instant) :
    Merged debounce online (inputs ++ [input]) m actions :=
  { h with
    fed := fun t ht => by
      obtain ⟨fed, hfed, htime⟩ := h.fed t ht
      exact ⟨fed, List.mem_append_left _ hfed, htime⟩ }

theorem Merged.step (h : Merged debounce online inputs m actions) {input : Trigger × Instant}
    (htimes : ∀ before ∈ inputs, before.2 ≤ input.2) :
    Merged debounce online (inputs ++ [input]) (m.step input).1 (actions ++ (m.step input).2) := by
  obtain ⟨trigger, now⟩ := input
  unfold TriggerMerger.step
  rcases onTrigger_cases h.settled trigger now with heq | heq | ⟨heq, hlate⟩
  · rw [heq]
    simpa using h.quiet (trigger, now)
  · rw [heq]
    exact h.pause trigger now
  · rw [heq]
    exact h.retried trigger htimes hlate

theorem merged_run (debounce : Duration) (online : Bool) {inputs : List (Trigger × Instant)}
    (htimes : inputs.Pairwise (·.2 ≤ ·.2)) :
    let run := Transition.run step (withDebounce online debounce) inputs
    Merged debounce online inputs run.1 run.2 := by
  induction inputs using List.reverseRecOn with
  | nil => exact merged_new debounce online
  | append_singleton inputs input ih =>
      obtain ⟨hinit, -, hlast⟩ := List.pairwise_append.mp htimes
      simp only [Transition.run_concat]
      exact (ih hinit).step fun before hbefore => hlast before hbefore input List.mem_cons_self

end TriggerMerger

namespace App

open Rdp TriggerMerger

variable {Geometry : Type}

def heard (online : Bool) : SessionCommand Geometry → Bool
  | .networkReachable reachable => reachable
  | _ => online

theorem received_append (window : String) (sent sent' : List (String × SessionCommand Geometry)) :
    received window (sent ++ sent') = received window sent ++ received window sent' := by
  simp [received]

theorem received_map (window target : String) (commands : List (SessionCommand Geometry)) :
    received window (commands.map (target, ·)) = if target = window then commands else [] := by
  unfold received
  by_cases heq : target = window
  · rw [List.filter_eq_self.mpr (by simpa using fun _ _ => heq), List.map_map, if_pos heq]
    exact List.map_id commands
  · rw [List.filter_eq_nil_iff.mpr (by simpa using fun _ _ => heq), if_neg heq, List.map_nil]

theorem received_applyTrigger (window : String) (action : TriggerAction) {live : List (String × Bool)} :
    (live.map Prod.fst).count window = 1 →
      ∃ reconnecting, (received window (applyTrigger live action) : List (SessionCommand Geometry)) =
        triggerCommands action reconnecting := by
  have hgone : ∀ live : List (String × Bool), window ∉ live.map Prod.fst →
      (received window (applyTrigger live action) : List (SessionCommand Geometry)) = [] := by
    intro live hnot
    induction live with
    | nil => rfl
    | cons session live ih =>
        rw [List.map_cons, List.mem_cons, not_or] at hnot
        obtain ⟨hfirst, hrest⟩ := hnot
        rw [applyTrigger, List.flatMap_cons, received_append, received_map, if_neg (Ne.symm hfirst)]
        exact ih hrest
  intro hcount
  induction live with
  | nil => simp at hcount
  | cons session live ih =>
      rw [applyTrigger, List.flatMap_cons, received_append, received_map]
      by_cases heq : session.1 = window
      · have hrest : window ∉ live.map Prod.fst := by
          rw [List.map_cons, heq, List.count_cons_self] at hcount
          exact List.count_eq_zero.mp (Nat.succ.inj hcount)
        refine ⟨session.2, ?_⟩
        rw [if_pos heq]
        exact (congrArg _ (hgone live hrest)).trans (List.append_nil _)
      · rw [if_neg heq, List.nil_append]
        rw [List.map_cons, List.count_cons_of_ne heq] at hcount
        exact ih hcount

/-- What a session gets for an action, among some live ones. -/
def Delivered (window : String) (a : TriggerAction × Instant) (commands : List (SessionCommand Geometry)) :
    Prop :=
  ∃ live : List (String × Bool), (live.map Prod.fst).count window = 1 ∧
    commands = received window (applyTrigger live a.1)

/-- A session is told of an action whether or not it waits out a backoff. -/
theorem foldl_heard (window : String) (online : Bool) {actions : List (TriggerAction × Instant)}
    {commands : List (List (SessionCommand Geometry))}
    (h : List.Forall₂ (Delivered window) actions commands) :
    commands.flatten.foldl heard online = told online actions := by
  induction h generalizing online with
  | nil => rfl
  | @cons a cmds actions commands hfirst _ ih =>
      obtain ⟨live, hlive, rfl⟩ := hfirst
      obtain ⟨reconnecting, heq⟩ := @received_applyTrigger Geometry window a.1 live hlive
      have hone : (triggerCommands a.1 reconnecting : List (SessionCommand Geometry)).foldl heard online =
          a.1.online := by
        cases a.1 <;> cases reconnecting <;> rfl
      rw [List.flatten_cons, List.foldl_append, heq, hone, ih]
      rfl

/-- **Merged triggers agree with the network.** At the end of a run the merger is online when the network
is there, and the actions tell so to their reader and to a session that gets the commands of all of them;
the return of the network is a retry; and retries in a row are apart. -/
theorem triggers_merged (debounce : Duration) (online : Bool) (inputs : List (Trigger × Instant))
    (htimes : inputs.Pairwise (·.2 ≤ ·.2)) :
    let run := Transition.run step (withDebounce online debounce) inputs
    run.1.isOnline = reachable online (inputs.map Prod.fst) ∧
      told online run.2 = run.1.isOnline ∧
      (∀ (window : String) (commands : List (List (SessionCommand Geometry))),
        List.Forall₂ (Delivered window) run.2 commands →
          commands.flatten.foldl heard online = run.1.isOnline) ∧
      (∀ before trigger now after, inputs = before ++ (trigger, now) :: after →
        let m := (Transition.run step (withDebounce online debounce) before).1
        m.isOnline = false → (m.onTrigger trigger now).1.isOnline = true →
          (m.onTrigger trigger now).2 = some .retryNow) ∧
      (∀ before now after, inputs = before ++ (.networkOnline, now) :: after →
        reachable online (before.map Prod.fst) = false →
          ((Transition.run step (withDebounce online debounce) before).1.onTrigger .networkOnline now).2 =
            some .retryNow) ∧
      Spaced debounce run.2 := by
  intro run
  have hmerged : Merged debounce online inputs run.1 run.2 := merged_run debounce online htimes
  have hreturns : ∀ before trigger now after, inputs = before ++ (trigger, now) :: after →
      let m := (Transition.run step (withDebounce online debounce) before).1
      m.isOnline = false → (m.onTrigger trigger now).1.isOnline = true →
        (m.onTrigger trigger now).2 = some .retryNow := by
    intro before trigger now after hinputs m hoffline honline
    have hbefore : before.Pairwise (·.2 ≤ ·.2) :=
      (List.pairwise_append.mp (hinputs ▸ htimes)).1
    rcases onTrigger_cases (merged_run debounce online hbefore).settled trigger now with
      heq | heq | ⟨heq, -⟩
    · rw [heq] at honline
      exact absurd (hoffline.symm.trans honline) Bool.false_ne_true
    · rw [heq] at honline
      exact absurd honline Bool.false_ne_true
    · rw [heq]
  refine ⟨isOnline_run debounce online inputs, hmerged.told_eq, fun window commands hcommands => ?_,
    hreturns, fun before now after hinputs hdown => ?_, hmerged.spaced⟩
  · rw [foldl_heard window online hcommands]
    exact hmerged.told_eq
  · refine hreturns before .networkOnline now after hinputs ?_ (isOnline_onTrigger _ _ _)
    rw [isOnline_run]
    exact hdown

/-- A wake, an outage right after it, the return of the network within the debounce window, and a wake
again. -/
def outage : List (Trigger × Instant) :=
  [(.wake, 0), (.networkOffline, 1), (.networkOnline, 2), (.wake, 3)]

theorem triggers_merged_outage :
    let run := Transition.run step (.new true) outage
    run.1.isOnline = reachable true (outage.map Prod.fst) ∧ told true run.2 = run.1.isOnline ∧
      ([[.networkReachable true], [.networkReachable false], [.networkReachable true, .reconnectNow]] :
        List (List (SessionCommand Nat))).flatten.foldl heard true = run.1.isOnline ∧
      ((Transition.run step (.new true) (outage.take 2)).1.onTrigger .networkOnline 2).2 = some .retryNow ∧
      Spaced defaultDebounce run.2 := by
  intro run
  obtain ⟨hfollows, htold, hheard, -, hreturns, hspaced⟩ :=
    @triggers_merged Nat defaultDebounce true outage (by decide)
  refine ⟨hfollows, htold, hheard "w" _ ?_, hreturns (outage.take 2) 2 [(.wake, 3)] rfl rfl, hspaced⟩
  have hdelivered : ∀ (action : TriggerAction) (now : Instant) (reconnecting : Bool),
      Delivered "w" (action, now) (triggerCommands action reconnecting : List (SessionCommand Nat)) := by
    intro action now reconnecting
    refine ⟨[("w", reconnecting)], rfl, ?_⟩
    cases action <;> cases reconnecting <;> rfl
  exact .cons (hdelivered .retryNow 0 false) (.cons (hdelivered .pauseReconnect 1 false)
    (.cons (hdelivered .retryNow 2 true) .nil))

end App

end Drift
