import Mathlib.Data.List.Induction
import Mathlib.Data.List.Perm.Basic
import Mathlib.Data.List.TakeWhile
import Drift.Lib.Depth
import Drift.Lib.Fair
import Drift.Render.Proof.Inflight
import Drift.Render.Thread

/-!
# The render thread loses nothing

The commands reach the compositor in the order they were sent (`order_step`), a callback that is not held by
a message or a command buffer has run, and once (`account_step`), and whatever is queued or in flight gets
ahead with every turn and every completion (`progress`).
-/

namespace Drift.Render

open Transition Queue Drift.Gfx

/-- A callback runs when it is called as it does when it is dropped, and only once. -/
theorem CallOnDrop.call_eq_drop (callback : CallOnDrop) : callback.call = callback.drop := List.append_nil _

namespace Msg

def number? (msg : Msg) : Option Nat := msg.command?.map Prod.snd

@[simp]
theorem command?_ofCommand (number : Nat) (command : Command) :
    (ofCommand number command).command? = some (command, number) := by
  unfold ofCommand
  split
  · next frameId hframe =>
      cases command with
      | sink made => cases made <;> simp_all [Command.frame?, command?]
      | _ => simp [Command.frame?] at hframe
  · rfl

/-- A message that runs the callback of its frame when it is dropped. -/
def Made (msg : Msg) : Prop :=
  msg.drop = (RenderThread.frames msg.command?.toList).map .presented

theorem made_ofCommand (number : Nat) (command : Command) : (ofCommand number command).Made := by
  unfold Made
  rw [command?_ofCommand]
  unfold ofCommand RenderThread.frames
  split
  · next frameId hframe => simp [hframe, drop, CallOnDrop.drop, CallOnDrop.new]
  · next hframe => simp [hframe, drop]

end Msg

namespace RenderThread

variable {g : Gpu} {t : RenderThread}

/-! ### Signals and frames -/

theorem presented_append (seen later : List Seen) :
    presented (seen ++ later) = presented seen ++ presented later := List.filterMap_append

theorem executed_append (seen later : List Seen) :
    executed (seen ++ later) = executed seen ++ executed later := List.filterMap_append

theorem frames_append (made later : List (Command × Nat)) :
    frames (made ++ later) = frames made ++ frames later := by
  simp [frames]

theorem executed_signals (signals : List Signal) : executed (signals.map .signal) = [] := by
  simp [executed, List.filterMap_map]

theorem presented_callbacks (callbacks : List Nat) :
    presented ((callbacks.map Signal.presented).map .signal) = callbacks := by
  simp [presented, List.filterMap_map, Function.comp_def]

theorem presented_run (completion : Completion) :
    presented (completion.run.map .signal) = [completion.presented] := by
  unfold Completion.run presented
  cases completion.delivery <;> rfl

theorem mem_frames {made : List (Command × Nat)} {number : Nat} (h : number ∈ frames made) :
    ∃ command, (command, number) ∈ made := by
  unfold frames at h
  obtain ⟨⟨command, _⟩, hmem, rfl⟩ := List.mem_map.mp h
  exact ⟨command, List.mem_of_mem_filter hmem⟩

/-! ### What a step does -/

/-- The callbacks that the command buffers in flight hold. -/
def inflight (t : RenderThread) : List Nat :=
  t.sink.device.inflight.filterMap (·.map (·.presented))

/-- A command is executed: if it ends a frame, then its callback runs or goes with a command buffer. -/
theorem execute_cases (c : Compositor) (number : Nat) (command : Command) :
    (execute g c number command).1.device.inflight = c.device.inflight ∧
        presented ((execute g c number command).2.map .signal) = frames [(command, number)] ∨
      ∃ completion : Completion, completion.presented = number ∧
        frames [(command, number)] = [number] ∧
        (execute g c number command).1.device.inflight = c.device.inflight ++ [some completion] ∧
        (execute g c number command).2 = [] := by
  cases command with
  | sink made =>
      by_cases hends : ∃ frameId, made = .endFrame frameId
      · obtain ⟨frameId, rfl⟩ := hends
        obtain ⟨completion, rfl, hcommitted | hruns⟩ :=
          Compositor.endFrame_cases (g := g) (c := c) frameId number
        · exact .inr ⟨completion, rfl, rfl, hcommitted⟩
        · refine .inl ⟨hruns.1, ?_⟩
          have hsignals : (execute g c completion.presented (.sink (.endFrame frameId))).2 =
              completion.run := hruns.2
          rw [hsignals, presented_run]
          rfl
      · have hplain : ∀ frameId, made ≠ .endFrame frameId := fun frameId heq =>
          hends ⟨frameId, heq⟩
        have hframe : Command.frame? (.sink made) = none := by
          cases made with
          | endFrame frameId => exact absurd rfl (hplain frameId)
          | _ => rfl
        obtain ⟨hsame, hsignals⟩ := Compositor.inflight_call (g := g) (c := c) hplain number
        refine .inl ⟨hsame, ?_⟩
        unfold execute
        simp only [hsignals]
        simp [frames, hframe, presented]
  | startRecording slots => exact .inl ⟨rfl, rfl⟩
  | stopRecording => exact .inl ⟨rfl, rfl⟩

/-- What a turn does. -/
inductive Turns (g : Gpu) (t : RenderThread) : RenderThread × List Seen → Prop
  | idle (h : t.phase = .running ∧ t.queue = [] ∨ t.phase = .stopped) : Turns g t (t, [])
  | executes {msg : Msg} {queue : List Msg} {command : Command} {number : Nat}
      (hphase : t.phase = .running) (hqueue : t.queue = msg :: queue)
      (hmsg : msg.command? = some (command, number)) :
      Turns g t ({ t with queue := queue, sink := (execute g t.sink number command).1 },
        .executed command number :: (execute g t.sink number command).2.map .signal)
  | closes {msg : Msg} {queue : List Msg} (hphase : t.phase = .running)
      (hqueue : t.queue = msg :: queue) (hmsg : msg.command? = none) :
      Turns g t ({ t with queue := queue, phase := .stopping }, [])
  | drops (hphase : t.phase = .stopping) :
      Turns g t ({ t with sink := (t.sink.drop g).1, phase := .dropped },
        (t.sink.drop g).2.map .signal)
  | ends (hphase : t.phase = .dropped) :
      Turns g t ({ t with queue := [], phase := .stopped },
        (t.queue.flatMap Msg.drop).map .signal)

theorem turn_cases (g : Gpu) (t : RenderThread) : Turns g t (t.turn g) := by
  unfold turn
  split
  · next hphase =>
      split
      · next hqueue => exact .idle (.inl ⟨hphase, hqueue⟩)
      · next hqueue => exact .executes hphase hqueue rfl
      · next hqueue => exact .executes hphase hqueue rfl
      · next hqueue => exact .closes hphase hqueue rfl
  · next hphase => exact .drops hphase
  · next hphase => exact .ends hphase
  · next hphase => exact .idle (.inr hphase)

/-- A message that is sent is queued, or dropped once the receiver is gone. -/
theorem send_cases (t : RenderThread) (msg : Msg) :
    t.phase = .stopped ∧ t.send msg = (t, msg.drop.map .signal) ∨
      t.phase ≠ .stopped ∧ t.send msg = ({ t with queue := t.queue ++ [msg] }, []) := by
  unfold send
  by_cases hstopped : t.phase = .stopped
  · exact .inl ⟨hstopped, if_pos hstopped⟩
  · exact .inr ⟨hstopped, if_neg hstopped⟩

/-- A command buffer is taken out of flight, and the callback it holds runs. -/
theorem settle_cases (t : RenderThread) (index : Nat) {i : Input}
    (hi : i = .completed index ∨ i = .abandoned index) :
    ∃ sink : Compositor, ∃ signals : List Signal,
      step g t i = ({ t with sink := sink }, signals.map .signal) ∧
        sink.device.inflight = t.sink.device.inflight.eraseIdx index ∧
        presented (signals.map .signal) =
          (t.sink.device.inflight[index]?.bind (·.map (·.presented))).toList := by
  have hgone : t.sink.device.inflight[index]? = none →
      t.sink.device.inflight.eraseIdx index = t.sink.device.inflight := fun hnone =>
    List.eraseIdx_of_length_le (List.getElem?_eq_none_iff.mp hnone)
  rcases hi with rfl | rfl
  · refine ⟨_, _, rfl, ?_⟩
    simp only
    cases hat : t.sink.device.inflight[index]? with
    | none => exact ⟨(hgone hat).symm, rfl⟩
    | some onComplete =>
        cases onComplete with
        | none => exact ⟨rfl, rfl⟩
        | some completion => exact ⟨rfl, presented_run completion⟩
  · refine ⟨_, _, rfl, ?_⟩
    simp only
    cases hat : t.sink.device.inflight[index]? with
    | none => exact ⟨(hgone hat).symm, rfl⟩
    | some onComplete => cases onComplete <;> exact ⟨rfl, rfl⟩

/-! ### Callbacks -/

/-- The command that an input sends, with its number. -/
def arrival (t : RenderThread) : Input → List (Command × Nat)
  | .sent command => [(command, t.sent)]
  | .shutdown | .turn | .completed _ | .abandoned _ => []

/-- Every message in the queue runs its callback when it is dropped. -/
def AllMade (t : RenderThread) : Prop := ∀ msg ∈ t.queue, msg.Made

theorem allMade_step (h : t.AllMade) (i : Input) : (step g t i).1.AllMade := by
  have hsend : ∀ (t : RenderThread) (msg : Msg), t.AllMade → msg.Made → (t.send msg).1.AllMade := by
    intro t msg ht hmsg
    rcases t.send_cases msg with ⟨-, heq⟩ | ⟨-, heq⟩
    · rwa [heq]
    · rw [heq]
      intro m hm
      rcases List.mem_append.mp hm with hm | hm
      · exact ht m hm
      · rwa [List.mem_singleton.mp hm]
  have hrest : ∀ {msg : Msg} {queue : List Msg}, t.queue = msg :: queue → ∀ m ∈ queue, m.Made :=
    fun hqueue m hm => h m (hqueue ▸ List.mem_cons_of_mem _ hm)
  cases i with
  | sent command => exact hsend _ _ h (Msg.made_ofCommand _ _)
  | shutdown => exact hsend _ _ h rfl
  | turn =>
      have hcases := t.turn_cases g
      show (t.turn g).1.AllMade
      generalize t.turn g = turned at hcases ⊢
      cases hcases with
      | idle _ => exact h
      | executes _ hqueue _ => exact hrest hqueue
      | closes _ hqueue _ => exact hrest hqueue
      | drops _ => exact h
      | ends _ => exact fun m hm => absurd hm (List.not_mem_nil)
  | completed index => exact h
  | abandoned index => exact h

theorem held_eq (t : RenderThread) :
    t.held = frames (t.queue.filterMap Msg.command?) ++ t.inflight := rfl

theorem presented_dropped {queue : List Msg} (h : ∀ msg ∈ queue, msg.Made) :
    presented ((queue.flatMap Msg.drop).map .signal) = frames (queue.filterMap Msg.command?) := by
  induction queue with
  | nil => rfl
  | cons msg queue ih =>
      have hfirst : msg.drop = (frames msg.command?.toList).map .presented :=
        h msg List.mem_cons_self
      have hrest := ih fun m hm => h m (List.mem_cons_of_mem msg hm)
      have hcommands : (msg :: queue).filterMap Msg.command? =
          msg.command?.toList ++ queue.filterMap Msg.command? := by
        rw [List.filterMap_cons]
        cases msg.command? <;> rfl
      rw [List.flatMap_cons, List.map_append, presented_append, hrest, hfirst, presented_callbacks,
        hcommands, frames_append]

/-- **Step lemma for the callbacks.** Those that were held and the one that comes in are held, or run. -/
theorem account_step (h : t.AllMade) (i : Input) :
    (presented (step g t i).2 ++ (step g t i).1.held).Perm (t.held ++ frames (t.arrival i)) := by
  have hsend : ∀ (t : RenderThread) (msg : Msg), msg.Made →
      (presented (t.send msg).2 ++ (t.send msg).1.held).Perm
        (t.held ++ frames msg.command?.toList) := by
    intro t msg hmsg
    rcases t.send_cases msg with ⟨-, heq⟩ | ⟨-, heq⟩
    · rw [heq, hmsg, presented_callbacks]
      exact List.perm_append_comm
    · have hlast : [msg].filterMap Msg.command? = msg.command?.toList := by
        cases hcommand : msg.command? <;> simp [hcommand]
      rw [heq]
      simp only [held_eq, List.filterMap_append, frames_append, hlast, List.append_assoc]
      refine List.Perm.append_left (frames (t.queue.filterMap Msg.command?)) ?_
      exact List.perm_append_comm
  have hsettle : ∀ index, i = .completed index ∨ i = .abandoned index → t.arrival i = [] →
      (presented (step g t i).2 ++ (step g t i).1.held).Perm
        (t.held ++ frames (t.arrival i)) := by
    intro index hi hnone
    obtain ⟨sink, signals, heq, hinflight, hpresented⟩ := t.settle_cases (g := g) index hi
    rw [heq, hnone]
    simp only [held_eq, inflight, hinflight, hpresented]
    cases hat : t.sink.device.inflight[index]? with
    | none =>
        rw [List.eraseIdx_of_length_le (List.getElem?_eq_none_iff.mp hat)]
        simp [frames]
    | some onComplete =>
        obtain ⟨hlt, hget⟩ := List.getElem?_eq_some_iff.mp hat
        have hperm := (List.getElem_cons_eraseIdx_perm hlt).filterMap
          fun o : Option Completion => o.map (·.presented)
        have htaken : (Option.bind (some onComplete) fun o => o.map (·.presented)).toList ++
            (t.sink.device.inflight.eraseIdx index).filterMap (·.map (·.presented)) =
              (t.sink.device.inflight[index] :: t.sink.device.inflight.eraseIdx index).filterMap
                (·.map (·.presented)) := by
          rw [hget, List.filterMap_cons]
          cases onComplete <;> rfl
        have hback := List.perm_append_comm_assoc
          (Option.bind (some onComplete) fun o => o.map (·.presented)).toList
          (frames (t.queue.filterMap Msg.command?))
          ((t.sink.device.inflight.eraseIdx index).filterMap (·.map (·.presented)))
        refine hback.trans ?_
        rw [htaken]
        simpa [frames] using hperm.append_left (frames (t.queue.filterMap Msg.command?))
  cases i with
  | sent command =>
      have hsent := hsend { t with sent := t.sent + 1 } (.ofCommand t.sent command)
        (Msg.made_ofCommand _ _)
      rwa [Msg.command?_ofCommand] at hsent
  | shutdown => exact hsend t .shutdown rfl
  | turn =>
      show (presented (t.turn g).2 ++ (t.turn g).1.held).Perm (t.held ++ frames [])
      have hnone : frames [] = [] := rfl
      have hcases := t.turn_cases g
      rw [hnone, List.append_nil]
      generalize t.turn g = turned at hcases ⊢
      cases hcases with
      | idle _ => exact .refl _
      | @executes msg queue command number _ hqueue hmsg =>
          have hheld : t.held = frames [(command, number)] ++
              frames (queue.filterMap Msg.command?) ++ t.inflight := by
            rw [held_eq, hqueue, List.filterMap_cons_some hmsg, ← frames_append]
            rfl
          have hseen : presented (.executed command number ::
              (execute g t.sink number command).2.map .signal) =
                presented ((execute g t.sink number command).2.map .signal) := rfl
          rw [hheld, hseen, held_eq]
          rcases execute_cases (g := g) t.sink number command with ⟨hsame, hruns⟩ |
              ⟨completion, rfl, hframe, hcommitted, hsilent⟩
          · simp only [inflight, hsame, hruns, List.append_assoc]
            exact .refl _
          · simp only [inflight, hcommitted, hsilent, hframe, List.filterMap_append,
              List.append_assoc]
            have hmoves := List.perm_append_comm_assoc [completion.presented]
              (frames (queue.filterMap Msg.command?))
              (t.sink.device.inflight.filterMap (·.map (·.presented)))
            refine List.Perm.trans ?_ hmoves.symm
            refine List.Perm.append_left (frames (queue.filterMap Msg.command?)) ?_
            exact List.perm_append_comm
      | closes _ hqueue hmsg =>
          rw [held_eq, held_eq, hqueue, List.filterMap_cons_none hmsg]
          exact .refl _
      | drops _ =>
          obtain ⟨hsilent, hsame | hadded⟩ := Compositor.drop_cases (g := g) (c := t.sink)
          · simp only [held_eq, inflight, hsilent, hsame]
            exact .refl _
          · simp only [held_eq, inflight, hsilent, hadded, List.filterMap_append]
            simp [presented]
      | ends _ =>
          rw [presented_dropped h]
          exact .refl _
  | completed index => exact hsettle index (.inl rfl) rfl
  | abandoned index => exact hsettle index (.inr rfl) rfl

theorem allMade_run (inputs : List Input) : (run (step g) new inputs).1.AllMade :=
  run_invariant AllMade (fun _ i h => allMade_step h i)
    (fun _ hmsg => absurd hmsg List.not_mem_nil) inputs

/-! ### Commands -/

def Input.command? : Input → Option Command
  | .sent command => some command
  | .shutdown | .turn | .completed _ | .abandoned _ => none

theorem commands_concat (is : List Input) (i : Input) :
    commands (is ++ [i]) = commands is ++ i.command?.toList.map (·, (commands is).length) := by
  have heq : ∀ is : List Input, commands is = (is.filterMap Input.command?).zipIdx := by
    intro is
    unfold commands
    congr 2
    funext i
    cases i <;> rfl
  rw [heq, heq, List.filterMap_append, List.zipIdx_append, List.length_zipIdx, Nat.zero_add]
  cases i <;> rfl

theorem sent_step (t : RenderThread) (i : Input) :
    (step g t i).1.sent = t.sent + i.command?.toList.length := by
  have hsend : ∀ (t : RenderThread) (msg : Msg), (t.send msg).1.sent = t.sent := by
    intro t msg
    rcases t.send_cases msg with ⟨-, heq⟩ | ⟨-, heq⟩ <;> rw [heq]
  cases i with
  | sent command => exact hsend _ _
  | shutdown => exact hsend _ _
  | turn =>
      have hcases := t.turn_cases g
      show (t.turn g).1.sent = t.sent
      generalize t.turn g = turned at hcases ⊢
      cases hcases <;> rfl
  | completed index => rfl
  | abandoned index => rfl

theorem sent_run (inputs : List Input) :
    (run (step g) new inputs).1.sent = (commands inputs).length := by
  induction inputs using List.reverseRecOn with
  | nil => rfl
  | append_singleton inputs i ih =>
      rw [run_concat, commands_concat, sent_step, ih, List.length_append, List.length_map]

theorem arrival_run (inputs : List Input) (i : Input) :
    commands (inputs ++ [i]) = commands inputs ++ (run (step g) new inputs).1.arrival i := by
  rw [commands_concat, ← sent_run (g := g)]
  cases i <;> rfl

/-- **Run lemma for the callbacks.** -/
theorem account_run (inputs : List Input) :
    (presented (run (step g) new inputs).2 ++ (run (step g) new inputs).1.held).Perm
      (frames (commands inputs)) := by
  induction inputs using List.reverseRecOn with
  | nil => exact .refl _
  | append_singleton inputs i ih =>
      have hstep := account_step (g := g) (allMade_run (g := g) inputs) i
      rw [run_concat, arrival_run (g := g), frames_append, presented_append, List.append_assoc]
      refine (hstep.append_left _).trans ?_
      rw [← List.append_assoc]
      exact ih.append_right _

/-! ### Order -/

/-- The commands in the queue that will be executed. -/
def waiting (t : RenderThread) : List (Command × Nat) :=
  if t.phase = .running then (t.queue.takeWhile (·.command?.isSome)).filterMap Msg.command? else []

def Closed (t : RenderThread) : Prop := t.phase ≠ .running ∨ ∃ msg ∈ t.queue, msg.command? = none

/-- The commands that are executed, and those that will be, with one step. -/
structure Orders (t : RenderThread) (i : Input) (result : RenderThread × List Seen) : Prop where
  closed : result.1.Closed ↔ t.Closed ∨ i = .shutdown
  opened : ¬ t.Closed → executed result.2 ++ result.1.waiting = t.waiting ++ t.arrival i
  shut : t.Closed → executed result.2 ++ result.1.waiting = t.waiting

theorem waiting_of_running (h : t.phase = .running) :
    t.waiting = (t.queue.takeWhile (·.command?.isSome)).filterMap Msg.command? := if_pos h

theorem waiting_of_not_running (h : t.phase ≠ .running) : t.waiting = [] := if_neg h

/-- A message that is sent comes after what is queued, and after a shutdown it does not count. -/
theorem orders_send (t : RenderThread) (msg : Msg) :
    ((t.send msg).1.Closed ↔ t.Closed ∨ msg.command? = none) ∧
      executed (t.send msg).2 = [] ∧
      (¬ t.Closed → (t.send msg).1.waiting = t.waiting ++ msg.command?.toList) ∧
      (t.Closed → (t.send msg).1.waiting = t.waiting) := by
  rcases t.send_cases msg with ⟨hstopped, heq⟩ | ⟨-, heq⟩
  · have hnot : t.phase ≠ .running := by
      rw [hstopped]
      nofun
    rw [heq]
    exact ⟨iff_of_true (.inl hnot) (.inl (.inl hnot)), executed_signals _,
      fun hopen => absurd (.inl hnot) hopen, fun _ => rfl⟩
  · rw [heq]
    refine ⟨?_, rfl, fun hopen => ?_, fun hclosed => ?_⟩
    · unfold Closed
      simp [or_assoc, or_and_right, exists_or]
    · obtain ⟨hrunning, hqueue⟩ : t.phase = .running ∧ ∀ m ∈ t.queue, m.command?.isSome := by
        unfold Closed at hopen
        grind [Option.isSome_iff_ne_none]
      have hall : t.queue.takeWhile (·.command?.isSome) = t.queue :=
        List.takeWhile_eq_self_iff.mpr hqueue
      rw [waiting_of_running (t := { t with queue := t.queue ++ [msg] }) hrunning,
        waiting_of_running hrunning, hall, List.takeWhile_append_of_pos hqueue, List.filterMap_append]
      cases hcommand : msg.command? <;> simp [hcommand]
    · by_cases hrunning : t.phase = .running
      · obtain ⟨m, hm, hnone⟩ : ∃ m ∈ t.queue, m.command? = none := by
          rcases hclosed with hnot | hshut
          · exact absurd hrunning hnot
          · exact hshut
        have hshort : (t.queue.takeWhile (·.command?.isSome)).length ≠ t.queue.length := by
          intro hlength
          have hself := (List.takeWhile_prefix fun m : Msg => m.command?.isSome).eq_of_length
            hlength
          have hsome := List.takeWhile_eq_self_iff.mp hself m hm
          simp [hnone] at hsome
        rw [waiting_of_running (t := { t with queue := t.queue ++ [msg] }) hrunning,
          waiting_of_running hrunning, List.takeWhile_append, if_neg hshort]
      · rw [waiting_of_not_running hrunning]
        exact waiting_of_not_running hrunning

/-- **Step lemma for the order.** -/
theorem order_step (t : RenderThread) (i : Input) : Orders t i (step g t i) := by
  have hsettle : ∀ index, i = .completed index ∨ i = .abandoned index → t.arrival i = [] →
      i ≠ .shutdown → Orders t i (step g t i) := by
    intro index hi hnone hne
    obtain ⟨sink, signals, heq, -, -⟩ := t.settle_cases (g := g) index hi
    have hsame : executed (signals.map Seen.signal) ++ t.waiting = t.waiting := by
      rw [executed_signals, List.nil_append]
    rw [heq]
    refine ⟨(or_iff_left hne).symm, fun _ => ?_, fun _ => hsame⟩
    rw [hnone, List.append_nil]
    exact hsame
  cases i with
  | sent command =>
      obtain ⟨hclosed, hsilent, hopened, hshut⟩ :=
        orders_send { t with sent := t.sent + 1 } (.ofCommand t.sent command)
      rw [Msg.command?_ofCommand] at hclosed hopened
      refine ⟨hclosed.trans (or_congr_right (iff_of_false nofun nofun)), fun hopen => ?_,
        fun hclosed => ?_⟩
      · show executed (send _ _).2 ++ _ = _
        rw [hsilent]
        exact hopened hopen
      · show executed (send _ _).2 ++ _ = _
        rw [hsilent]
        exact hshut hclosed
  | shutdown =>
      obtain ⟨hclosed, hsilent, hopened, hshut⟩ := orders_send t .shutdown
      refine ⟨hclosed.trans (or_congr_right (iff_of_true rfl rfl)), fun hopen => ?_,
        fun hclosed => ?_⟩
      · show executed (t.send .shutdown).2 ++ _ = _
        rw [hsilent]
        exact hopened hopen
      · show executed (t.send .shutdown).2 ++ _ = _
        rw [hsilent]
        exact hshut hclosed
  | turn =>
      have hcases := t.turn_cases g
      show Orders t .turn (t.turn g)
      generalize t.turn g = turned at hcases ⊢
      -- Nothing comes in: it is enough that the waiting commands are executed or go on to wait.
      have hreduce : (turned.1.Closed ↔ t.Closed) →
          executed turned.2 ++ turned.1.waiting = t.waiting → Orders t .turn turned := by
        intro hclosed hsame
        refine ⟨hclosed.trans (or_iff_left nofun).symm, fun _ => ?_, fun _ => hsame⟩
        exact hsame.trans (List.append_nil _).symm
      apply hreduce
      · cases hcases with
        | idle _ => exact Iff.rfl
        | executes hphase hqueue hmsg =>
            unfold Closed
            simp [hphase, hqueue, hmsg]
        | closes hphase hqueue hmsg =>
            refine iff_of_true (.inl nofun) (.inr ⟨_, ?_, hmsg⟩)
            rw [hqueue]
            exact List.mem_cons_self
        | drops hphase => exact iff_of_true (.inl nofun) (.inl (by rw [hphase]; nofun))
        | ends hphase => exact iff_of_true (.inl nofun) (.inl (by rw [hphase]; nofun))
      · cases hcases with
        | idle _ => rfl
        | @executes msg queue command number hphase hqueue hmsg =>
            have hafter := waiting_of_running
              (t := { t with queue := queue, sink := (execute g t.sink number command).1 }) hphase
            have hwaiting := waiting_of_running hphase
            rw [hqueue, List.takeWhile_cons_of_pos (by rw [hmsg]; rfl),
              List.filterMap_cons_some hmsg] at hwaiting
            rw [hwaiting, hafter]
            show _ :: (executed _ ++ _) = _
            rw [executed_signals]
            rfl
        | closes hphase hqueue hmsg =>
            have hwaiting := waiting_of_running hphase
            rw [hqueue, List.takeWhile_cons_of_neg (by simp [hmsg])] at hwaiting
            rw [hwaiting]
            rfl
        | drops hphase =>
            have hstopped : t.phase ≠ .running := by
              rw [hphase]
              nofun
            rw [waiting_of_not_running hstopped, executed_signals]
            rfl
        | ends hphase =>
            have hstopped : t.phase ≠ .running := by
              rw [hphase]
              nofun
            rw [waiting_of_not_running hstopped, executed_signals]
            rfl
  | completed index => exact hsettle index (.inl rfl) rfl nofun
  | abandoned index => exact hsettle index (.inr rfl) rfl nofun

theorem beforeShutdown_append_of_notMem {is : List Input} (h : .shutdown ∉ is) (js : List Input) :
    beforeShutdown (is ++ js) = is ++ beforeShutdown js := by
  refine List.takeWhile_append_of_pos fun i hi => ?_
  cases i with
  | shutdown => exact absurd hi h
  | _ => rfl

theorem beforeShutdown_append_of_mem {is : List Input} (h : .shutdown ∈ is) (js : List Input) :
    beforeShutdown (is ++ js) = beforeShutdown is := by
  induction is with
  | nil => cases h
  | cons i is ih =>
      cases i with
      | shutdown => rfl
      | _ =>
          have hrest : Input.shutdown ∈ is := by
            rcases List.mem_cons.mp h with heq | hrest
            · cases heq
            · exact hrest
          exact congrArg (List.cons _) (ih hrest)

/-- **Run lemma for the order.** -/
theorem order_run (inputs : List Input) :
    (.shutdown ∈ inputs ↔ (run (step g) new inputs).1.Closed) ∧
      executed (run (step g) new inputs).2 ++ (run (step g) new inputs).1.waiting =
        commands (beforeShutdown inputs) := by
  induction inputs using List.reverseRecOn with
  | nil => exact ⟨iff_of_false nofun (by simp [new, Closed]), rfl⟩
  | append_singleton inputs i ih =>
      obtain ⟨hclosed, horder⟩ := ih
      have hstep := order_step (g := g) (run (step g) new inputs).1 i
      rw [run_concat, executed_append, List.append_assoc]
      refine ⟨?_, ?_⟩
      · rw [hstep.closed, ← hclosed, List.mem_append, List.mem_singleton, eq_comm (a := i)]
      · by_cases hshut : .shutdown ∈ inputs
        · rw [hstep.shut (hclosed.mp hshut), beforeShutdown_append_of_mem hshut]
          exact horder
        · have hopen := fun h => hshut (hclosed.mpr h)
          have hbefore : beforeShutdown inputs = inputs := by
            have hall := beforeShutdown_append_of_notMem hshut []
            rw [List.append_nil] at hall
            exact hall.trans (List.append_nil inputs)
          have hlast : commands (inputs ++ beforeShutdown [i]) =
              commands inputs ++ (run (step g) new inputs).1.arrival i := by
            cases i with
            | shutdown => simp [beforeShutdown, arrival]
            | _ => exact arrival_run inputs _
          rw [hstep.opened hopen, beforeShutdown_append_of_notMem hshut, hlast, ← List.append_assoc,
            horder, hbefore]

/-! ### Progress -/

/-- How many turns are needed at most besides those for the messages in the queue. -/
def turnsLeft : Phase → Nat
  | .running => 2
  | .stopping => 3
  | .dropped => 1
  | .stopped => 0

/-- How deep the command of a number lies in the queue. -/
def queued (n : Nat) (t : RenderThread) : Nat := depth (fun msg => msg.number? = some n) t.queue

/-- How deep the callback of a number lies in flight. -/
def flying (n : Nat) (t : RenderThread) : Nat :=
  depth (fun o => o.map (·.presented) = some n) t.sink.device.inflight

/-- What is still to do for a command, until it is executed and its callback has run. -/
def toGo (n : Nat) (t : RenderThread) : Nat :=
  if queued n t = 0 then flying n t
  else t.sink.device.inflight.length + 2 * queued n t + turnsLeft t.phase

def need (n : Nat) (t : RenderThread) : Input :=
  if queued n t = 0 then .completed 0 else .turn

def Emptied (t : RenderThread) : Prop := t.phase = .stopped → t.queue = []

def Sent (n : Nat) (t : RenderThread) : Prop := n < t.sent ∧ t.Emptied

theorem toGo_of_queued {n : Nat} (h : queued n t ≠ 0) :
    toGo n t = t.sink.device.inflight.length + 2 * queued n t + turnsLeft t.phase := if_neg h

theorem toGo_of_not_queued {n : Nat} (h : queued n t = 0) : toGo n t = flying n t := if_pos h

theorem flying_le (n : Nat) (t : RenderThread) : flying n t ≤ t.sink.device.inflight.length :=
  depth_le_length

theorem queued_send {n : Nat} {m : Msg} (hmsg : ¬ m.number? = some n) :
    queued n (t.send m).1 = queued n t ∧ flying n (t.send m).1 = flying n t ∧
      toGo n (t.send m).1 = toGo n t := by
  rcases t.send_cases m with ⟨-, heq⟩ | ⟨-, heq⟩
  · rw [heq]
    exact ⟨rfl, rfl, rfl⟩
  · have hsame : queued n { t with queue := t.queue ++ [m] } = queued n t := by
      refine depth_append fun msg hm => ?_
      rw [List.mem_singleton.mp hm]
      exact decide_eq_false hmsg
    rw [heq]
    refine ⟨hsame, rfl, ?_⟩
    unfold toGo
    rw [hsame]
    rfl

theorem toGo_settle {n index : Nat} {sink : Compositor}
    (hinflight : sink.device.inflight = t.sink.device.inflight.eraseIdx index) :
    toGo n { t with sink := sink } ≤ toGo n t := by
  have hqueued : queued n { t with sink := sink } = queued n t := rfl
  by_cases hzero : queued n t = 0
  · rw [toGo_of_not_queued (t := { t with sink := sink }) hzero, toGo_of_not_queued hzero]
    unfold flying
    rw [hinflight]
    exact depth_eraseIdx_le index
  · have hlength := List.length_eraseIdx_le t.sink.device.inflight index
    rw [toGo_of_queued (t := { t with sink := sink }) hzero, toGo_of_queued hzero, hqueued,
      hinflight]
    exact Nat.add_le_add_right (Nat.add_le_add_right hlength _) _

/-- An executed command holds one more place in flight at most, and only its own. -/
theorem flying_execute {n number : Nat} {command : Command} {sink : Compositor}
    (hsink : sink = (execute g t.sink number command).1) :
    sink.device.inflight.length ≤ t.sink.device.inflight.length + 1 ∧
      (number ≠ n → flying n { t with sink := sink } = flying n t) := by
  subst hsink
  rcases execute_cases (g := g) t.sink number command with ⟨hsame, -⟩ |
      ⟨completion, rfl, -, hcommitted, -⟩
  · refine ⟨?_, fun _ => ?_⟩
    · rw [hsame]
      exact Nat.le_succ _
    · unfold flying
      rw [hsame]
  · refine ⟨?_, fun hne => ?_⟩
    · rw [hcommitted]
      simp
    · unfold flying
      rw [hcommitted]
      refine depth_append fun o ho => ?_
      rw [List.mem_singleton.mp ho]
      exact decide_eq_false fun heq => hne (Option.some.inj heq)

/-- **Turns.** Each brings what is queued ahead, and sets back nothing. -/
theorem toGo_turn {n : Nat} (hsent : Sent n t) :
    (queued n t ≠ 0 → toGo n (t.turn g).1 < toGo n t) ∧
      (queued n t = 0 → queued n (t.turn g).1 = 0 ∧ toGo n (t.turn g).1 ≤ toGo n t) := by
  have hcases := t.turn_cases g
  generalize t.turn g = turned at hcases ⊢
  cases hcases with
  | idle hidle =>
      have hzero : queued n t = 0 := by
        have hempty : t.queue = [] := hidle.elim (fun h => h.2) hsent.2
        unfold queued
        rw [hempty]
        rfl
      exact ⟨fun h => absurd hzero h, fun h => ⟨h, Nat.le_refl _⟩⟩
  | @executes msg queue command number hphase hqueue hmsg =>
      generalize hsink : (execute g t.sink number command).1 = sink
      obtain ⟨hlength, hother⟩ := flying_execute (g := g) (t := t) (n := n) hsink.symm
      have htail : queued n { t with queue := queue, sink := sink } = queued n t - 1 := by
        unfold queued
        rw [hqueue]
        exact depth_tail
      refine ⟨fun hpos => ?_, fun hzero => ?_⟩
      · rw [toGo_of_queued hpos]
        by_cases hrest : queued n { t with queue := queue, sink := sink } = 0
        · have hle := flying_le n { t with queue := queue, sink := sink }
          rw [toGo_of_not_queued hrest]
          simp only at hle ⊢
          omega
        · rw [toGo_of_queued hrest]
          simp only
          omega
      · have hrest : queued n { t with queue := queue, sink := sink } = 0 := by omega
        have hne : number ≠ n := by
          rintro rfl
          have hfalse := depth_eq_zero.mp hzero msg (hqueue ▸ List.mem_cons_self)
          simp [Msg.number?, hmsg] at hfalse
        refine ⟨hrest, Nat.le_of_eq ?_⟩
        rw [toGo_of_not_queued hrest, toGo_of_not_queued hzero]
        exact hother hne
  | @closes msg queue hphase hqueue hmsg =>
      have htail : queued n { t with queue := queue, phase := .stopping } = queued n t - 1 := by
        unfold queued
        rw [hqueue]
        exact depth_tail
      refine ⟨fun hpos => ?_, fun hzero => ?_⟩
      · rw [toGo_of_queued hpos, hphase]
        by_cases hrest : queued n { t with queue := queue, phase := .stopping } = 0
        · have hle := flying_le n t
          rw [toGo_of_not_queued hrest]
          show flying n t < _
          omega
        · rw [toGo_of_queued hrest]
          simp only [turnsLeft]
          omega
      · have hrest : queued n { t with queue := queue, phase := .stopping } = 0 := by omega
        rw [toGo_of_not_queued hrest, toGo_of_not_queued hzero]
        exact ⟨hrest, Nat.le_refl _⟩
  | drops hphase =>
      have hdrop := Compositor.drop_cases (g := g) (c := t.sink)
      generalize (t.sink.drop g).1 = sink at hdrop ⊢
      have hqueued : queued n { t with sink := sink, phase := .dropped } = queued n t := rfl
      refine ⟨fun hpos => ?_, fun hzero => ?_⟩
      · have hlength : sink.device.inflight.length ≤ t.sink.device.inflight.length + 1 := by
          rcases hdrop.2 with hsame | hadded
          · rw [hsame]
            exact Nat.le_succ _
          · rw [hadded]
            simp
        rw [toGo_of_queued hpos, toGo_of_queued (by rwa [hqueued]), hqueued, hphase]
        simp only [turnsLeft]
        omega
      · have hsame : flying n { t with sink := sink, phase := .dropped } = flying n t := by
          unfold flying
          rcases hdrop.2 with hsame | hadded
          · rw [hsame]
          · rw [hadded]
            exact depth_append (by simp)
        refine ⟨hzero, Nat.le_of_eq ?_⟩
        rw [toGo_of_not_queued (by rwa [hqueued]), toGo_of_not_queued hzero]
        exact hsame
  | ends hphase =>
      have hnone : queued n { t with queue := [], phase := .stopped } = 0 := rfl
      refine ⟨fun hpos => ?_, fun hzero => ⟨hnone, Nat.le_of_eq ?_⟩⟩
      · have hle := flying_le n t
        rw [toGo_of_queued hpos, toGo_of_not_queued hnone]
        show flying n t < _
        omega
      · rw [toGo_of_not_queued hnone, toGo_of_not_queued hzero]
        rfl

theorem emptied_step (h : t.Emptied) (i : Input) : (step g t i).1.Emptied := by
  have hsend : ∀ (t : RenderThread) (msg : Msg), t.Emptied → (t.send msg).1.Emptied := by
    intro t msg ht
    rcases t.send_cases msg with ⟨-, heq⟩ | ⟨hlive, heq⟩
    · rwa [heq]
    · rw [heq]
      exact fun hstopped => absurd hstopped hlive
  cases i with
  | sent command => exact hsend _ _ h
  | shutdown => exact hsend _ _ h
  | turn =>
      have hcases := t.turn_cases g
      show (t.turn g).1.Emptied
      generalize t.turn g = turned at hcases ⊢
      cases hcases with
      | idle _ => exact h
      | executes hphase _ _ => exact fun hstopped => by cases hphase.symm.trans hstopped
      | closes _ _ _ => exact nofun
      | drops _ => exact nofun
      | ends _ => exact fun _ => rfl
  | completed index => exact h
  | abandoned index => exact h

theorem emptied_run (inputs : List Input) : (run (step g) new inputs).1.Emptied :=
  run_invariant Emptied (fun _ i h => emptied_step h i) (fun _ => rfl) inputs

/-- **Progress.** A turn brings ahead what is queued, and a completion what is in flight. -/
theorem progress (g : Gpu) (n : Nat) : Progress (step g) (Sent n) (toGo n) (need n) where
  kept t i h := by
    refine ⟨?_, emptied_step h.2 i⟩
    rw [sent_step]
    exact Nat.lt_add_right _ h.1
  le t i h := by
    cases i with
    | sent command =>
        have hne : ¬ (Msg.ofCommand t.sent command).number? = some n := by
          have hlt := h.1
          rw [Msg.number?, Msg.command?_ofCommand]
          simp only [Option.map_some, Option.some.injEq]
          omega
        exact Nat.le_of_eq (queued_send (t := { t with sent := t.sent + 1 }) hne).2.2
    | shutdown => exact Nat.le_of_eq (queued_send (m := .shutdown) nofun).2.2
    | turn =>
        obtain ⟨hlt, hle⟩ := toGo_turn (g := g) h
        by_cases hzero : queued n t = 0
        · exact (hle hzero).2
        · exact Nat.le_of_lt (hlt hzero)
    | completed index =>
        obtain ⟨sink, signals, heq, hinflight, -⟩ := t.settle_cases (g := g) index (.inl rfl)
        rw [heq]
        exact toGo_settle hinflight
    | abandoned index =>
        obtain ⟨sink, signals, heq, hinflight, -⟩ := t.settle_cases (g := g) index (.inr rfl)
        rw [heq]
        exact toGo_settle hinflight
  stays t i h hsame := by
    have hneed : queued n (step g t i).1 = queued n t ∨
        queued n (step g t i).1 ≠ 0 ∧ queued n t ≠ 0 → need n (step g t i).1 = need n t := by
      rintro (heq | ⟨hafter, hbefore⟩)
      · rw [need, heq, need]
      · rw [need, if_neg hafter, need, if_neg hbefore]
    apply hneed
    cases i with
    | sent command =>
        have hne : ¬ (Msg.ofCommand t.sent command).number? = some n := by
          have hlt := h.1
          rw [Msg.number?, Msg.command?_ofCommand]
          simp only [Option.map_some, Option.some.injEq]
          omega
        exact .inl (queued_send (t := { t with sent := t.sent + 1 }) hne).1
    | shutdown => exact .inl (queued_send (m := .shutdown) nofun).1
    | turn =>
        obtain ⟨hlt, hle⟩ := toGo_turn (g := g) h
        by_cases hzero : queued n t = 0
        · exact .inl ((hle hzero).1.trans hzero.symm)
        · exact absurd hsame (Nat.ne_of_lt (hlt hzero))
    | completed index => exact .inl rfl
    | abandoned index => exact .inl rfl
  lt t h hpos := by
    by_cases hzero : queued n t = 0
    · obtain ⟨sink, signals, heq, hinflight, -⟩ := t.settle_cases (g := g) 0 (.inl rfl)
      have hafter : queued n { t with sink := sink } = 0 := hzero
      rw [toGo_of_not_queued hzero] at hpos
      rw [need, if_pos hzero, heq, toGo_of_not_queued hafter, toGo_of_not_queued hzero]
      unfold flying at hpos ⊢
      rw [hinflight]
      cases hlist : t.sink.device.inflight with
      | nil =>
          rw [hlist] at hpos
          exact absurd rfl hpos
      | cons o os =>
          rw [hlist] at hpos
          rw [List.eraseIdx_cons_zero, depth_tail (x := o)]
          omega
    · rw [need, if_neg hzero]
      exact (toGo_turn h).1 hzero

theorem toGo_le_backlog (n : Nat) (t : RenderThread) : toGo n t ≤ t.backlog := by
  have hflying := flying_le n t
  have hqueued : queued n t ≤ t.queue.length := depth_le_length
  have hturns : turnsLeft t.phase ≤ 3 := by cases t.phase <;> decide
  unfold toGo backlog
  split <;> omega

/-- Nothing is left to do for a command that is neither queued nor in flight. -/
theorem notMem_of_toGo {n : Nat} (h : toGo n t = 0) :
    n ∉ t.held ∧ ∀ command, (command, n) ∉ t.waiting := by
  have hqueued : queued n t = 0 := by
    by_contra hpos
    rw [toGo_of_queued hpos] at h
    omega
  rw [toGo_of_not_queued hqueued] at h
  have hqueue : ∀ command, (command, n) ∉ t.queue.filterMap Msg.command? := by
    intro command hmem
    obtain ⟨msg, hmsg, hcommand⟩ := List.mem_filterMap.mp hmem
    have hfalse := depth_eq_zero.mp hqueued msg hmsg
    simp [Msg.number?, hcommand] at hfalse
  refine ⟨fun hmem => ?_, fun command hmem => ?_⟩
  · rcases List.mem_append.mp hmem with hmem | hmem
    · obtain ⟨command, hcommand⟩ := mem_frames hmem
      exact hqueue command hcommand
    · obtain ⟨o, ho, hcallback⟩ := List.mem_filterMap.mp hmem
      have hfalse := depth_eq_zero.mp h o ho
      simp [hcallback] at hfalse
  · unfold waiting at hmem
    split at hmem
    · refine hqueue command (List.Sublist.mem hmem ?_)
      exact (List.takeWhile_sublist _).filterMap _
    · cases hmem

theorem commands_mono {is js : List Input} (h : is <+: js) : commands is <+: commands js := by
  obtain ⟨later, rfl⟩ := h
  induction later using List.reverseRecOn with
  | nil => exact ⟨[], by rw [List.append_nil, List.append_nil]⟩
  | append_singleton later i ih =>
      rw [← List.append_assoc, commands_concat]
      exact ih.trans (List.prefix_append _ _)

theorem beforeShutdown_mono (is js : List Input) :
    beforeShutdown is <+: beforeShutdown (is ++ js) := by
  by_cases hshut : .shutdown ∈ is
  · exact ⟨[], by rw [beforeShutdown_append_of_mem hshut, List.append_nil]⟩
  · rw [beforeShutdown_append_of_notMem hshut]
    exact (List.takeWhile_prefix _).trans (List.prefix_append _ _)

theorem lt_of_mem_commands {is : List Input} {command : Command} {n : Nat}
    (h : (command, n) ∈ commands is) : n < (commands is).length := by
  have hlt := (List.mem_zipIdx h).2.1
  simpa [commands] using hlt

end RenderThread

end Drift.Render
