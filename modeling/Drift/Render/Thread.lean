import Drift.Lib.Transition
import Drift.Render.Compositor

/-!
# The render thread

A render thread owns a compositor. The handles send it the calls through a channel, and it executes them in
order until it is shut down; then the compositor is dropped, and after it the channel with what is still
queued. The callback of a frame is called, or else dropped, and runs in both cases.
-/

namespace Drift.Render

open Transition Drift.Gfx

/-! ### Callbacks -/

/-- A callback that runs when it is called, or else when it is dropped. -/
structure CallOnDrop where
  callback : Option Nat
  deriving DecidableEq

namespace CallOnDrop

def new (callback : Nat) : CallOnDrop := ⟨some callback⟩

def drop (c : CallOnDrop) : List Signal := (c.callback.map .presented).toList

/-- The callback is taken out, and what remains is dropped. -/
def call (c : CallOnDrop) : List Signal := (c.callback.map .presented).toList ++ drop ⟨none⟩

end CallOnDrop

/-! ### Messages -/

/-- What a handle may ask for: a call of the frame sink, or, as a closure that is run with the compositor,
the start or the end of a recording. -/
inductive Command where
  | sink (made : SinkCall Nv12Frame)
  | startRecording (slots : List Bool)
  | stopRecording

def Command.frame? : Command → Option UInt32
  | sink (.endFrame frameId) => some frameId
  | _ => none

/-- A message, with the number of its command, by which the callback of a frame is known as well. The end of
a frame carries its callback, and is no plain call. -/
inductive Msg where
  | call (number : Nat) (command : Command) (plain : command.frame? = none)
  | endFrame (number : Nat) (frameId : UInt32) (presented : CallOnDrop)
  | shutdown

namespace Msg

def ofCommand (number : Nat) (command : Command) : Msg :=
  match hframe : command.frame? with
  | some frameId => endFrame number frameId (.new number)
  | none => call number command hframe

/-- The command of a message, and its number. -/
def command? : Msg → Option (Command × Nat)
  | call number command _ => some (command, number)
  | endFrame number frameId _ => some (.sink (.endFrame frameId), number)
  | shutdown => none

def drop : Msg → List Signal
  | endFrame _ _ presented => presented.drop
  | call _ _ _ | shutdown => []

end Msg

/-! ### The thread -/

/-- The loop, the drop of the compositor, the drop of the receiver, and the end of the thread. -/
inductive Phase where
  | running
  | stopping
  | dropped
  | stopped
  deriving DecidableEq

/-- `sent` counts the commands that the handles have sent. -/
structure RenderThread where
  queue : List Msg
  sink : Compositor
  phase : Phase
  sent : Nat

/-- What is seen of a thread: the commands that reach the compositor, and the callbacks that run. -/
inductive Seen where
  | executed (command : Command) (number : Nat)
  | signal (s : Signal)

namespace RenderThread

def new : RenderThread := ⟨[], .new, .running, 0⟩

/-- A message for the thread. When its receiver is gone, the message is dropped. -/
def send (t : RenderThread) (msg : Msg) : RenderThread × List Seen :=
  if t.phase = .stopped then (t, msg.drop.map .signal)
  else ({ t with queue := t.queue ++ [msg] }, [])

/-- The compositor as it is called with a command. A callback that it calls is called in turn, and one that
it drops is dropped. -/
def execute (g : Gpu) (c : Compositor) (number : Nat) : Command → Compositor × List Signal
  | .sink made => c.call g number made
  | .startRecording slots => c.step g (.startRecording slots)
  | .stopRecording => c.step g .stopRecording

def turn (g : Gpu) (t : RenderThread) : RenderThread × List Seen :=
  match t.phase with
  | .running =>
    match t.queue with
    | [] => (t, [])
    | .call number command _ :: queue =>
      let (sink, signals) := execute g t.sink number command
      ({ t with queue := queue, sink := sink }, .executed command number :: signals.map .signal)
    | .endFrame number frameId _ :: queue =>
      let command : Command := .sink (.endFrame frameId)
      let (sink, signals) := execute g t.sink number command
      ({ t with queue := queue, sink := sink }, .executed command number :: signals.map .signal)
    | .shutdown :: queue => ({ t with queue := queue, phase := .stopping }, [])
  | .stopping =>
    let (sink, signals) := t.sink.drop g
    ({ t with sink := sink, phase := .dropped }, signals.map .signal)
  | .dropped =>
    ({ t with queue := [], phase := .stopped }, (t.queue.flatMap Msg.drop).map .signal)
  | .stopped => (t, [])

/-- What may happen: a handle sends a command, the thread is shut down, it takes a turn, or a command
buffer completes or is abandoned. -/
inductive Input where
  | sent (command : Command)
  | shutdown
  | turn
  | completed (index : Nat)
  | abandoned (index : Nat)

def step (g : Gpu) (t : RenderThread) : Input → RenderThread × List Seen
  | .sent command => { t with sent := t.sent + 1 }.send (.ofCommand t.sent command)
  | .shutdown => t.send .shutdown
  | .turn => t.turn g
  | .completed index =>
    let (sink, signals) := t.sink.step g (.completed index)
    ({ t with sink := sink }, signals.map .signal)
  | .abandoned index =>
    let (sink, signals) := t.sink.step g (.abandoned index)
    ({ t with sink := sink }, signals.map .signal)

end RenderThread

/-! ### What is sent, executed and presented -/

namespace RenderThread

def commands (is : List Input) : List (Command × Nat) :=
  (is.filterMap fun
    | .sent command => some command
    | _ => none).zipIdx

/-- What happens before the first shutdown. -/
def beforeShutdown (is : List Input) : List Input :=
  is.takeWhile fun
    | .shutdown => false
    | _ => true

/-- The commands that reach the compositor, in order. -/
def executed (seen : List Seen) : List (Command × Nat) :=
  seen.filterMap fun
    | .executed command number => some (command, number)
    | _ => none

def presented (seen : List Seen) : List Nat :=
  seen.filterMap fun
    | .signal (.presented callback) => some callback
    | _ => none

def frames (commands : List (Command × Nat)) : List Nat :=
  (commands.filter fun c => c.1.frame?.isSome).map Prod.snd

/-- The callbacks that are still held: by the messages in the queue, and by the command buffers in flight. -/
def held (t : RenderThread) : List Nat :=
  frames (t.queue.filterMap Msg.command?) ++ t.sink.device.inflight.filterMap (·.map (·.presented))

/-- An upper bound of the turns and completions that everything queued or in flight needs. -/
def backlog (t : RenderThread) : Nat := 2 * t.queue.length + t.sink.device.inflight.length + 4

end RenderThread

end Drift.Render
