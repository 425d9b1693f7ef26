import Drift.Core.Geometry
import Drift.Lib.Transition
import Mathlib.Data.Multiset.AddSub

/-!
# Frame acknowledgements

`AckState` is the state behind the mutex of an `AckOutbox`; each of its operations runs under the
lock, so concurrent callers interleave whole operations. `System` adds what the other threads hold:
the `presented` callbacks that were handed to the sink and have not run, which the render thread may
run in any order but, as each can be called only once, never twice.
-/

namespace Drift.Gfx

inductive QueueDepth where
  | unavailable
  | availableBytes (n : Nat)
  | suspend
  deriving DecidableEq

/-- The value of the `queueDepth` field. -/
def QueueDepth.toWire : QueueDepth → Nat
  | unavailable => 0
  | availableBytes n => n
  | suspend => 0xFFFFFFFF

structure FrameAcknowledge where
  queueDepth : QueueDepth
  frameId : UInt32
  totalFramesDecoded : Nat
  deriving DecidableEq

structure AckState where
  outbox : List FrameAcknowledge
  inFlight : Nat
  totalDecoded : Nat
  hidden : Bool
  suspendSent : Bool
  deriving DecidableEq

namespace AckState

def new : AckState where
  outbox := []
  inFlight := 0
  totalDecoded := 0
  hidden := false
  suspendSent := false

/-- Records a processed `EndFrame`; the in-flight count saturates and the total wraps. -/
def frameEnded (s : AckState) : AckState :=
  { s with
    inFlight := min (s.inFlight + 1) u32Max
    totalDecoded := (s.totalDecoded + 1) % 2 ^ 32 }

def setHidden (s : AckState) (hidden : Bool) : AckState :=
  { s with
    hidden := hidden
    suspendSent := if s.hidden ≠ hidden then false else s.suspendSent }

/-- Puts an acknowledgement of a frame in the outbox. -/
def queueAck (s : AckState) (frameId : UInt32) (depth : QueueDepth) : AckState :=
  { s with
    outbox := s.outbox ++
      [{ queueDepth := depth, frameId := frameId, totalFramesDecoded := s.totalDecoded }] }

/-- The `presented` callback of a frame. -/
def presented (s : AckState) (frameId : UInt32) : AckState :=
  let s := { s with inFlight := s.inFlight - 1 }
  if !s.hidden then
    s.queueAck frameId (if s.inFlight = 0 then .unavailable else .availableBytes s.inFlight)
  else if !s.suspendSent then
    { s with suspendSent := true }.queueAck frameId .suspend
  else s

/-- Takes the queued acknowledgements, oldest first. -/
def drain (s : AckState) : AckState × List FrameAcknowledge := ({ s with outbox := [] }, s.outbox)

end AckState

/-! ### The threads around an outbox -/

/-- The outbox and the ids of the frames whose `presented` callback has not run. -/
structure System where
  acks : AckState
  callbacks : List UInt32
  deriving DecidableEq

/-- What a thread does next: the session thread ends a frame, the render thread runs the callback at
a position, the app hides or shows the session, the session actor drains the outbox. -/
inductive Event where
  | endFrame (frameId : UInt32)
  | present (index : Nat)
  | setHidden (hidden : Bool)
  | drain
  deriving DecidableEq

/-- What happened, for the record: a presentation with the acknowledgement it queued, if any. -/
inductive Effect where
  | ended (frameId : UInt32)
  | presented (frameId : UInt32) (ack : Option FrameAcknowledge)
  | hiddenSet (hidden : Bool)
  | drained (acks : List FrameAcknowledge)
  deriving DecidableEq

namespace System

def new : System := ⟨AckState.new, []⟩

def step (s : System) : Event → System × List Effect
  | .endFrame frameId =>
    ({ acks := s.acks.frameEnded, callbacks := s.callbacks ++ [frameId] }, [.ended frameId])
  | .present index =>
    match s.callbacks[index]? with
    | none => (s, [])
    | some frameId =>
      let acks := s.acks.presented frameId
      ({ acks := acks, callbacks := s.callbacks.eraseIdx index },
        [.presented frameId (acks.outbox.drop s.acks.outbox.length).head?])
  | .setHidden hidden => ({ s with acks := s.acks.setHidden hidden }, [.hiddenSet hidden])
  | .drain =>
    let (acks, drained) := s.acks.drain
    ({ s with acks := acks }, [.drained drained])

/-- The system after some events, and the record of what happened. -/
def history (events : List Event) : System × List Effect := Transition.run step new events

end System

/-! ### Reading a record -/

namespace Effect

def ended? : Effect → Option UInt32
  | ended frameId => some frameId
  | _ => none

/-- The id of the frame that was presented. -/
def presented? : Effect → Option UInt32
  | presented frameId _ => some frameId
  | _ => none

def queued? : Effect → Option FrameAcknowledge
  | presented _ ack => ack
  | _ => none

/-- The acknowledgements that were taken out. -/
def taken : Effect → List FrameAcknowledge
  | drained acks => acks
  | _ => []

def hiddenAfter (hidden : Bool) : Effect → Bool
  | hiddenSet h => h
  | _ => hidden

end Effect

/-- The frames ended in a record, in order. -/
def endedFrames (record : List Effect) : List UInt32 := record.filterMap Effect.ended?

/-- The frames presented in a record, in order. -/
def presentedFrames (record : List Effect) : List UInt32 := record.filterMap Effect.presented?

/-- The acknowledgements queued in a record, in order. -/
def queuedAcks (record : List Effect) : List FrameAcknowledge := record.filterMap Effect.queued?

/-- The acknowledgements drained in a record, in order. -/
def drainedAcks (record : List Effect) : List FrameAcknowledge := record.flatMap Effect.taken

/-- The session is hidden at the end of a record; it starts visible. -/
def hiddenAt (record : List Effect) : Bool := record.foldl Effect.hiddenAfter false

end Drift.Gfx
