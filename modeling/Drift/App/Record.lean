import Drift.App.Manager
import Drift.Lib.Transition

/-!
# Reading the record of the manager

Summaries of what the host was called for: the sessions that were started and ended, the views that the
windows were given, and the sessions whose views and events they are.
-/

namespace Drift.App

namespace Task

/-- A call that is about to put a session into the window. -/
def isOpening (window : String) : Task → Bool
  | .opening w _ _ => w = window
  | _ => false

/-- A call is opening the window, or a session of the window is about to be ended. -/
def isBusy (window : String) : Task → Bool
  | .opening w _ _ => w = window
  | .closing lives _ _ => lives.any (·.1 = window)
  | .pump p => p.window = window && p.pc = .ending
  | _ => false

/-- A call that has not returned, or a pump that has something to do before it waits. -/
def isUnderWay : Task → Bool
  | .done => false
  | .pump p => !(p.pc = .waiting || p.pc = .finished)
  | _ => true

/-- The view the task is to give to the window. -/
def view? (window : String) : Task → Option SessionView
  | .updating w view => if w = window then some view else none
  | .pump p =>
    if p.window = window then
      match p.pc with
      | .forwarding _ view => view
      | .notifying view => some view
      | _ => none
    else none
  | _ => none

/-- The host is given the event itself. -/
def passesOn : SessionEvent → Bool
  | .session (.state _) | .session (.certificatePrompt _ _ _ _) | .session (.certificatePinned _) => false
  | _ => true

/-- The task has a view or an event for the window. -/
def isDelivering (window : String) : Task → Bool
  | .updating w _ => w = window
  | .pump p =>
    p.window = window &&
      match p.pc with
      | .forwarding event view => passesOn event || view.isSome
      | .notifying _ => true
      | _ => false
  | _ => false

end Task

namespace Manager

def opens (s : Manager) (window : String) : Bool := s.tasks.any (·.isOpening window)

def busy (s : Manager) (window : String) : Bool := s.tasks.any (·.isBusy window)

def delivering (s : Manager) (window : String) : Bool := s.tasks.any (·.isDelivering window)

def Quiet (s : Manager) : Prop := ∀ t ∈ s.tasks, t.isUnderWay = false

instance (s : Manager) : Decidable s.Quiet := inferInstanceAs (Decidable (∀ t ∈ s.tasks, _))

/-- The manager after some actions from its start, and the record of what happened. -/
def history (as : List Action) : Manager × List Out := Transition.run step new as

/-- The session is the live one of the window, and its pump waits for its events. -/
def Attached (s : Manager) (window : String) (session : SessionId) : Prop :=
  ∃ live p, s.live window = some live ∧ live.handle = session ∧ s.pump? live.pump = some p ∧
    p.session = session ∧ p.generation = live.generation ∧ p.pc = .waiting

end Manager

/-! ### Sessions -/

/-- The sessions that were started, and those that were ended, with their windows. -/
structure Sessions where
  started : List (String × SessionId)
  ended : List (String × SessionId)
  deriving DecidableEq

namespace Sessions

def start : Sessions := ⟨[], []⟩

def observe (m : Sessions) : Out → Sessions
  | .spawned window session => { m with started := (window, session) :: m.started }
  | .sessionEnded window session => { m with ended := (window, session) :: m.ended }
  | _ => m

/-- A session is new and starts when the sessions of its window have ended; it is ended when it was
started and not yet ended. -/
def Accepts (m : Sessions) : Out → Prop
  | .spawned window session =>
    (∀ x ∈ m.started, x.2 ≠ session) ∧ ∀ x ∈ m.started, x.1 = window → x ∈ m.ended
  | .sessionEnded window session =>
    (window, session) ∈ m.started ∧ (window, session) ∉ m.ended
  | _ => True

instance (m : Sessions) : ∀ o, Decidable (m.Accepts o)
  | .spawned _ _ => inferInstanceAs (Decidable (_ ∧ _))
  | .sessionEnded _ _ => inferInstanceAs (Decidable (_ ∧ _))
  | .viewChanged _ _ _ | .sessionEvent _ _ _ | .certificatePinned _ _ | .closeSent _
  | .answered _ _ | .inserted _ _ | .removed _ | .checked _ _ _ => isTrue trivial

end Sessions

/-- The window is opened while a call opens it or one of its sessions is still to be ended. -/
def Manager.opensBusy (s : Manager) : Action → Bool
  | .open window _ => s.busy window
  | _ => false

/-! ### Views -/

/-- The last view each window was given, the views that it is still to be given in the order in which
they were taken, and whether its view has changed since its session was put in. -/
structure Displays where
  shown : String → Option SessionView
  queue : String → List (TaskId × SessionView)
  changed : String → Bool

namespace Displays

def start : Displays := ⟨fun _ => none, fun _ => [], fun _ => false⟩

def observe (m : Displays) : Out → Displays
  | .checked task window (some view) =>
    { m with
      queue := Function.update m.queue window (m.queue window ++ [(task, view)])
      changed := Function.update m.changed window true }
  | .viewChanged task window view =>
    { m with
      shown := Function.update m.shown window (some view)
      queue := Function.update m.queue window ((m.queue window).eraseP (·.1 = task)) }
  | .inserted window _ => { m with changed := Function.update m.changed window false }
  | _ => m

end Displays

/-- The action gives a window its view, by the task. -/
def Manager.shows (s : Manager) : Action → Option (TaskId × String)
  | .run task =>
    match s.tasks[task]? with
    | some (.updating window _) => some (task, window)
    | some (.pump p) =>
      match p.pc with
      | .notifying _ => some (task, p.window)
      | _ => none
    | _ => none
  | _ => none

/-- A window is given the oldest of the views it is still to be given. -/
def Manager.showsInOrder (s : Manager) (m : Displays) (a : Action) : Bool :=
  match s.shows a with
  | some (task, window) => (m.queue window).head?.map (·.1) = some task
  | none => true

/-! ### Deliveries -/

abbrev ManagerStep := Transition.Step Manager Action Out

def Manager.steps (as : List Action) : List ManagerStep :=
  (Transition.run (Transition.recorded Manager.step) Manager.new as).2

/-- The sessions that the windows belong to, and those whose views or events the tasks took last. -/
structure Deliveries where
  sessions : Sessions
  owner : String → Option SessionId
  carried : TaskId → Option SessionId

namespace Deliveries

def start : Deliveries := ⟨.start, fun _ => none, fun _ => none⟩

def observe (m : Deliveries) (o : Out) : Deliveries :=
  let m := { m with sessions := m.sessions.observe o }
  match o with
  | .inserted window session => { m with owner := Function.update m.owner window (some session) }
  | .removed window => { m with owner := Function.update m.owner window none }
  | .checked task window _ =>
    { m with carried := Function.update m.carried task (m.owner window) }
  | _ => m

def watch (m : Deliveries) (t : ManagerStep) : Deliveries := t.outs.foldl observe m

/-- What the task delivers comes from the session that the window belongs to, which has not been ended
for another one. -/
def Allows (m : Deliveries) (before : Manager) (task : TaskId) (window : String) : Prop :=
  m.carried task ≠ none ∧ m.owner window = m.carried task ∧
    (before.opens window = true → ∀ session ∈ m.carried task, (window, session) ∉ m.sessions.ended)

instance (m : Deliveries) (before : Manager) (task : TaskId) (window : String) :
    Decidable (m.Allows before task window) :=
  inferInstanceAs (Decidable (_ ∧ _ ∧ (_ → ∀ session ∈ m.carried task, _)))

def Accepts (m : Deliveries) (before : Manager) : Out → Prop
  | .viewChanged task window _ | .sessionEvent task window _ => m.Allows before task window
  | _ => True

instance (m : Deliveries) (before : Manager) : ∀ o, Decidable (m.Accepts before o)
  | .viewChanged _ _ _ | .sessionEvent _ _ _ => inferInstanceAs (Decidable (Allows ..))
  | .spawned _ _ | .sessionEnded _ _ | .certificatePinned _ _ | .closeSent _
  | .answered _ _ | .inserted _ _ | .removed _ | .checked _ _ _ => isTrue trivial

/-- The host hears of the sessions that the windows belong to. -/
def Owned (m : Deliveries) (t : ManagerStep) : Prop := ∀ o ∈ t.outs, m.Accepts t.before o

instance (m : Deliveries) (t : ManagerStep) : Decidable (m.Owned t) :=
  inferInstanceAs (Decidable (∀ o ∈ t.outs, _))

end Deliveries

/-- The owner of a window changes while something is to be delivered to the window, or its view is taken
while a call opens it. -/
def Manager.overtakes (s : Manager) : Action → Bool
  | .open window _ | .close window => s.delivering window
  | .shutdown => s.windows.keys.any s.delivering
  | .toggleStats window => (s.slot window).isSome && s.opens window
  | .run task =>
    match s.tasks[task]? with
    | some (.answering window) =>
      (s.slot window).any (·.view.certificate.isSome) && s.opens window
    | some (.opening window _ (.inserting _)) => s.delivering window
    | _ => false
  | _ => false

namespace Manager

def sample : ConnectionProfile := ⟨1, "desk", .headless, none⟩

def connected : SessionEvent := .session (.state (.connected ⟨1280, 800⟩ 100))

end Manager

end Drift.App
