import Drift.App.View
import Mathlib.Data.List.AList
import Mathlib.Data.List.Sort

/-!
# The session manager

The manager of the session windows, its calls, the futures they return and the pumps of the sessions.
Each of them is a task that goes step by step: what a task does under the lock is one step, and each
call of the host is another. The scheduler picks the next step of any task, and the events of the
sessions, the deadlines and the outcome of a spawn come from the outside.
-/

namespace Drift.App

open Rdp

/-- The number of a session, in the order in which they were started. -/
abbrev SessionId := Nat

/-- The place of a task in the list of all tasks. -/
abbrev TaskId := Nat

structure Live where
  generation : Nat
  handle : SessionId
  pump : TaskId
  deriving DecidableEq

structure Slot where
  profile : ConnectionProfile
  view : SessionView
  live : Option Live
  order : Nat
  liveSince : Option Instant
  deriving DecidableEq

namespace Slot

def noteLive (slot : Slot) (now : Instant) : Slot :=
  let live := slot.view.screen = .live || slot.view.screen = .greeterHint
  { slot with
    liveSince :=
      match live, slot.liveSince with
      | true, none => some now
      | false, some _ => none
      | _, since => since }

/-- The session of the generation owns the window. -/
def ownedBy (slot : Slot) (generation : Nat) : Bool :=
  slot.live.any fun live => live.generation = generation

end Slot

structure ShutdownReport where
  graceful : Nat
  abandoned : Nat
  deriving DecidableEq

inductive CertificateAnswer where
  | accept (fingerprint : CertFingerprint) (pin : Bool)
  | reject
  deriving DecidableEq

/-! ### Tasks -/

/-- Where a call of `open` is. -/
inductive Opening where
  | replacing (old : Live)
  | ending (old : Live)
  | spawning
  | inserting (handle : SessionId)
  deriving DecidableEq

/-- Where a call of `close` or `shutdown`, or the future it returned, is. -/
inductive Closing where
  | telling
  | waiting
  | ending
  deriving DecidableEq

/-- Where a pump is; it is only cancelled when it waits for an event. -/
inductive Pumping where
  | waiting
  | received (event : Option SessionEvent)
  | forwarding (event : SessionEvent) (view : Option SessionView)
  | notifying (view : SessionView)
  | ending
  | finished
  deriving DecidableEq

structure Pump where
  window : String
  generation : Nat
  profileId : Uuid
  session : SessionId
  aborted : Bool
  pc : Pumping
  deriving DecidableEq

inductive Task where
  | opening (window : String) (profile : ConnectionProfile) (pc : Opening)
  | closing (lives : List (String × Live)) (pc : Closing) (report : ShutdownReport)
  | answering (window : String)
  | updating (window : String) (view : SessionView)
  | pump (pump : Pump)
  | done
  deriving DecidableEq

structure Manager where
  windows : AList fun _ : String => Slot
  nextGeneration : Nat
  nextOrder : Nat
  tasks : List Task
  sessions : Nat
  now : Instant

/-- The next step of a task, a call, or something from the outside. -/
inductive Action where
  | open (window : String) (profile : ConnectionProfile)
  | close (window : String)
  | shutdown
  | toggleStats (window : String)
  | answerCertificate (window : String) (answer : CertificateAnswer) (delivered : Bool)
  | run (task : TaskId)
  | spawn (task : TaskId) (started : Bool)
  | recv (task : TaskId) (event : Option SessionEvent)
  | cancel (task : TaskId)
  | expire (task : TaskId)
  | elapse (time : Duration)

/-- What happens: the calls of the host, with the task that makes them, the commands to the sessions, and
the steps under the lock that give a task something to deliver or change the owner of a window. -/
inductive Out where
  | spawned (window : String) (session : SessionId)
  | viewChanged (task : TaskId) (window : String) (view : SessionView)
  | sessionEvent (task : TaskId) (window : String) (event : SessionEvent)
  | certificatePinned (profile : Uuid) (fingerprint : CertFingerprint)
  | sessionEnded (window : String) (session : SessionId)
  | closeSent (session : SessionId)
  | answered (session : SessionId) (answer : CertificateAnswer)
  | inserted (window : String) (session : SessionId)
  | removed (window : String)
  | checked (task : TaskId) (window : String) (view : Option SessionView)
  deriving DecidableEq

namespace Manager

def new : Manager where
  windows := ∅
  nextGeneration := 0
  nextOrder := 0
  tasks := []
  sessions := 0
  now := 0

def slot (s : Manager) (window : String) : Option Slot := s.windows.lookup window

def live (s : Manager) (window : String) : Option Live := (s.slot window).bind (·.live)

def setSlot (s : Manager) (window : String) (slot : Slot) : Manager :=
  { s with windows := s.windows.insert window slot }

def setTask (s : Manager) (task : TaskId) (t : Task) : Manager :=
  { s with tasks := s.tasks.set task t }

def start (s : Manager) (t : Task) : Manager := { s with tasks := s.tasks ++ [t] }

def pump? (s : Manager) (task : TaskId) : Option Pump :=
  match s.tasks[task]? with
  | some (.pump p) => some p
  | _ => none

/-- `JoinHandle::abort`. -/
def abort (s : Manager) (task : TaskId) : Manager :=
  match s.pump? task with
  | some p => s.setTask task (.pump { p with aborted := true })
  | none => s

/-! ### Calls -/

/-- `open`, up to its first release of the lock. -/
def «open» (s : Manager) (window : String) (profile : ConnectionProfile) : Manager × List Out :=
  match s.slot window with
  | some slot =>
    let s := s.setSlot window { slot with live := none }
    (s.start (.opening window profile (slot.live.elim .spawning .replacing)), [])
  | none => (s.start (.opening window profile .spawning), [])

def close (s : Manager) (window : String) : Manager × List Out :=
  let lives := (s.live window).toList.map fun live => (window, live)
  ({ s with windows := s.windows.erase window }.start (.closing lives .telling ⟨0, 0⟩),
    [.removed window])

def shutdown (s : Manager) : Manager × List Out :=
  let lives := s.windows.entries.filterMap fun ⟨window, slot⟩ =>
    slot.live.map fun live => (window, live)
  ({ s with windows := ∅ }.start
      (.closing (lives.insertionSort fun a b => a.1 ≤ b.1) .telling ⟨0, 0⟩),
    s.windows.keys.map .removed)

def toggleStats (s : Manager) (window : String) : Manager × List Out :=
  match s.slot window with
  | none => (s, [])
  | some slot =>
    let view := { slot.view with showStats := !slot.view.showStats }
    ((s.setSlot window { slot with view := view }).start (.updating window view),
      [.checked s.tasks.length window (some view)])

/-- `answer_certificate`, up to the sending of the answer, which the actor may be gone for. -/
def answerCertificate (s : Manager) (window : String) (answer : CertificateAnswer)
    (delivered : Bool) : Manager × List Out :=
  match s.live window with
  | some live =>
    if delivered then (s.start (.answering window), [.answered live.handle answer]) else (s, [])
  | none => (s, [])

/-! ### Steps of the tasks -/

def newPump (s : Manager) (window : String) (profile : ConnectionProfile) (handle : SessionId) :
    Pump where
  window := window
  generation := s.nextGeneration + 1
  profileId := profile.id
  session := handle
  aborted := false
  pc := .waiting

/-- The slot of a new session, which is pumped by the next task. -/
def newSlot (s : Manager) (window : String) (profile : ConnectionProfile) (handle : SessionId) :
    Slot where
  profile := profile
  view := .new profile
  live := some ⟨s.nextGeneration + 1, handle, s.tasks.length⟩
  order := (s.slot window).elim (s.nextOrder + 1) (·.order)
  liveSince := none

/-- The counters move on for a session of the window. -/
def advance (s : Manager) (window : String) : Manager :=
  { s with
    nextGeneration := s.nextGeneration + 1
    nextOrder := if (s.slot window).isSome then s.nextOrder else s.nextOrder + 1 }

/-- The second part of `open` under the lock. -/
def insertSession (s : Manager) (task : TaskId) (window : String) (profile : ConnectionProfile)
    (handle : SessionId) : Manager :=
  (((s.advance window).setSlot window (s.newSlot window profile handle)).setTask task
    .done).start (.pump (s.newPump window profile handle))

def runOpening (s : Manager) (task : TaskId) (window : String) (profile : ConnectionProfile) :
    Opening → Manager × List Out
  | .replacing old =>
    ((s.abort old.pump).setTask task (.opening window profile (.ending old)),
      [.closeSent old.handle])
  | .ending old =>
    (s.setTask task (.opening window profile .spawning), [.sessionEnded window old.handle])
  | .spawning => (s, [])
  | .inserting handle => (s.insertSession task window profile handle, [.inserted window handle])

def runClosing (s : Manager) (task : TaskId) (lives : List (String × Live))
    (report : ShutdownReport) : Closing → Manager × List Out
  | .telling =>
    (s.setTask task (.closing lives .waiting report), lives.map fun l => .closeSent l.2.handle)
  | .waiting =>
    match lives with
    | [] => (s.setTask task .done, [])
    | (_, live) :: _ =>
      if (s.pump? live.pump).any (·.pc = .finished) then
        (s.setTask task (.closing lives .ending { report with graceful := report.graceful + 1 }),
          [])
      else (s, [])
  | .ending =>
    match lives with
    | [] => (s, [])
    | (window, live) :: rest =>
      (s.setTask task (.closing rest .waiting report), [.sessionEnded window live.handle])

def runAnswering (s : Manager) (task : TaskId) (window : String) : Manager × List Out :=
  match s.slot window with
  | none => (s.setTask task .done, [])
  | some slot =>
    if slot.view.certificate.isNone then (s.setTask task .done, [])
    else
      let view := slot.view.clearCertificate
      ((s.setSlot window { slot with view := view }).setTask task (.updating window view),
        [.checked task window (some view)])

def setPump (s : Manager) (task : TaskId) (p : Pump) (pc : Pumping) : Manager :=
  s.setTask task (.pump { p with pc := pc })

/-- An event is folded into the view, if its session still owns the window. -/
def foldEvent (s : Manager) (task : TaskId) (p : Pump) (event : SessionEvent) :
    Manager × List Out :=
  match (s.slot p.window).filter (·.ownedBy p.generation) with
  | some slot =>
    let applied := slot.view.apply event
    let view := if applied.2 then some applied.1 else none
    let slot := { slot with view := applied.1 }.noteLive s.now
    ((s.setSlot p.window slot).setPump task p (.forwarding event view),
      [.checked task p.window view])
  | none => (s.setPump task p .waiting, [])

def endStream (s : Manager) (task : TaskId) (p : Pump) : Manager × List Out :=
  match (s.slot p.window).filter (·.ownedBy p.generation) with
  | some slot =>
    ((s.setSlot p.window { slot with live := none, liveSince := none }).setPump task p .ending, [])
  | none => (s.setPump task p .finished, [])

/-- Forwards an event that is not folded into the view only. -/
def forward (task : TaskId) (p : Pump) : SessionEvent → List Out
  | .session (.state _) | .session (.certificatePrompt _ _ _ _) => []
  | .session (.certificatePinned fingerprint) => [.certificatePinned p.profileId fingerprint]
  | event => [.sessionEvent task p.window event]

def runPump (s : Manager) (task : TaskId) (p : Pump) : Manager × List Out :=
  match p.pc with
  | .waiting => (s, [])
  | .received (some event) => s.foldEvent task p event
  | .received none => s.endStream task p
  | .forwarding event view =>
    (s.setPump task p (view.elim .waiting .notifying), forward task p event)
  | .notifying view => (s.setPump task p .waiting, [.viewChanged task p.window view])
  | .ending => (s.setPump task p .finished, [.sessionEnded p.window p.session])
  | .finished => (s, [])

def run (s : Manager) (task : TaskId) : Manager × List Out :=
  match s.tasks[task]? with
  | some (.opening window profile pc) => s.runOpening task window profile pc
  | some (.closing lives pc report) => s.runClosing task lives report pc
  | some (.answering window) => s.runAnswering task window
  | some (.updating window view) => (s.setTask task .done, [.viewChanged task window view])
  | some (.pump p) => s.runPump task p
  | some .done | none => (s, [])

/-! ### The outside -/

/-- The host starts a session for `open`, or fails. -/
def spawn (s : Manager) (task : TaskId) (started : Bool) : Manager × List Out :=
  match s.tasks[task]? with
  | some (.opening window profile .spawning) =>
    if started then
      ({ s with sessions := s.sessions + 1 }.setTask task
          (.opening window profile (.inserting s.sessions)),
        [.spawned window s.sessions])
    else (s.setTask task .done, [])
  | _ => (s, [])

def recv (s : Manager) (task : TaskId) (event : Option SessionEvent) : Manager × List Out :=
  match s.pump? task with
  | some p =>
    if p.pc = .waiting then (s.setPump task p (.received event), []) else (s, [])
  | none => (s, [])

def cancel (s : Manager) (task : TaskId) : Manager × List Out :=
  match s.pump? task with
  | some p =>
    if p.pc = .waiting ∧ p.aborted then (s.setPump task p .finished, []) else (s, [])
  | none => (s, [])

/-- The deadline of `finish` is over. -/
def expire (s : Manager) (task : TaskId) : Manager × List Out :=
  match s.tasks[task]? with
  | some (.closing ((window, live) :: rest) .waiting report) =>
    if (s.pump? live.pump).any (·.pc = .finished) then
      s.runClosing task ((window, live) :: rest) report .waiting
    else
      ((s.abort live.pump).setTask task
        (.closing ((window, live) :: rest) .ending
          { report with abandoned := report.abandoned + 1 }), [])
  | _ => (s, [])

def step (s : Manager) : Action → Manager × List Out
  | .open window profile => s.open window profile
  | .close window => s.close window
  | .shutdown => s.shutdown
  | .toggleStats window => s.toggleStats window
  | .answerCertificate window answer delivered => s.answerCertificate window answer delivered
  | .run task => s.run task
  | .spawn task started => s.spawn task started
  | .recv task event => s.recv task event
  | .cancel task => s.cancel task
  | .expire task => s.expire task
  | .elapse time => ({ s with now := s.now + time }, [])

end Manager

end Drift.App
