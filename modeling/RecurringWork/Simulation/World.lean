import RecurringWork.Clock
import RecurringWork.Cluster.Group
import RecurringWork.Dispatch.Writer
import RecurringWork.Simulation.Rounds
import RecurringWork.Simulation.Task

/-!
# RecurringWork.Simulation.World

**Everything that exists in a simulation**: one backlog, one clock, one group, and any
number of nodes, managers, workers and so on, with the tasks that are at work. What a
task does without waiting is an `Act`.
-/

namespace RecurringWork.Simulation

/-- Everything that exists. -/
structure World where
  /-- Milliseconds since the start. -/
  elapsed : Nat
  clock : Clock
  backlog : Backlog
  group : Group ChangeHook EventSink
  /-- The listeners that belong to no node. -/
  dispatcher : Dispatcher EventHook
  nodes : List Node
  standIns : List StandIn
  system : ActorSystem
  actors : List NamedActor
  writers : List Writer
  errands : List Errand
  callbacks : List Callback
  names : Names
  /-- What happened since the script took its last step. -/
  notices : List Notice
  tasks : List Task
  rounds : Rounds
  nextTask : Nat
  nextTimer : Nat

namespace World

/-- What the clock shows. -/
def now (w : World) : Int := w.clock.read w.elapsed

def node? (w : World) (name : String) : Option Nat := w.names.nodes.find? name

def worker? (w : World) (actor : Nat) : Option Worker :=
  match w.actors[actor]? with
  | some ⟨_, .worker c _ _ _⟩ => some c
  | _ => none

/-- Change the plan of a worker. -/
def setTarget (w : World) (actor : Nat) (target : WakeTarget) : World :=
  { w with actors := w.actors.modify actor fun a =>
      match a.body with
      | .worker c js j counts => { a with body := .worker { c with target } js j counts }
      | .scripted _ _ => a }

/-- The view of a worker's node, if it has one. -/
def workerView? (w : World) (c : Worker) : Option View :=
  (c.coordinator.bind fun n => w.nodes[n]?).map fun n => n.coordinator.view

/-- The members that a facility names to a node, and whether the node coordinates
them. -/
def membership (w : World) (node : Address) : Facility → List Address × Bool
  | .group => (w.group.addresses, w.group.coordinator? == some node)
  | .alone => ([node], true)
  | .standIn n =>
      match w.standIns[n]? with
      | some s => (s.members, s.isCoordinator)
      | none => ([], false)

end World

/-! ### Actions -/

/-- A task at work: the world, and the stack of the task. -/
structure Turn where
  world : World
  stack : List Frame

/-- Something that a task does without waiting. -/
abbrev Act (α : Type) := StateM Turn α

namespace Act

def world : Act World := do return (← get).world

def modifyWorld (f : World → World) : Act Unit := modify fun t => { t with world := f t.world }

/-- Leave a notice. -/
def note (n : Notice) : Act Unit := modifyWorld fun w => { w with notices := w.notices ++ [n] }

def push (f : Frame) : Act Unit := modify fun t => { t with stack := f :: t.stack }

/-- The scope of the transaction around what is being done. -/
def scope : Act (Option (Scope Write PostCommit)) := do return scopeOf (← get).stack

def setScope (s : Option (Scope Write PostCommit)) : Act Unit :=
  match s with
  | some s => modify fun t => { t with stack := withScope s t.stack }
  | none => pure ()

def setSystem (s : ActorSystem) : Act Unit := modifyWorld fun w => { w with system := s }

def setBacklog (b : Backlog) : Act Unit := modifyWorld fun w => { w with backlog := b }

def modifyNames (f : Names → Names) : Act Unit := modifyWorld fun w => { w with names := f w.names }

/-- The number for a timer that is set now. -/
def setTimer : Act Nat := do
  let n := (← world).nextTimer
  modifyWorld fun w => { w with nextTimer := n + 1 }
  return n

/-- Change the coordinator of a node. -/
def modifyNode (n : Nat)
    (f : Coordinator ViewHook EventHook → Coordinator ViewHook EventHook) : Act Unit :=
  modifyWorld fun w =>
    { w with nodes := w.nodes.modify n fun k => { k with coordinator := f k.coordinator } }

def answer (a : Answer) : Act Control := return .give (.answer a)

/-- There is nothing to say. -/
def nothing : Act Control := return .give .nothing

/-- Answer what an operation yields, or how it failed. -/
def answerExcept {α : Type} (f : α → Answer) : Except Failure α → Act Control
  | .ok a => answer (f a)
  | .error (.error e) => answer (.failure e)
  | .error .fault => return .fault

/-- Let the writes of an operation take effect. -/
def record {α : Type} (d : Backlog.Draft α) : Act (Except Error α) := do
  let (r, b, s) := (← world).backlog.record (← scope) d
  setBacklog b
  setScope s
  return r

/-- Take steps one after the other. -/
def sequence (trace : Trace) : List Step → Act Control
  | [] => nothing
  | s :: rest => do
      push (.sequence trace rest)
      return .step s

/-- Wait so long. -/
def sleep (d : Duration) : Act Control := do
  return .await (.timer ((← world).elapsed + d.timer) none)

def sequenceAfter (pause : Option Duration) (waking : Waking) (trace : Trace) (calls : List Step) :
    Act Control := do
  match pause with
  | none => sequence trace calls
  | some d =>
      push (.awake waking trace calls)
      sleep d

/-- To look at the world is to go on with it. -/
theorem run_world {α : Type} (f : World → Act α) (t : Turn) :
    (do f (← world) : Act α).run t = (f t.world).run t := rfl

theorem run_scope {α : Type} (f : Option (Scope Write PostCommit) → Act α) (t : Turn) :
    (do f (← scope) : Act α).run t = (f (scopeOf t.stack)).run t := rfl

end Act

end RecurringWork.Simulation
