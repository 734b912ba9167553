import RecurringWork.Actor.System
import RecurringWork.Cluster.Event
import RecurringWork.Dispatch.Run

/-!
# RecurringWork.Simulation.Script

**What a simulation is told to do.** A script is a list of steps. A step names the
objects that it makes or uses. Some steps hold further steps: the body of a
transaction, what a callback does when it is called, what a run of an actor does, and
so on. The types here for parts of the system are therefore parameters of the type of
steps, `Step`, which ties the knot.

What did not decode is held as `none`, because it is only refused when its turn comes.
-/

namespace RecurringWork.Simulation

/-- What a callback does besides leaving a notice. -/
structure Reaction (σ : Type) where
  steps : List σ
  /-- On which of its calls it takes its steps, counted from 1. -/
  call : Nat
  /-- It breaks off at the end of every call. -/
  breaksOff : Bool
  deriving Inhabited

/-- One run of a scripted actor. -/
structure Performance (σ : Type) where
  pause : Option Duration
  calls : List σ
  result : RunResult

/-- What a scripted processor says about an item, and does before. -/
inductive Judgement (σ : Type)
  | final (verdict : Verdict)
  | breaksOff
  | after (pause : Option Duration) (calls : List σ) (next : Judgement σ)
  deriving Inhabited

/-- Where the item comes from that is handed to the backlog. -/
inductive Source
  | stored (id : Nat)
  | snapshot (name : String)

inductive BacklogStep
  | add (item : Option WorkItem)
  | get (id : Nat)
  | due (share : Share) (limit : Option Nat)
  | next (share : Share)
  | complete (id : Nat)
  | expire
  | purge (olderThan : Int)
  | size
  | plans
  | snapshot (id : Nat) (name : String)
  /-- Hand in an item with some fields of its stored form replaced. -/
  | update (source : Source) (fields : List (String × Json))
  /-- The same, deferred once more. -/
  | defer (source : Source) (fields : List (String × Json))

/-- Changes of what a stand-in for a membership facility says. -/
structure FacilityChange where
  members : Option (List Address)
  isCoordinator : Option Bool
  races : Option Nat
  /-- The reason for which it refuses events, `some none` for none. -/
  refusal : Option (Option String)

/-- Steps on the cluster. A node is named; without a name an event goes to listeners
that belong to no node. -/
inductive ClusterStep (σ : Type)
  | join (node : String) (address : Address)
  | member (node : String) (address : Address)
  | standalone (node : String) (address : Address)
  | standIn (node : String) (address : Address) (members : List Address) (isCoordinator : Bool)
  | changeStandIn (node : String) (change : FacilityChange)
  | notifyStandIn (node : String)
  | deliverStandIn (node : String) (event : Option Event)
  | leave (address : Address)
  | reachable (address : Address) (value : Bool)
  | group
  | memberView (node : String)
  | memberCallback (node name : String) (reaction : Reaction σ)
  | memberSink (node name : String) (reaction : Reaction σ)
  | broadcast (node : String) (event : Option Event) (excluded : List Address)
  | info (node : String)
  | changed (node : String)
  | viewListener (node name : String) (reaction : Reaction σ)
  | subscribe (node : Option String) (name : String) (category : Option Category)
      (reaction : Reaction σ)
  | unsubscribe (node : Option String) (name : String)
  | listenerCount
  | dispatch (event : Option Event)
  | fire (node : String) (event : Option Event)
  | fireOthers (node : String) (event : Option Event)
  | dropNode (node : String)

/-- Steps on actors and their managers. -/
inductive ActorStep (σ : Type)
  /-- A manager, on a named scheduler or one of its own. A retry policy that did not
  decode is `some none`. -/
  | manager (name : String) (node scheduler : Option String) (retry : Option (Option RetryPolicy))
  | actor (name : String) (runs : List (Performance σ))
  | register (manager name actor : String) (delay : Int)
  | registerSuspended (manager name actor : String)
  | registerCoordinator (manager name actor : String) (delay : Int)
  | reschedule (manager name : String) (delay : Int)
  | wake (manager name : String) (delay : Int)
  | remove (manager name : String)
  | registered (manager name : String)
  | names (manager : String)
  | stop (manager : String) (limit : Duration)
  | drop (manager : String)

/-- Steps on workers and writers. -/
inductive DispatchStep (σ : Type)
  | worker (actor : String) (key : PartitionKey) (node : Option String) (pace : Pace)
      (judgements : List (Nat × List (Judgement σ))) (otherwise : Judgement σ)
  | route (actor manager name : String)
  | run (actor : String)
  | wakeTarget (actor : String)
  | setWakeTarget (actor : String) (target : Int)
  | partition (actor : String)
  | writer (writer manager name actor : String) (limit : Duration)
      (route : Option (String × PartitionKey))
  | submit (writer : String) (item : Option WorkItem)
  | submitAll (writer : String) (items : Option (List WorkItem))

inductive SchedulerStep (σ : Type)
  | scheduler (name : String)
  /-- A scheduler with nothing to run its jobs. -/
  | homeless
  | schedule (scheduler job : String) (delay : Duration) (pause : Option Duration) (calls : List σ)
  | cancel (job : String)
  | handle (job : String)
  | active (scheduler : String)
  | stop (scheduler : String)
  | stopped (scheduler : String)
  | stopWithin (scheduler : String) (limit : Duration)
  /-- A registry of schedulers with this default. -/
  | registry (scheduler : String)
  | enrol (name scheduler : String)
  | lookUp (name : Option String)
  | enrolled
  | stopAll (limit : Duration)

/-- A step of a script. -/
inductive Step
  | now
  | advance (by_ : Duration)
  | setClock (t : Int)
  | sleep (length : Duration)
  | backlog (step : BacklogStep)
  | inTransaction
  /-- A transaction around some steps. A step that is marked fails the body if it
  fails; with a message the body fails at its end. -/
  | transaction (joins : Bool) (limit : Duration) (failure : Option String)
      (body : List (Bool × Step))
  | listener (name : String) (reaction : Reaction Step)
  /-- Take the steps elsewhere, and wait for that. -/
  | outside (steps : List Step)
  | cluster (step : ClusterStep Step)
  | actors (step : ActorStep Step)
  | dispatch (step : DispatchStep Step)
  | schedulers (step : SchedulerStep Step)
  /-- A step that nobody knows. -/
  | unknown
  deriving Inhabited

end RecurringWork.Simulation
