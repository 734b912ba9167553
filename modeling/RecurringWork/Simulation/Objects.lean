import RecurringWork.Cluster.Coordinator
import RecurringWork.Dispatch.Run
import RecurringWork.Simulation.Script

/-!
# RecurringWork.Simulation.Objects

**What a script makes.** Objects are known by number; a script calls them by name
(`Names`). Listeners and callbacks are values that say what is to be done when they
are called (`ChangeHook`, `ViewHook`, `EventHook`, `EventSink`, `PostCommit`).
-/

namespace RecurringWork.Simulation

/-- Values under names. -/
abbrev Bindings (α : Type) := List (String × α)

namespace Bindings

def find? {α : Type} (bs : Bindings α) (name : String) : Option α :=
  (List.find? (fun b => b.1 == name) bs).map Prod.snd

def drop {α : Type} (bs : Bindings α) (name : String) : Bindings α :=
  List.filter (fun b => b.1 != name) bs

/-- Bind a name, instead of what it was bound to. -/
def bind {α : Type} (bs : Bindings α) (name : String) (value : α) : Bindings α :=
  (name, value) :: bs.drop name

end Bindings

/-! ### Listeners -/

/-- What is told of a change of the membership. -/
inductive ChangeHook
  /-- A node computes its view anew. -/
  | refresh (node : Nat)
  | callback (number : Nat)

/-- What takes events that are sent to a member. -/
inductive EventSink
  /-- The listeners of a node hear them. -/
  | listeners (node : Nat)
  | callback (number : Nat)

/-- What is told of a published view. -/
inductive ViewHook
  /-- A manager runs an actor only while its node coordinates. -/
  | duty (manager : Nat) (name : String) (actor : Nat) (delay : Int)
  | callback (number : Nat)

/-- What hears events. -/
inductive EventHook
  /-- A manager heeds requests to run an actor. -/
  | requests (manager : Nat)
  /-- A worker heeds news of work in its slice. -/
  | news (worker manager : Nat) (name : String)
  | callback (number : Nat)

/-- What is told of a commit. -/
inductive PostCommit
  | callback (name : String) (reaction : Reaction Step)
  /-- A writer has added work that is due at `due`. -/
  | nudge (writer : Nat) (due : Int)

/-- What a callback is for, which decides the notice it leaves. -/
inductive CallbackKind
  | change
  | view
  | event (node : String)

/-- A callback of a script. -/
structure Callback where
  name : String
  kind : CallbackKind
  reaction : Reaction Step
  /-- How often it was called. -/
  calls : Nat

/-! ### Objects -/

/-- What a node asks for the members of its cluster. -/
inductive Facility
  | group
  /-- Nothing: the node is by itself. -/
  | alone
  /-- A stand-in, which says what it was told to say. -/
  | standIn (number : Nat)

/-- A membership facility that says what it was told to say. -/
structure StandIn where
  members : List Address
  isCoordinator : Bool
  /-- Before so many answers about the members it has the node look at them anew. -/
  races : Nat
  /-- The reason for which it refuses events. -/
  refusal : Option String
  callbacks : List ChangeHook
  sinks : List EventSink

/-- A node of the cluster. -/
structure Node where
  coordinator : Coordinator ViewHook EventHook
  facility : Facility

inductive ActorBody
  /-- Its runs follow a list. `count` of them have begun. -/
  | scripted (runs : List (Performance Step)) (count : Nat)
  /-- It works a slice of the backlog. The judgements on an item follow a list, and
  `counts` says how many of them have been given. -/
  | worker (worker : Worker) (judgements : List (Nat × List (Judgement Step)))
      (otherwise : Judgement Step) (counts : List (Nat × Nat))

/-- An actor under the name that its script gives it. -/
structure NamedActor where
  name : String
  body : ActorBody

/-- A job of a script. -/
structure Errand where
  name : String
  pause : Option Duration
  calls : List Step

/-- Schedulers by name, with a default. -/
structure SchedulerRegistry where
  fallback : Nat
  named : Bindings Nat

/-- Something that lives as long as it is held. -/
inductive Thing
  | node (number : Nat)
  | manager (number : Nat)
  | actor (number : Nat)
  | writer (number : Nat)
  deriving DecidableEq, Repr

/-- What the names of a script stand for. -/
structure Names where
  nodes : Bindings Nat
  members : Bindings (Address × Facility)
  subscriptions : Bindings Nat
  managers : Bindings Nat
  actors : Bindings Nat
  writers : Bindings Nat
  schedulers : Bindings Nat
  jobs : Bindings JobRef
  snapshots : Bindings WorkItem
  registry : Option SchedulerRegistry

end RecurringWork.Simulation
