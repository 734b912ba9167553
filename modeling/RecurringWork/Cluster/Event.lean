import RecurringWork.Cluster.Address

/-!
# RecurringWork.Cluster.Event

**Events that nodes send each other.** An event says what happened (`EventKind`),
carries the tags by which listeners find it, and names the node that fired it. The
tags of a fresh event are fixed by its kind, from the narrowest to the widest; more
can be added, none twice.
-/

namespace RecurringWork

/-- A tag of an event. -/
inductive Category
  /-- Every event. -/
  | any
  /-- Whatever affects when work runs. -/
  | scheduling
  /-- A request to run an actor. -/
  | actorReschedule
  /-- Whatever concerns the backlog. -/
  | backlog
  /-- New work in a slice of the backlog. -/
  | backlogChanged
  /-- Events of the application's own. -/
  | custom
  deriving DecidableEq, Repr

namespace Category

def every : List Category := [any, scheduling, actorReschedule, backlog, backlogChanged, custom]

def name : Category → String
  | any => "any"
  | scheduling => "scheduling"
  | actorReschedule => "actor_reschedule"
  | backlog => "backlog"
  | backlogChanged => "backlog_changed"
  | custom => "custom"

def ofName? (s : String) : Option Category := every.find? fun c => c.name == s

end Category

/-- What an event says. -/
inductive EventKind
  /-- Run the named actor after `delay` milliseconds. -/
  | rescheduleActor (actor : String) (delay : Int)
  /-- The slice called `route` has work due at `due`. -/
  | backlogChanged (route : String) (due : Int)
  /-- Something of the application's own. -/
  | custom (topic : String) (payload : Json)
  deriving Repr, Inhabited

namespace EventKind

/-- The tags of a fresh event. -/
def categories : EventKind → List Category
  | .rescheduleActor _ _ => [.actorReschedule, .scheduling, .any]
  | .backlogChanged _ _ => [.backlogChanged, .backlog, .scheduling, .any]
  | .custom _ _ => [.custom, .any]

/-- The event in words. -/
def description : EventKind → String
  | .rescheduleActor actor delay =>
      "Reschedule actor " ++ actor ++ " in " ++ toString delay ++ "ms"
  | .backlogChanged route due => "Backlog " ++ route ++ " has work due at " ++ toString due
  | .custom topic _ => "Custom event: " ++ topic

def toJson : EventKind → Json
  | .rescheduleActor actor delay =>
      .obj [("actor_name", .str actor), ("delay_ms", .int delay), ("type", .str "reschedule_actor")]
  | .backlogChanged route due =>
      .obj [("next_schedule_time", .int due), ("partition_key", .str route),
        ("type", .str "backlog_changed")]
  | .custom topic payload =>
      .obj [("payload", payload), ("topic", .str topic), ("type", .str "custom")]

/-- The kind that a value stands for. -/
def ofJson? (place : Json.Place) : Json → Option EventKind :=
  Json.variant? place
    [⟨"reschedule_actor", ["actor_name", "delay_ms"], fun ms => do
        pure (.rescheduleActor (← Json.required? Json.text? "actor_name" ms)
          (← Json.required? Json.instant? "delay_ms" ms))⟩,
      ⟨"backlog_changed", ["partition_key", "next_schedule_time"], fun ms => do
        pure (.backlogChanged (← Json.required? Json.text? "partition_key" ms)
          (← Json.required? Json.instant? "next_schedule_time" ms))⟩,
      ⟨"custom", ["topic", "payload"], fun ms => do
        pure (.custom (← Json.required? Json.text? "topic" ms)
          (← Json.required? (some ∘ Json.canonical) "payload" ms))⟩]

end EventKind

/-- An event between nodes. -/
structure Event where
  kind : EventKind
  categories : List Category
  /-- The node that fired it. -/
  origin : Option Address
  deriving Repr, Inhabited

namespace Event

/-- A fresh event. -/
def ofKind (kind : EventKind) : Event := ⟨kind, kind.categories, none⟩

/-- A request to run an actor. -/
def rescheduleActor (actor : String) (delay : Int) : Event :=
  ofKind (.rescheduleActor actor delay)

/-- The news of work in a slice. -/
def backlogChanged (route : String) (due : Int) : Event := ofKind (.backlogChanged route due)

def hasCategory (e : Event) (c : Category) : Bool := e.categories.contains c

/-- The event with one more tag, unless it has it. -/
def withCategory (e : Event) (c : Category) : Event :=
  if e.hasCategory c then e else { e with categories := e.categories ++ [c] }

def withOrigin (e : Event) (node : Address) : Event := { e with origin := some node }

def description (e : Event) : String := e.kind.description

def toJson (e : Event) : Json :=
  .obj [("categories", .arr (e.categories.map fun c => .str c.name)), ("kind", e.kind.toJson),
    ("origin", .ofOption Address.toJson e.origin)]

/-- The event that a value stands for. Its tags are taken as they are. -/
def ofJson? (j : Json) : Option Event := do
  let ms ← j.record? ["kind", "categories", "origin"]
  pure ⟨← Json.required? (EventKind.ofJson? (.text 1)) "kind" ms,
    ← Json.required? (Json.list? fun c => c.name?.bind Category.ofName?) "categories" ms,
    ← Json.optional? Address.ofJson? "origin" ms⟩

def decode? (text : String) : Option Event := (Json.read? text).bind ofJson?

@[simp] theorem kind_withCategory (e : Event) (c : Category) : (e.withCategory c).kind = e.kind := by
  unfold withCategory; split <;> rfl

end Event

end RecurringWork
