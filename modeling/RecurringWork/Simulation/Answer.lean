import RecurringWork.Backlog
import RecurringWork.Cluster.Event
import RecurringWork.Cluster.View
import RecurringWork.Scheduler
import RecurringWork.Work.Codec

/-!
# RecurringWork.Simulation.Answer

**What a simulation shows.** Every step of a script has an `Answer`. While it is
carried out, callbacks, runs and processors leave `Notice`s in the order in which
they act.
-/

namespace RecurringWork.Simulation

/-- What a step of a script answers. -/
inductive Answer
  | nothing
  | flag (value : Bool)
  | number (value : Int)
  | text (value : String)
  | texts (values : List String)
  /-- A time, if there is one. -/
  | time (value : Option Int)
  /-- The step was refused or broke off. -/
  | failure (cause : Failure)
  /-- An event that did not reach every node. -/
  | broadcast (cause : BroadcastError)
  /-- Something that cannot be set up, told without the words that go before the reason
  in an error. -/
  | unusable (reason : String)
  | item (value : WorkItem)
  | completion (value : Completion)
  /-- Items with the times at which they are due. -/
  | timetable (values : List WorkItem)
  | view (value : View)
  /-- A node with its view. -/
  | node (address : Address) (view : View)
  /-- A node by itself. -/
  | alone (members : List Address) (view : View)
  /-- A group with the member that coordinates it. -/
  | group (members : List Address) (coordinator : Option Address)
  /-- A member with what it knows of its group. -/
  | member (address : Address) (members : List Address) (coordinates : Bool)
  /-- A transaction with the answers of its steps. -/
  | transaction (outcome : Except Failure Unit) (steps : List Answer)
  | answers (values : List Answer)
  | drain (value : Drain)
  | drains (values : List (String × Drain))
  | handle (number : Nat) (cancelled : Bool)
  /-- The pause after a run. -/
  | pause (value : Duration)
  | partition (index count : Nat)

/-- A refusal or a fault as it is shown. -/
def failureJson : Failure → Json
  | .fault => .obj [("error", .str "panic")]
  | .error e =>
      match e.message? with
      | some m => .obj [("error", .str e.name), ("message", .str m)]
      | none => .obj [("error", .str e.name)]

namespace Answer

/-- What did not decode is answered like this. -/
def undecodable : Answer := failure (.error .serialization)

/-- The answer of an operation that may be refused. -/
def ofExcept {α : Type} (answer : α → Answer) : Except Failure α → Answer
  | .ok a => answer a
  | .error f => failure f

/-- The answer of an operation that is refused or just done. -/
def done : Except Error Unit → Answer
  | .ok () => text "ok"
  | .error e => failure e

/-- The answer says that something went wrong. -/
def isFailure : Answer → Bool
  | failure _ | broadcast _ | unusable _ => true
  | _ => false

private def addressesJson (as : List Address) : Json := .arr (as.map fun a => .str a.render)

private def drainMembers (d : Drain) : Json :=
  .obj [("drained", .bool d.complete), ("still_running", .ofNat d.running)]

private def timetableRow (i : WorkItem) : Json :=
  .arr [.ofNat i.id, .ofOption .int i.scheduleTime]

mutual

def toJson : Answer → Json
  | nothing => .null
  | flag b => .bool b
  | number n => .int n
  | text s => .str s
  | texts ss => .arr (ss.map .str)
  | time t => .ofOption .int t
  | failure f => failureJson f
  | broadcast e => .obj [("error", .str "Broadcast"), ("message", .str e.message)]
  | unusable reason => .obj [("error", .str "Configuration"), ("message", .str reason)]
  | item i => i.toJson
  | completion c => .obj [("item", c.item.toJson), ("next", .ofOption WorkItem.toJson c.next)]
  | timetable items => .arr (items.map timetableRow)
  | view v => v.toJson
  | node a v =>
      .obj [("info", v.toJson), ("is_coordinator", .bool v.isCoordinator), ("local", .str a.render)]
  | alone members v => .obj [("info", v.toJson), ("members", addressesJson members)]
  | group members c =>
      .obj [("coordinator", .ofOption (fun a => .str a.render) c), ("members", addressesJson members)]
  | member a members coordinates =>
      .obj [("group", .ofNat members.length), ("is_coordinator", .bool coordinates),
        ("local", .str a.render), ("members", addressesJson members)]
  | transaction outcome steps =>
      .obj [("outcome", match outcome with
          | .ok () => .str "committed"
          | .error f => failureJson f),
        ("steps", .arr (toJsons steps))]
  | answers steps => .arr (toJsons steps)
  | drain d => drainMembers d
  | drains ds => .arr (ds.map fun d => .arr [.str d.1, drainMembers d.2])
  | handle n cancelled => .obj [("cancelled", .bool cancelled), ("id", .ofNat n)]
  | pause d => .obj [("reschedule", .ofDuration d)]
  | partition index count => .arr [.ofNat index, .ofNat count]

def toJsons : List Answer → List Json
  | [] => []
  | a :: rest => toJson a :: toJsons rest

end

end Answer

/-- Something that happened while a step was carried out. -/
inductive Notice
  /-- A transaction committed, and its listener was told. -/
  | committed (listener : String) (stored : Nat) (inTransaction : Bool)
  /-- A callback took a step. -/
  | reaction (answer : Answer)
  /-- The membership changed. -/
  | changed (callback : String)
  /-- A view was published. -/
  | view (listener : String) (view : View)
  /-- An event was heard at a node, or at none in particular. -/
  | heard (listener node : String) (event : Event)
  /-- An event was handed to a membership facility. -/
  | sent (event : Event) (excluded : List Address)
  | runBegan (actor : String) (run elapsed : Nat)
  | runWoke (actor : String) (run elapsed : Nat)
  /-- A run, a processor or a job took a step. -/
  | call (name : String) (answer : Answer)
  /-- An item was handed to a processor. -/
  | processed (actor : String) (id deferrals elapsed : Nat)
  | jobBegan (name : String) (elapsed : Nat)
  | jobWoke (name : String) (elapsed : Nat)

def Notice.toJson : Notice → Json
  | committed listener stored inTransaction =>
      .obj [("commit", .str listener), ("in_tx", .bool inTransaction), ("len", .ofNat stored)]
  | reaction a => .obj [("react", a.toJson)]
  | changed callback => .obj [("changed", .str callback)]
  | view listener v =>
      .obj [("is_coordinator", .bool v.isCoordinator), ("position", .ofNat v.position),
        ("size", .ofNat v.size), ("version", .ofNat v.version), ("view", .str listener)]
  | heard listener node e =>
      .obj [("at", .str node), ("event", .str e.description),
        ("origin", .ofOption (fun a => .str a.render) e.origin), ("sub", .str listener)]
  | sent e excluded =>
      .obj [("broadcast", e.toJson), ("excluded", .arr (excluded.map fun a => .str a.render))]
  | runBegan actor run elapsed =>
      .obj [("n", .ofNat run), ("run", .str actor), ("t", .ofNat elapsed)]
  | runWoke actor run elapsed =>
      .obj [("end", .str actor), ("n", .ofNat run), ("t", .ofNat elapsed)]
  | call name a => .obj [("call", .str name), ("r", a.toJson)]
  | processed actor id deferrals elapsed =>
      .obj [("defers", .ofNat deferrals), ("id", .ofNat id), ("process", .str actor),
        ("t", .ofNat elapsed)]
  | jobBegan name elapsed => .obj [("t", .ofNat elapsed), ("task", .str name)]
  | jobWoke name elapsed => .obj [("t", .ofNat elapsed), ("task_end", .str name)]

/-- The answer of a step with what happened meanwhile. -/
structure Report where
  answer : Answer
  notices : List Notice

def Report.toJson (r : Report) : Json :=
  if r.notices.isEmpty then .obj [("r", r.answer.toJson)]
  else .obj [("ev", .arr (r.notices.map Notice.toJson)), ("r", r.answer.toJson)]

end RecurringWork.Simulation
