import RecurringWork.Json
import RecurringWork.Recurrence
import RecurringWork.Work.State

/-!
# RecurringWork.Work.Item

**Work items.** An item is a recurring job, one execution of a job that can be
resumed, or a message for a delivery channel (`WorkKind`), together with its place in
the life cycle, its times and its budget of deferrals (`WorkItem`).

The store fills in what a fresh item leaves open: its identity, the time at which it
is due, and how often it may be deferred.
-/

namespace RecurringWork

/-- The kinds of work, without their data. -/
inductive WorkTag
  | job
  | jobInstance
  | notification
  deriving DecidableEq, Repr

namespace WorkTag

def every : List WorkTag := [job, jobInstance, notification]

def name : WorkTag → String
  | job => "job"
  | jobInstance => "job_instance"
  | notification => "notification"

def ofName? (s : String) : Option WorkTag := every.find? fun t => t.name == s

end WorkTag

/-- What a work item is. -/
inductive WorkKind
  /-- A recurring job. Completing it brings forth the next occurrence. -/
  | job (name : String) (trigger : Recurrence)
  /-- One execution of a job, resumable from `cursor`. -/
  | jobInstance (jobId : Nat) (cursor : Option String)
  /-- A message for a delivery channel. -/
  | notification (channel : String) (payload : Json)
  deriving Repr, Inhabited

namespace WorkKind

def tag : WorkKind → WorkTag
  | .job _ _ => .job
  | .jobInstance _ _ => .jobInstance
  | .notification _ _ => .notification

/-- The recurrence of a job. -/
def trigger? : WorkKind → Option Recurrence
  | .job _ trigger => some trigger
  | _ => none

/-- The position that an execution has saved. -/
def cursor? : WorkKind → Option String
  | .jobInstance _ cursor => cursor
  | _ => none

/-- The kind with another saved position, if it has one to save. -/
def withCursor? (cursor : Option String) : WorkKind → Option WorkKind
  | .jobInstance id _ => some (.jobInstance id cursor)
  | _ => none

/-- The routing key of an item that names none: a message goes by its channel, other
work by its kind. -/
def defaultRoute : WorkKind → String
  | .notification channel _ => channel
  | kind => kind.tag.name

end WorkKind

/-- A unit of work. Times are instants. -/
structure WorkItem where
  /-- Given by the store; 0 before. -/
  id : Nat
  kind : WorkKind
  /-- What wake-ups about this item are addressed to. -/
  route : String
  state : WorkState
  /-- When the item is due. -/
  scheduleTime : Option Int
  creationTime : Int
  lastExecutionTime : Option Int
  stateChangedAt : Int
  /-- How often the item was deferred. -/
  deferCount : Nat
  /-- How often the item may be deferred before it is dropped. -/
  maxDeferCount : Option Nat
  /-- When the item becomes worthless. -/
  deadline : Option Int
  /-- When the item is due first, if nothing else says. -/
  recurrence : Option Recurrence
  deriving Repr, Inhabited

namespace WorkItem

/-- How often an item may be deferred that does not say. -/
def defaultMaxDeferCount : Nat := 5

/-- The largest deferral count that can be stored. -/
def deferCountLimit : Nat := 4294967295

/-- A fresh item. -/
def ofKind (kind : WorkKind) : WorkItem where
  id := 0
  kind := kind
  route := kind.defaultRoute
  state := .new
  scheduleTime := none
  creationTime := 0
  lastExecutionTime := none
  stateChangedAt := 0
  deferCount := 0
  maxDeferCount := none
  deadline := none
  recurrence := none

/-- The recurrence that decides when the item is due: its own, or else that of the
job. -/
def effectiveRecurrence? (i : WorkItem) : Option Recurrence := i.recurrence <|> i.kind.trigger?

def effectiveMaxDeferCount (i : WorkItem) : Nat := i.maxDeferCount.getD defaultMaxDeferCount

/-- The item is waiting and due at `now`. -/
def isDue (i : WorkItem) (now : Int) : Bool :=
  i.state == .new && i.scheduleTime.any (· ≤ now)

/-- The item is waiting although its deadline has come. -/
def isPastDeadline (i : WorkItem) (now : Int) : Bool :=
  i.state == .new && i.deadline.any (· ≤ now)

/-- The item has been deferred as often as it may. -/
def deferLimitReached (i : WorkItem) : Bool := i.effectiveMaxDeferCount ≤ i.deferCount

/-- The history of the item once it is completed. -/
def history (i : WorkItem) (completedAt : Int) : History :=
  ⟨i.scheduleTime, i.lastExecutionTime, some completedAt⟩

/-- The item deferred once more. The count stops at its largest value. -/
def deferred (i : WorkItem) : WorkItem :=
  { i with deferCount := min (i.deferCount + 1) deferCountLimit }

@[simp] theorem id_deferred (i : WorkItem) : i.deferred.id = i.id := rfl

theorem state_eq_new_of_isDue {i : WorkItem} {now : Int} (h : i.isDue now) : i.state = .new := by
  simp only [isDue, Bool.and_eq_true, beq_iff_eq] at h
  exact h.1

end WorkItem

end RecurringWork
