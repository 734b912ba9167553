import RecurringWork.Backlog.Write

/-!
# RecurringWork.Backlog.Change

**The operations that change the backlog.** Each looks at the stored items, refuses or
answers, and drafts the writes that its answer stands for; `Backlog.record` lets them
take effect. What an operation does to the backlog itself, at once and for good, is to
use up identities and to keep the plans it has built. One that is refused uses up no
identity.

Deferral is bounded here: an item that has been deferred as often as it may is
dropped instead of stored as waiting (`Backlog.update`).
-/

namespace RecurringWork.Backlog

/-- When an item that is added is due, and the plans with the one that says so. -/
def firstDue (b : Backlog) (now : Int) (i : WorkItem) : Except Failure Int × PlanCache :=
  match i.scheduleTime with
  | some t => (.ok t, b.plans)
  | none =>
      match i.effectiveRecurrence? with
      | none => (.ok now, b.plans)
      | some r =>
          match b.plans.resolve r with
          | .error e => (.error e, b.plans)
          | .ok (p, plans) => (p.plan.next now .empty, plans)

/-- The item as it is stored when it is added. -/
def admitted (b : Backlog) (now due : Int) (i : WorkItem) : WorkItem :=
  { i with
    id := b.nextId
    state := .new
    scheduleTime := some due
    creationTime := now
    stateChangedAt := now
    maxDeferCount := some (i.maxDeferCount.getD b.maxDeferCount) }

def add (b : Backlog) (now : Int) (i : WorkItem) : Except Failure (Draft WorkItem) × Backlog :=
  match b.firstDue now i with
  | (.error f, plans) => (.error f, { b with plans })
  | (.ok due, plans) =>
      let stored := b.admitted now due i
      (.ok ⟨stored, [.insert stored]⟩, { b with plans, nextId := b.nextId + 1 })

/-- The state in which an item is stored that is handed in. -/
def targetState (i : WorkItem) : WorkState :=
  if i.state == .new && i.deferLimitReached then .dropped else i.state

/-- Store an item instead of the one of its identity. -/
def update (b : Backlog) (now : Int) (i : WorkItem) : Except Error (Draft WorkItem) := do
  let stored ← b.stored i.id
  let target := targetState i
  if stored.state.isTerminal then .error (stored.state.refusal target)
  else
    let i :=
      { i with
        state := target
        creationTime := stored.creationTime
        stateChangedAt := if target == stored.state then stored.stateChangedAt else now }
    .ok ⟨i, [.replace i none]⟩

/-- Store an item that was deferred once more. -/
def defer (b : Backlog) (now : Int) (i : WorkItem) : Except Error (Draft WorkItem) :=
  b.update now i.deferred

/-- The next occurrence of a job that was completed. -/
def successor (id : Nat) (now due : Int) (i : WorkItem) : WorkItem :=
  { i with
    id
    state := .new
    scheduleTime := some due
    creationTime := now
    lastExecutionTime := none
    stateChangedAt := now
    deferCount := 0
    deadline := none }

/-- The next occurrence of a job that was completed at `now`, unless its recurrence has
ended. -/
def nextOccurrence (b : Backlog) (now : Int) (i : WorkItem) :
    Except Failure (Option WorkItem) × Backlog :=
  match i.kind.trigger? with
  | none => (.ok none, b)
  | some r =>
      match b.plans.resolve r with
      | .error e => (.error e, b)
      | .ok (p, plans) =>
          let b := { b with plans }
          let history := i.history now
          match p.plan.next now history with
          | .error f => (.error f, b)
          | .ok due =>
              -- Only now is it certain that there will be another item to be numbered.
              if history.isEndedBy due then (.ok none, b)
              else (.ok (some (successor b.nextId now due i)), { b with nextId := b.nextId + 1 })

/-- The item once it is completed at `now`. -/
def completed (now : Int) (i : WorkItem) : WorkItem :=
  { i with state := .done, lastExecutionTime := some now, stateChangedAt := now }

/-- Complete an item. -/
def complete (b : Backlog) (now : Int) (id : Nat) :
    Except Failure (Draft Completion) × Backlog :=
  match b.stored id with
  | .error e => (.error e, b)
  | .ok stored =>
      if stored.state.isTerminal then (.error (stored.state.refusal .done), b)
      else
        let done := completed now stored
        match b.nextOccurrence now done with
        | (.error f, b) => (.error f, b)
        | (.ok next, b) => (.ok ⟨⟨done, next⟩, [.replace done next]⟩, b)

/-- End the items whose deadline has come. The answer is their number. -/
def expire (b : Backlog) (now : Int) : Draft Nat :=
  let late := b.items.filter fun i => i.isPastDeadline now
  ⟨late.length, late.map fun i => .expire i.id now⟩

/-- Delete the items that came to their end before an instant. The answer is their
number. -/
def purge (b : Backlog) (olderThan : Int) : Draft Nat :=
  let old := b.items.filter fun i => i.state.isTerminal && i.stateChangedAt < olderThan
  ⟨old.length, [.purge (old.map WorkItem.id)]⟩

@[simp] theorem items_add (b : Backlog) (now : Int) (i : WorkItem) :
    (b.add now i).2.items = b.items := by
  unfold add
  split <;> rfl

@[simp] theorem items_nextOccurrence (b : Backlog) (now : Int) (i : WorkItem) :
    (b.nextOccurrence now i).2.items = b.items := by
  unfold nextOccurrence
  split
  · rfl
  · split
    · rfl
    · dsimp only
      split
      · rfl
      · split <;> rfl

/-- An operation that is refused hands out no identity. -/
theorem nextId_add_of_error {b : Backlog} {now : Int} {i : WorkItem} {f : Failure}
    (h : (b.add now i).1 = .error f) : (b.add now i).2.nextId = b.nextId := by
  unfold add at h ⊢
  split at h
  · simp
  · cases h

/-- A completed item is stored under the identity that was completed. -/
@[simp] theorem id_completed (now : Int) (i : WorkItem) : (completed now i).id = i.id := rfl

end RecurringWork.Backlog
