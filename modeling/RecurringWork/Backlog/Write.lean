import RecurringWork.Backlog
import RecurringWork.Transaction

/-!
# RecurringWork.Backlog.Write

**Changes of the backlog, as values.** An operation on the backlog decides what is to
be changed when it is called. The change itself is a `Write`, which takes effect at
once or, inside a transaction, at its commit.

What an operation saw when it was called may be out of date by then. A write to an
item that exists is therefore checked again when it is carried out: an item that has
come to its end in the meantime is left as it is. Outside a transaction whoever
called is told (`Backlog.carryOut`); at a commit the write is discarded
(`Backlog.commit`).
-/

namespace RecurringWork

/-- A change of the backlog. -/
inductive Write
  /-- Store a new item. -/
  | insert (item : WorkItem)
  /-- Store an item instead of the one of its identity, and with it the successor of a
  completed job. -/
  | replace (item : WorkItem) (successor : Option WorkItem)
  /-- End an item whose deadline had come at `now`. -/
  | expire (id : Nat) (now : Int)
  /-- Delete items that have come to their end. -/
  | purge (ids : List Nat)
  deriving Repr

namespace Backlog

/-- Store an item and its successor instead of `current`, if its life cycle allows. -/
def succeed (b : Backlog) (current item : WorkItem) (successor : Option WorkItem) :
    Except Error Backlog :=
  if current.state.isTerminal then .error (current.state.refusal item.state)
  else
    -- The successor is stored only together with the item that it succeeds.
    (current.state.become item.state).map fun _ =>
      let b := b.put item
      match successor with
      | some next => b.put next
      | none => b

/-- End an item, if it is still waiting. -/
def expireItem (b : Backlog) (id : Nat) (now : Int) : Backlog :=
  match b.get? id with
  | some i =>
      if i.state == .new then
        b.put { i with state := .deadlineReached, stateChangedAt := now }
      else b
  | none => b

/-- Delete those of some items that have come to their end. -/
def purgeItems (b : Backlog) (ids : List Nat) : Backlog :=
  { b with items := b.items.filter fun i => !(ids.contains i.id && i.state.isTerminal) }

/-- The backlog after a write, or why the write cannot be carried out. -/
def carryOut (b : Backlog) : Write → Except Error Backlog
  | .insert i => .ok (b.put i)
  | .replace i successor => do b.succeed (← b.stored i.id) i successor
  | .expire id now => .ok (b.expireItem id now)
  | .purge ids => .ok (b.purgeItems ids)

/-- The backlog after a write that is discarded if it cannot be carried out. -/
def settle (b : Backlog) (w : Write) : Backlog :=
  match b.carryOut w with
  | .ok c => c
  | .error _ => b

/-- The backlog after the writes of a transaction. -/
def commit (b : Backlog) (ws : List Write) : Backlog := ws.foldl settle b

/-- What an operation answers, and the writes that it takes for granted. -/
structure Draft (α : Type) where
  answer : α
  writes : List Write

/-- Let the writes of an operation take effect: at once, or staged in the scope around
it. -/
def record {α β : Type} (b : Backlog) (scope : Option (Scope Write β)) (d : Draft α) :
    Except Error α × Backlog × Option (Scope Write β) :=
  match scope with
  | some s => (.ok d.answer, b, some (s.stage d.writes))
  | none =>
      match d.writes.foldlM carryOut b with
      | .ok c => (.ok d.answer, c, none)
      | .error e => (.error e, b, none)

/-- A write never touches an item that has come to its end, except to delete it. -/
theorem succeed_of_terminal {b : Backlog} {current item : WorkItem} {successor : Option WorkItem}
    (h : current.state.isTerminal) :
    b.succeed current item successor = .error (current.state.refusal item.state) := by
  simp [succeed, h]

@[simp] theorem commit_nil (b : Backlog) : b.commit [] = b := rfl

theorem commit_append (b : Backlog) (ws vs : List Write) :
    b.commit (ws ++ vs) = (b.commit ws).commit vs := by
  simp [commit]

end Backlog

end RecurringWork
