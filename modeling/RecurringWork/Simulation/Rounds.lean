/-!
# RecurringWork.Simulation.Rounds

**Whose turn it is.** One task goes on at a time, until it has to wait. Tasks that can
go on stand in a queue. The script does not: it goes on at the beginning of a *round*,
before the tasks that stand in the queue then. A round ends when the queue is empty, or
when so many tasks have gone on (`roundLength`).

Something that a task waits for may have happened already. Then the task goes on at
once, but not more often than `patience` allows: it is then put off until the round is
over. Those that were put off join the queue behind all that stand there by then, the
last to be put off first.
-/

namespace RecurringWork.Simulation

/-- The number of the script among the tasks. -/
def scriptTask : Nat := 0

/-- How many tasks go on in a round, besides the script. -/
def roundLength : Nat := 61

/-- How many waits a task may end before it lets others go on. -/
def patience : Nat := 128

/-- Who goes on, and who can. -/
structure Rounds where
  /-- The tasks that can go on, the first to do so first. -/
  queue : List Nat
  /-- The script can go on. -/
  scriptReady : Bool
  /-- The tasks that have been put off, the last one first. -/
  putOff : List Nat
  /-- How many more tasks go on in this round. Between two rounds there is none. -/
  left : Option Nat
  /-- The task that goes on now. -/
  running : Option Nat
  /-- How many more waits it may end. -/
  waits : Nat
  deriving Repr

namespace Rounds

/-- The script goes on. -/
def start : Rounds := ⟨[], false, [], some roundLength, some scriptTask, patience⟩

/-- A task can go on. -/
def wake (r : Rounds) (task : Nat) : Rounds :=
  if task = scriptTask then { r with scriptReady := true }
  else if r.queue.contains task then r
  else { r with queue := r.queue ++ [task] }

/-- Some tasks can go on. -/
def wakeAll (r : Rounds) (tasks : List Nat) : Rounds := tasks.foldl wake r

/-- The task that goes on has to wait, or is over. -/
def rest (r : Rounds) : Rounds := { r with running := none }

/-- The task that goes on ends a wait, if it still may. -/
def endWait? (r : Rounds) : Option Rounds :=
  match r.waits with
  | 0 => none
  | n + 1 => some { r with waits := n }

/-- The task that goes on is put off. -/
def postpone (r : Rounds) : Rounds := { r with putOff := r.running.toList ++ r.putOff }

/-- The round is over. -/
def endRound (r : Rounds) : Rounds := { (r.wakeAll r.putOff) with putOff := [], left := none }

/-- A task goes on, with so many more to go on in the round. -/
def run (r : Rounds) (task left : Nat) : Rounds :=
  { r with running := some task, left := some left, waits := patience }

/-- Nobody can go on. -/
def isIdle (r : Rounds) : Bool := r.queue.isEmpty && !r.scriptReady && r.putOff.isEmpty

/-- The next task goes on, or the round is over. -/
def next (r : Rounds) : Rounds :=
  if r.left.isNone && r.scriptReady then { r with scriptReady := false }.run scriptTask roundLength
  else
    match r.left.getD roundLength, r.queue with
    | k + 1, n :: rest => { r with queue := rest }.run n k
    | _, _ => r.endRound

/-- Within a round the queue is served in order, and the script is not. -/
theorem next_of_cons {r : Rounds} {n k : Nat} {rest : List Nat} (h : r.queue = n :: rest)
    (more : r.left = some (k + 1)) : r.next.running = some n ∧ r.next.queue = rest := by
  simp [next, more, h, run]

/-- Between two rounds the script comes first. -/
theorem next_of_scriptReady {r : Rounds} (h : r.scriptReady) (between : r.left = none) :
    r.next.running = some scriptTask ∧ r.next.queue = r.queue := by
  simp [next, h, between, run]

end Rounds

end RecurringWork.Simulation
