import RecurringWork.Backlog.Change
import RecurringWork.Cluster.View
import RecurringWork.Dispatch.WakeTarget

/-!
# RecurringWork.Dispatch.Run

**One run over the backlog.** A worker works one slice of the backlog, on each node
the partition that the node's view of its cluster gives it. A run ends the items
whose deadline has come, takes up a batch of those that are due, and hands them one by
one to a processor, whose verdict is recorded before the next one's turn. Then it
plans the next run: at once after a full batch, otherwise when the next item is due,
but no later than after the idle interval.

While a run is in progress, and after one that broke off, the wake target of the
worker is unknown. What a run does between two awaits is one `Progress.next`, or one
`Pace.conclude` when there is a verdict.
-/

namespace RecurringWork

/-- How a worker paces itself. -/
structure Pace where
  /-- How many items a run takes up; 0 counts as 1. -/
  batchLimit : Nat
  /-- The longest pause between runs. -/
  idle : Duration
  /-- How long a deferred item waits. -/
  deferDelay : Duration
  deriving DecidableEq, Repr

/-- A hundred items, a minute, five seconds. -/
def Pace.standard : Pace := ⟨100, .ofSeconds 60, .ofSeconds 5⟩

/-- What a processor says about an item. -/
inductive Verdict
  /-- It is done. -/
  | completed
  /-- Its time has not come. -/
  | deferred
  /-- Processing it failed, which counts as deferring it. -/
  | failed
  deriving DecidableEq, Repr

/-- A worker on one slice of the backlog. -/
structure Worker where
  key : PartitionKey
  /-- The coordinator whose view gives the partition. -/
  coordinator : Option Nat
  pace : Pace
  target : WakeTarget
  deriving Repr

/-- The share of a slice that belongs to a node: the one at its position, everything
without a cluster. -/
def PartitionKey.share (key : PartitionKey) : Option View → Share
  | some v => ⟨v.position, v.size, key⟩
  | none => ⟨0, 1, key⟩

namespace Pace

/-- How many items a run takes up. -/
def limit (p : Pace) : Nat := max p.batchLimit 1

/-- The items that a run takes up. -/
def batch (p : Pace) (b : Backlog) (now : Int) (share : Share) : List WorkItem :=
  b.due now share (some p.limit)

/-- There may be more to do than the batch holds. -/
def isFull (p : Pace) (batch : List WorkItem) : Bool := p.limit ≤ batch.length

/-- The pause until the next run. -/
def pause (p : Pace) (b : Backlog) (now : Int) (share : Share) (full : Bool) : Duration :=
  if full then .zero
  else
    match b.nextDue share with
    | some due => (delayUntil due now).shorter p.idle
    | none => p.idle

/-- The item that is stored when one is deferred at `now`. There is no instant for it
beyond the last one. -/
def postponed? (p : Pace) (now : Int) (i : WorkItem) : Option WorkItem :=
  let due := now + p.deferDelay.toMillis
  if due ≤ Instant.maximum then some { i with scheduleTime := some due } else none

/-- What a verdict does to the backlog. An item that cannot be completed or deferred is
left as it is; an item for whose time there is no instant breaks the run off. -/
def conclude (p : Pace) (b : Backlog) (now : Int) (i : WorkItem) :
    Verdict → Except Failure (List Write) × Backlog
  | .completed =>
      match b.complete now i.id with
      | (.ok d, b) => (.ok d.writes, b)
      | (.error (.error _), b) => (.ok [], b)
      | (.error .fault, b) => (.error .fault, b)
  | .deferred | .failed =>
      match p.postponed? now i with
      | none => (.error .fault, b)
      | some i =>
          match b.defer now i with
          | .ok d => (.ok d.writes, b)
          | .error _ => (.ok [], b)

end Pace

/-- The worker's plan once a run has ended at `now`. -/
def WakeTarget.after (now : Int) (pause : Duration) : WakeTarget := ⟨Instant.after now pause⟩

/-- How far a run has come. -/
inductive Progress
  /-- It has only begun. -/
  | begun
  /-- The wake target is unknown. -/
  | marked
  /-- The items whose deadline has come are ended. -/
  | expired
  /-- These items are to be processed, the first of them first. The batch may have been
  full. -/
  | working (full : Bool) (rest : List WorkItem)
  /-- It is decided at `now` how long to pause. -/
  | planned (now : Int) (pause : Duration)
  /-- The wake target is known again, and the run is over. -/
  | settled (pause : Duration)
  deriving Repr

/-- What a run works on. -/
structure Desk (β : Type) where
  target : WakeTarget
  backlog : Backlog
  /-- The transaction around the run. -/
  scope : Option (Scope Write β)

/-- The next thing that a run does by itself. With an item at hand it waits for the
verdict on it. -/
def Progress.next {β : Type} (p : Pace) (share : Share) (now : Int) :
    Progress → Desk β → Progress × Desk β
  | begun, d => (marked, { d with target := .unknown })
  | marked, d =>
      let (_, backlog, scope) := d.backlog.record d.scope (d.backlog.expire now)
      (expired, { d with backlog, scope })
  | expired, d =>
      let batch := p.batch d.backlog now share
      (working (p.isFull batch) batch, d)
  | working full [], d => (planned now (p.pause d.backlog now share full), d)
  | planned then_ pause, d => (settled pause, { d with target := .after then_ pause })
  | working full (i :: rest), d => (working full (i :: rest), d)
  | settled pause, d => (settled pause, d)

/-- The pause is never longer than the idle interval, except after a full batch, when
there is none. -/
theorem Pace.pause_le (p : Pace) (b : Backlog) (now : Int) (share : Share) (full : Bool) :
    (p.pause b now share full).nanos ≤ p.idle.nanos := by
  unfold Pace.pause
  split
  · exact Nat.zero_le _
  · split
    · exact Nat.min_le_right _ _
    · exact Nat.le_refl _

end RecurringWork
