import RecurringWork.Actor.Entry
import RecurringWork.Actor.Failures
import RecurringWork.Cluster.View
import RecurringWork.Error
import RecurringWork.Scheduler

/-!
# RecurringWork.Actor.System

**Managers of actors on their schedulers.** A manager registers actors under names,
one actor per name. To schedule an actor is to hand its scheduler a *firing*, a job
that runs the actor once it is due. What the run answers decides what comes next: it
is scheduled again, is removed for good, or stays registered and idle; a run that
fails is repeated after a wait if the manager has a retry policy and the failures are
not too many.

All managers share one `ActorSystem`, because several may use one scheduler. Managers,
entries and schedulers are known by their numbers. Every operation here is one step:
it never waits. What becomes ready to go on is appended to `ActorSystem.alerts`, in
the order in which that happens.
-/

namespace RecurringWork

/-- What a job of a scheduler does. -/
inductive Duty
  /-- Run the actor of an entry for a manager. -/
  | firing (manager entry : Nat)
  /-- Something else. -/
  | errand (number : Nat)
  deriving DecidableEq, Repr

/-- What an actor answers at the end of a run. -/
inductive RunResult
  /-- Run again after a delay. -/
  | reschedule (delay : Duration)
  /-- Finished for good. -/
  | done
  /-- Idle until scheduled by somebody. -/
  | suspended
  /-- The run failed. -/
  | failed
  deriving DecidableEq, Repr

/-- How a manager repeats failed runs. -/
structure Retry where
  /-- So many recent failures end the repetition. -/
  maxFailures : Nat
  tracker : FailureTracker
  deriving Repr

def Retry.ofPolicy (p : RetryPolicy) : Retry := ⟨p.maxFailures, .ofBackoff (.ofPolicy p)⟩

/-- A registry of named actors. -/
structure Manager where
  /-- The registered names and their entries. -/
  names : List (String × Nat)
  scheduler : Nat
  /-- The coordinator through which it hears of other nodes. -/
  coordinator : Option Nat
  retry : Option Retry
  /-- The subscription to requests of other nodes. -/
  subscription : Option Nat
  deriving Repr

/-- All managers with their entries and schedulers. -/
structure ActorSystem where
  entries : List Entry
  managers : List Manager
  schedulers : List (Scheduler Duty)
  /-- The jobs that can go on, the first to do so first. -/
  alerts : List JobRef
  deriving Repr

/-- A delay in milliseconds, which must not be negative. -/
def Duration.ofDelay (ms : Int) : Except Error Duration :=
  if ms < 0 then .error (.invalidDelay ms) else .ok (.ofMillis ms.toNat)

namespace Manager

def entry? (m : Manager) (name : String) : Option Nat :=
  (m.names.find? fun n => n.1 == name).map Prod.snd

/-- The registered names in order. -/
def sortedNames (m : Manager) : List String := (m.names.map Prod.fst).mergeSort

/-- The manager without a name, and without the failures that go with it. -/
def forget (m : Manager) (name : String) : Manager :=
  { m with
    names := m.names.filter fun n => n.1 != name
    retry := m.retry.map fun r => { r with tracker := r.tracker.forget name } }

/-- A run of a name succeeded: its failures no longer count. -/
def succeeded (m : Manager) (name : String) : Manager :=
  { m with retry := m.retry.map fun r => { r with tracker := r.tracker.clear name } }

/-- A run of a name failed at `at_`, in nanoseconds of a clock that never goes back. The
answer is the wait after which it is repeated, if it is. -/
def failed (m : Manager) (name : String) (at_ : Int) : Option Duration × Manager :=
  match m.retry with
  | none => (none, m)
  | some r =>
      let ((failures, wait), tracker) := r.tracker.record name at_
      (if failures < r.maxFailures then some wait else none,
        { m with retry := some { r with tracker } })

end Manager

namespace ActorSystem

def empty : ActorSystem := ⟨[], [], [], []⟩

/-! ### Schedulers -/

/-- A further scheduler. The answer is its number. -/
def addScheduler (s : ActorSystem) : Nat × ActorSystem :=
  (s.schedulers.length, { s with schedulers := s.schedulers ++ [.empty] })

/-- The scheduler of a number. -/
def scheduler (s : ActorSystem) (n : Nat) : Scheduler Duty := s.schedulers.getD n .empty

/-- Change a scheduler. -/
def modifyScheduler (s : ActorSystem) (n : Nat) (f : Scheduler Duty → Scheduler Duty) :
    ActorSystem :=
  { s with schedulers := s.schedulers.modify n f }

/-- Some more jobs can go on. -/
def alert (s : ActorSystem) (jobs : List JobRef) : ActorSystem :=
  { s with alerts := s.alerts ++ jobs }

/-- Hand a scheduler a job. -/
def schedule (s : ActorSystem) (now scheduler : Nat) (duty : Duty) (delay : Duration) :
    JobRef × ActorSystem :=
  let (number, changed) := (s.scheduler scheduler).schedule now duty delay
  let job : JobRef := ⟨scheduler, number⟩
  (job, (s.modifyScheduler scheduler fun _ => changed).alert (if number = 0 then [] else [job]))

/-- Cancel a job. If it waits, it can go on, namely to its end. -/
def cancelJob (s : ActorSystem) (job : JobRef) : ActorSystem :=
  let waits := ((s.scheduler job.scheduler).waiting.any fun j => j.number == job.number)
  (s.modifyScheduler job.scheduler fun c => c.cancel job.number).alert (if waits then [job] else [])

/-- Stop a scheduler. Every job that waits can go on, namely to its end. -/
def stopScheduler (s : ActorSystem) (n : Nat) : ActorSystem :=
  let waiting := (s.scheduler n).waiting.map fun j => (⟨n, j.number⟩ : JobRef)
  (s.modifyScheduler n Scheduler.stop).alert waiting

/-- What there is to do for a job. -/
def attend (s : ActorSystem) (now : Nat) (job : JobRef) : Attention Duty × ActorSystem :=
  let (attention, changed) := (s.scheduler job.scheduler).attend now job.number
  (attention, s.modifyScheduler job.scheduler fun _ => changed)

/-- A job has ended. -/
def finishJob (s : ActorSystem) (job : JobRef) : ActorSystem :=
  s.modifyScheduler job.scheduler fun c => c.finish job.number

/-! ### Entries -/

/-- The entry of a number. -/
def entry? (s : ActorSystem) (n : Nat) : Option Entry := s.entries[n]?

def modifyEntry (s : ActorSystem) (n : Nat) (f : Entry → Entry) : ActorSystem :=
  { s with entries := s.entries.modify n f }

/-- The manager of a number. -/
def manager? (s : ActorSystem) (n : Nat) : Option Manager := s.managers[n]?

def modifyManager (s : ActorSystem) (n : Nat) (f : Manager → Manager) : ActorSystem :=
  { s with managers := s.managers.modify n f }

def registered? (s : ActorSystem) (manager : Nat) (name : String) : Option Nat :=
  (s.manager? manager).bind fun m => m.entry? name

/-- A further manager. The answer is its number. -/
def addManager (s : ActorSystem) (m : Manager) : Nat × ActorSystem :=
  (s.managers.length, { s with managers := s.managers ++ [m] })

/-- Schedule a firing of an entry, unless the entry is cancelled. -/
def scheduleEntry (s : ActorSystem) (now manager entry : Nat) (delay : Duration) : ActorSystem :=
  match s.entry? entry, s.manager? manager with
  | some e, some m =>
      if e.cancelled then s
      else
        let (job, s) := s.schedule now m.scheduler (.firing manager entry) delay
        s.modifyEntry entry fun e => { e with latest := some job }
  | _, _ => s

/-- Cancel an entry and the firing that was scheduled last. -/
def cancelEntry (s : ActorSystem) (entry : Nat) : ActorSystem :=
  match s.entry? entry with
  | none => s
  | some e =>
      let s := s.modifyEntry entry Entry.cancel
      match e.latest with
      | some job => s.cancelJob job
      | none => s

/-- A firing makes a move on its entry. Whoever has been given the lock by it can go on. -/
def move (s : ActorSystem) (entry : Nat) (f : Entry → Move) : Arrival × ActorSystem :=
  match s.entry? entry with
  | none => (.skipped, s)
  | some e =>
      let m := f e
      (m.arrival, (s.modifyEntry entry fun _ => m.entry).alert m.handed.toList)

def fire (s : ActorSystem) (entry : Nat) (firing : JobRef) : Arrival × ActorSystem :=
  s.move entry fun e => e.fire firing

/-- The firing that was given the lock of an entry goes on. -/
def proceed (s : ActorSystem) (entry : Nat) : Arrival × ActorSystem := s.move entry Entry.proceed

/-- A firing gives the lock of its entry up. The one that waits can go on. -/
def leave (s : ActorSystem) (entry : Nat) : ActorSystem :=
  match s.entry? entry with
  | none => s
  | some e =>
      let (next, e) := e.leave
      (s.modifyEntry entry fun _ => e).alert next.toList

/-! ### Registration -/

/-- Register an actor under a name, which may have it already. The answer is the
entry. -/
def insert (s : ActorSystem) (manager : Nat) (name : String) (actor : Nat) :
    Except Error (Nat × ActorSystem) :=
  match s.registered? manager name with
  | some n =>
      if (s.entry? n).any fun e => e.actor == actor then .ok (n, s)
      else .error (.alreadyRegistered name)
  | none =>
      let n := s.entries.length
      let s := { s with entries := s.entries ++ [Entry.ofActor name actor] }
      .ok (n, s.modifyManager manager fun m => { m with names := m.names ++ [(name, n)] })

/-- Register an actor and schedule its first run. -/
def register (s : ActorSystem) (now manager : Nat) (name : String) (actor : Nat) (delay : Int) :
    Except Error ActorSystem := do
  let delay ← Duration.ofDelay delay
  let (entry, s) ← s.insert manager name actor
  pure (s.scheduleEntry now manager entry delay)

/-- Schedule a registered actor. -/
def wake (s : ActorSystem) (now manager : Nat) (name : String) (delay : Int) :
    Except Error ActorSystem := do
  let delay ← Duration.ofDelay delay
  match s.registered? manager name with
  | some entry => pure (s.scheduleEntry now manager entry delay)
  | none => .error (.notRegistered name)

/-- Remove an actor. The answer says whether there was one. -/
def remove (s : ActorSystem) (manager : Nat) (name : String) : Bool × ActorSystem :=
  match s.registered? manager name with
  | none => (false, s)
  | some entry =>
      (true, (s.modifyManager manager fun m => m.forget name).cancelEntry entry)

/-- Another node asks for a run of a name. A negative delay is none. -/
def heedRequest (s : ActorSystem) (now manager : Nat) (name : String) (delay : Int) :
    ActorSystem :=
  match s.registered? manager name with
  | some entry => s.scheduleEntry now manager entry (.ofMillis delay.toNat)
  | none => s

/-- A new view of the cluster, for an actor that runs only on the coordinating node. -/
def heedView (s : ActorSystem) (now manager : Nat) (name : String) (actor : Nat) (delay : Int)
    (view : View) : ActorSystem :=
  let registered := (s.registered? manager name).isSome
  if view.isCoordinator && !registered then
    match s.register now manager name actor delay with
    | .ok s => s
    | .error _ => s
  else if !view.isCoordinator && registered then (s.remove manager name).2
  else s

/-- Remove every actor of a manager and stop its scheduler. -/
def stop (s : ActorSystem) (manager : Nat) : ActorSystem :=
  match s.manager? manager with
  | none => s
  | some m =>
      (m.names.foldl (fun s n => (s.remove manager n.1).2) s).stopScheduler m.scheduler

/-! ### Runs -/

/-- Act on what a run answered that ended at `at_`, in nanoseconds of a clock that never
goes back. -/
def conclude (s : ActorSystem) (now manager entry : Nat) (at_ : Int) (result : RunResult) :
    ActorSystem :=
  match s.entry? entry with
  | none => s
  | some e =>
      let forgiven := s.modifyManager manager fun m => m.succeeded e.name
      match result with
      | .reschedule delay => forgiven.scheduleEntry now manager entry delay
      | .suspended => forgiven
      | .done =>
          -- The name may belong to another entry by now, which stays.
          let s := forgiven.cancelEntry entry
          if s.registered? manager e.name == some entry then
            s.modifyManager manager fun m => m.forget e.name
          else s
      | .failed =>
          match s.manager? manager with
          | none => s
          | some m =>
              let (wait, m) := m.failed e.name at_
              let s := s.modifyManager manager fun _ => m
              match wait with
              | some delay => s.scheduleEntry now manager entry delay
              | none => s

/-- A run of an entry has ended, unless there was none to speak of, and its firing gives
the lock up. -/
def endRun (s : ActorSystem) (now manager entry : Nat) (at_ : Int) (result : Option RunResult) :
    ActorSystem :=
  (match result with
    | some r => s.conclude now manager entry at_ r
    | none => s).leave entry

/-- The firings that have not ended, each as its manager and its entry. -/
def firings (s : ActorSystem) : List (Nat × Nat) :=
  s.schedulers.flatMap fun c => c.jobs.filterMap fun j =>
    match j.duty with
    | .firing manager entry => if j.phase != .ended then some (manager, entry) else none
    | .errand _ => none

/-- A cancelled entry is not scheduled. -/
theorem scheduleEntry_of_cancelled {s : ActorSystem} {entry : Nat} {e : Entry}
    (h : s.entry? entry = some e) (dead : e.cancelled) (now manager : Nat) (delay : Duration) :
    s.scheduleEntry now manager entry delay = s := by
  unfold scheduleEntry
  rw [h]
  cases s.manager? manager <;> simp [dead]

end ActorSystem

end RecurringWork
