import RecurringWork.Actor.System
import RecurringWork.Backlog.Change
import RecurringWork.Dispatch.WakeTarget

/-!
# RecurringWork.Dispatch.Writer

**Adding work, and waking whoever works it.** A writer adds items in a transaction: the
one around it if there is one that can still commit, otherwise one of its own. Either
all of its items are added or none (`submit`). Once they are stored it *nudges* the
worker: if the earliest of them is due before the worker plans to run, the worker is
scheduled for that time (`Writer.nudge`).

A nudge may go unheard, because no actor of the name is registered. The work is then
found by the next run that takes place for another reason.
-/

namespace RecurringWork

/-- A writer for one worker. -/
structure Writer where
  manager : Nat
  /-- The name under which the worker is registered. -/
  actorName : String
  /-- The actor whose wake target it shares. -/
  actor : Nat
  /-- How long adding may take. -/
  limit : Duration
  /-- The coordinator through which other nodes hear of new work, and the slice that
  they hear of. -/
  route : Option (Nat × String)
  deriving Repr

namespace Backlog

/-- Add items in a scope, up to the first that is refused. -/
def addAll {β : Type} (now : Int) : List WorkItem → Backlog → Scope Write β →
    Except Failure (List WorkItem) × Backlog × Scope Write β
  | [], b, scope => (.ok [], b, scope)
  | i :: rest, b, scope =>
      match b.add now i with
      | (.error f, b) => (.error f, b, scope)
      | (.ok d, b) =>
          match addAll now rest b (scope.stage d.writes) with
          | (.ok stored, b, scope) => (.ok (d.answer :: stored), b, scope)
          | (.error f, b, scope) => (.error f, b, scope)

/-- The listener for items that were added, if there are any. -/
def announced {β : Type} (announce : Int → β) (stored : List WorkItem) (scope : Scope Write β) :
    Scope Write β :=
  match earliest (stored.filterMap WorkItem.scheduleTime) with
  | some due => scope.listen (announce due)
  | none => scope

end Backlog

/-- What a submission comes to. -/
structure Submission (β : Type) where
  result : Except Failure (List WorkItem)
  backlog : Backlog
  /-- The transaction around it. -/
  scope : Option (Scope Write β)
  /-- Who is to be told now, because the items are stored. -/
  told : List β

/-- Add items as one. In a transaction that can still commit the items are staged, and
a refusal dooms the transaction; otherwise they are stored at once or not at all. -/
def submit {β : Type} (b : Backlog) (now : Int) (around : Option (Scope Write β))
    (announce : Int → β) (items : List WorkItem) : Submission β :=
  match around.filter fun s => !s.doomed with
  | some scope =>
      match Backlog.addAll now items b scope with
      | (.ok stored, b, scope) => ⟨.ok stored, b, some (Backlog.announced announce stored scope), []⟩
      -- Whoever passes over the error still cannot commit the others.
      | (.error (.error e), b, scope) => ⟨.error e, b, some scope.doom, []⟩
      | (.error .fault, b, scope) => ⟨.error .fault, b, some scope, []⟩
  | none =>
      match Backlog.addAll now items b (Scope.empty : Scope Write β) with
      | (.ok stored, b, scope) =>
          -- A transaction of its own: it commits before anybody is told.
          let scope := Backlog.announced announce stored scope
          ⟨.ok stored, b.commit scope.staged, around, scope.listeners⟩
      | (.error f, b, _) => ⟨.error f, b, around, []⟩

/-- What a nudge comes to. -/
structure Nudge where
  target : WakeTarget
  system : ActorSystem
  /-- The delay with which the worker was scheduled, if it was. -/
  woken : Option Int

/-- Have the worker run by `due`, unless it will anyhow. The clock shows `now`, and
`elapsed` milliseconds have passed. -/
def Writer.nudge (w : Writer) (target : WakeTarget) (s : ActorSystem) (elapsed : Nat)
    (now due : Int) : Nudge :=
  let (needed, target) := target.request due
  if needed then
    let delay := (delayUntil due now).toMillis
    match s.wake elapsed w.manager w.actorName delay with
    | .ok s => ⟨target, s, some delay⟩
    | .error _ => ⟨target, s, none⟩
  else ⟨target, s, none⟩

/-- A nudge lowers the target, whatever comes of waking the worker. -/
theorem Writer.target_nudge (w : Writer) (target : WakeTarget) (s : ActorSystem) (elapsed : Nat)
    (now due : Int) : (w.nudge target s elapsed now due).target = (target.request due).2 := by
  unfold nudge
  dsimp only
  split
  · split <;> rfl
  · rfl

/-- It wakes the worker if it has to, and if that fails, nothing happens. -/
theorem Writer.system_nudge (w : Writer) (target : WakeTarget) (s : ActorSystem) (elapsed : Nat)
    (now due : Int) : (w.nudge target s elapsed now due).system =
      if (target.request due).1 then
        match s.wake elapsed w.manager w.actorName (delayUntil due now).toMillis with
        | .ok t => t
        | .error _ => s
      else s := by
  unfold nudge
  dsimp only
  split
  · cases s.wake elapsed w.manager w.actorName (delayUntil due now).toMillis <;> rfl
  · rfl

/-- Without a transaction around it, a refused submission leaves the stored items as
they are and tells nobody. -/
theorem told_of_submit_error {β : Type} {b : Backlog} {now : Int} {announce : Int → β}
    {items : List WorkItem} {f : Failure}
    (h : (submit b now none announce items).result = .error f) :
    (submit b now none announce items).told = [] := by
  simp only [submit, Option.filter_none] at h ⊢
  split at h
  · cases h
  · simp

end RecurringWork
