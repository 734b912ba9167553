import RecurringWork.Simulation.Cluster

/-!
# RecurringWork.Simulation.Transaction

**Transactions, and the steps on the backlog that heed them.** The scope of a
transaction lives in the frame of its body (`scopeOf`), so that it ends with the body
however that ends. When it commits, its writes take effect together, and then its
listeners are told one after the other, outside of it; one that breaks off does not
keep the others from being told.
-/

namespace RecurringWork.Simulation

open Act

/-- A writer has added work: wake its worker, and have other nodes hear of it. -/
def nudge (writer : Nat) (due : Int) : Act Control := do
  let w ← world
  match w.writers[writer]? with
  | none => nothing
  | some c => holding (.writer writer) do
      let target := ((w.worker? c.actor).map Worker.target).getD .unplanned
      let n := c.nudge target w.system w.elapsed w.now due
      modifyWorld fun w => w.setTarget c.actor n.target
      setSystem n.system
      match c.route, n.woken, (n.system.manager? c.manager).bind Manager.coordinator with
      | some (node, slice), _, _ => fireOthers node (.backlogChanged slice due)
      | none, some delay, some node => fireOthers node (.rescheduleActor c.actorName delay)
      | none, _, _ => nothing

/-- A listener of a transaction that has committed is told. -/
def tellOne : PostCommit → Act Control
  | .callback name reaction => do
      note (.committed name (← world).backlog.size (← scope).isSome)
      push (.callbackEnd reaction.breaksOff)
      sequence .reaction reaction.steps
  | .nudge writer due => nudge writer due

/-- The listeners of a transaction that has committed are told; then it is answered. -/
def tell (reply : Answer) : List PostCommit → Act Control
  | [] => answer reply
  | hook :: rest => do
      push (.told rest reply)
      tellOne hook

/-- The body of a transaction has ended. -/
def endBody (b : Body) (result : Except Error Unit) : Act Control := do
  -- The frame of the body is gone, so what is around is the scope that it may have joined.
  let e := Scope.close b.scope result (← scope)
  setScope e.around
  let reply := Answer.transaction (e.result.mapError .error) b.done
  match e.committed with
  | none => answer reply
  | some s =>
      -- All writes come before the first listener.
      setBacklog ((← world).backlog.commit s.staged)
      tell reply s.listeners

/-- The body of a transaction goes on. -/
def continueBody (b : Body) : Act Control := do
  match b.rest with
  | [] =>
      endBody b (match b.failure with
        | some message => .error (.other message)
        | none => .ok ())
  | (marked, s) :: rest => do
      push (.body { b with marked, rest })
      return .step s

/-- A step of the body of a transaction has been answered. -/
def answeredInBody (b : Body) (a : Answer) : Act Control :=
  let b := { b with done := b.done ++ [a] }
  if b.marked && a.isFailure then endBody b (.error (.other "step failed")) else continueBody b

/-- Begin a transaction. It joins the one around it if that can still commit. -/
def beginBody (joins : Bool) (limit : Duration) (failure : Option String)
    (body : List (Bool × Step)) : Act Control := do
  let own := Scope.own? (← scope) joins
  let deadline := (← world).elapsed + limit.ticks
  continueBody ⟨own, limit, deadline, none, failure, false, [], body⟩

/-- The innermost transaction whose time is up, with what is around it. -/
def overdue? (elapsed : Nat) : List Frame → Option (Body × List Frame)
  | [] => none
  | .body b :: rest => if b.deadline ≤ elapsed then some (b, rest) else overdue? elapsed rest
  | _ :: rest => overdue? elapsed rest

/-- Set the timers of the transactions that have none, the innermost first. -/
def setBodyTimers (next : Nat) : List Frame → Nat × List Frame
  | [] => (next, [])
  | .body b :: rest =>
      let timer := b.timer.getD next
      let (n, rest) := setBodyTimers (if b.timer.isNone then next + 1 else next) rest
      (n, .body { b with timer := some timer } :: rest)
  | f :: rest =>
      let (n, rest) := setBodyTimers next rest
      (n, f :: rest)

/-! ### Steps on the backlog -/

/-- The item that is to be handed in, with some fields of its stored form replaced. -/
def patched (source : Source) (fields : List (String × Json)) : Act (Except Error WorkItem) := do
  let w ← world
  let found : Except Error WorkItem :=
    match source with
    | .stored id => w.backlog.stored id
    | .snapshot name =>
        match w.names.snapshots.find? name with
        | some i => .ok i
        | none => .error (.notFound "snapshot" name)
  return found.bind fun i =>
    match i.patched? fields with
    | some i => .ok i
    | none => .error .serialization

/-- Answer what an operation has drafted, once its writes are taken care of. -/
def settleDraft {α : Type} (f : α → Answer) : Except Error (Backlog.Draft α) → Act Control
  | .ok d => do answerExcept f ((← record d).mapError .error)
  | .error e => answer (.failure e)

def takeBacklogStep : BacklogStep → Act Control
  | .add none => answer .undecodable
  | .add (some i) => do
      let w ← world
      let (r, b) := w.backlog.add w.now i
      setBacklog b
      match r with
      | .ok d => settleDraft .item (.ok d)
      | .error f => answerExcept Answer.item (.error f)
  | .get id => do answerExcept .item (((← world).backlog.stored id).mapError .error)
  | .due share limit => do
      let w ← world
      answer (.timetable (w.backlog.due w.now share limit))
  | .next share => do answer (.time ((← world).backlog.nextDue share))
  | .complete id => do
      let w ← world
      let (r, b) := w.backlog.complete w.now id
      setBacklog b
      match r with
      | .ok d => settleDraft .completion (.ok d)
      | .error f => answerExcept Answer.completion (.error f)
  | .expire => do
      let w ← world
      settleDraft (fun n : Nat => .number n) (.ok (w.backlog.expire w.now))
  | .purge olderThan => do
      settleDraft (fun n : Nat => .number n) (.ok ((← world).backlog.purge olderThan))
  | .size => do answer (.number (← world).backlog.size)
  | .plans => do answer (.number (← world).backlog.plans.size)
  | .snapshot id name => do
      match (← world).backlog.stored id with
      | .ok i =>
          modifyNames fun ns => { ns with snapshots := ns.snapshots.bind name i }
          answer .nothing
      | .error e => answer (.failure e)
  | .update source fields => do
      match ← patched source fields with
      | .ok i =>
          let w ← world
          settleDraft .item (w.backlog.update w.now i)
      | .error e => answer (.failure e)
  | .defer source fields => do
      match ← patched source fields with
      | .ok i =>
          let w ← world
          settleDraft .item (w.backlog.defer w.now i)
      | .error e => answer (.failure e)

end RecurringWork.Simulation
