import RecurringWork.Simulation.Actors

/-!
# RecurringWork.Simulation.Dispatch

**The steps on workers, writers and schedulers.** A worker is an actor, and can also
be run by itself, outside of any manager. What a writer adds is stored, or staged in
the transaction around it, before anybody is told.
-/

namespace RecurringWork.Simulation

open Act

/-- Do something with the worker that a name stands for. -/
def withWorker (name : String) (act : Nat → Worker → Act Control) : Act Control :=
  withActor name fun n => do
    match (← world).worker? n with
    | some c => act n c
    | none => nothing

/-- Add items with a writer, and have those told who are to be told at once. -/
def takeSubmission (writer : String) (items : List WorkItem) (reply : List WorkItem → Answer) :
    Act Control := do
  let w ← world
  match w.names.writers.find? writer with
  | none => nothing
  | some n => holding (.writer n) do
      let s := submit w.backlog w.now (← scope) (PostCommit.nudge n) items
      setBacklog s.backlog
      setScope s.scope
      match s.result with
      | .ok stored => tell (reply stored) s.told
      | .error f => answerExcept Answer.item (.error f)

/-- Take a step on workers and writers. -/
def takeDispatchStep : DispatchStep Step → Act Control
  | .worker name key node pace judgements otherwise => do
      let coordinator := node.bind (← world).node?
      newActor name (.worker ⟨key, coordinator, pace, .unplanned⟩ judgements otherwise [])
      answer (.text key.name)
  | .route name manager registered => withWorker name fun n c => withManager manager fun m _ => do
      let w ← world
      match c.coordinator.bind fun k => (w.nodes[k]?).map fun node => (k, node) with
      | none => answer (.flag false)
      | some (k, node) =>
          let (id, d) := node.coordinator.dispatcher.subscribe .backlogChanged (.news n m registered)
          modifyNode k fun c => { c with dispatcher := d }
          modifyNames fun ns =>
            { ns with subscriptions := ns.subscriptions.bind ("route:" ++ name) id }
          answer (.flag true)
  | .run name => withActor name fun n => do
      push .direct
      beginBatch n
  | .wakeTarget name => withWorker name fun _ c => answer (.number c.target.at_)
  | .setWakeTarget name target => withWorker name fun n _ => do
      modifyWorld fun w => w.setTarget n ⟨target⟩
      answer .nothing
  | .partition name => withWorker name fun _ c => do
      let share := c.key.share ((← world).workerView? c)
      answer (.partition share.partition share.count)
  | .writer name manager registered worker limit route =>
      withManager manager fun m _ => withActor worker fun a => do
        let w ← world
        let route := route.bind fun (node, key) => (w.node? node).map fun n => (n, key.name)
        modifyWorld fun w => { w with writers := w.writers ++ [⟨m, registered, a, limit, route⟩] }
        modifyNames fun ns => { ns with writers := ns.writers.bind name w.writers.length }
        answer .nothing
  | .submit _ none | .submitAll _ none => answer .undecodable
  | .submit writer (some i) =>
      takeSubmission writer [i] fun stored =>
        match stored.getLast? with
        | some i => .item i
        | none => .nothing
  | .submitAll writer (some items) => takeSubmission writer items .timetable

/-! ### Schedulers -/

def withJob (name : String) (act : JobRef → Act Control) : Act Control := do
  match (← world).names.jobs.find? name with
  | some j => act j
  | none => nothing

/-- A job will not start. -/
def isCancelled (s : ActorSystem) (j : JobRef) : Bool := (s.scheduler j.scheduler).isCancelled j.number

def handleOf (j : JobRef) : Act Control := do
  answer (.handle j.number (isCancelled (← world).system j))

/-- Stop the next of some schedulers, and answer when all are stopped. -/
def stopNext (limit : Duration) (done : List (String × Drain)) :
    List (String × Nat) → Act Control
  | [] => answer (.drains done)
  | (name, n) :: rest => do
      push (.stopping name n rest limit done)
      setSystem ((← world).system.stopScheduler n)
      awaitDrain n limit

def takeSchedulerStep : SchedulerStep Step → Act Control
  | .scheduler name => do
      let _ ← newScheduler name
      answer (.text name)
  | .homeless => answer (.unusable "scheduler requires a tokio runtime")
  | .schedule scheduler name delay pause calls => do
      let n ← schedulerOf scheduler
      let w ← world
      let (j, s) := w.system.schedule w.elapsed n (.errand w.errands.length) delay
      modifyWorld fun w => { w with errands := w.errands ++ [⟨name, pause, calls⟩] }
      setSystem s
      modifyNames fun ns => { ns with jobs := ns.jobs.bind name j }
      handleOf j
  | .cancel name => withJob name fun j => do
      setSystem ((← world).system.cancelJob j)
      answer (.flag (isCancelled (← world).system j))
  | .handle name => withJob name handleOf
  | .active name => do
      let n ← schedulerOf name
      answer (.number ((← world).system.scheduler n).active)
  | .stop name => do
      let n ← schedulerOf name
      setSystem ((← world).system.stopScheduler n)
      answer (.flag ((← world).system.scheduler n).stopped)
  | .stopped name => do
      let n ← schedulerOf name
      answer (.flag ((← world).system.scheduler n).stopped)
  | .stopWithin name limit => do
      let n ← schedulerOf name
      setSystem ((← world).system.stopScheduler n)
      push (.reply (.drain n))
      awaitDrain n limit
  | .registry name => do
      let n ← schedulerOf name
      modifyNames fun ns => { ns with registry := some ⟨n, []⟩ }
      answer .nothing
  | .enrol name scheduler => do
      let n ← schedulerOf scheduler
      modifyNames fun ns =>
        { ns with registry := ns.registry.map fun r => { r with named := r.named.bind name n } }
      answer .nothing
  | .lookUp name => do
      let ns := (← world).names
      match ns.registry with
      | none => nothing
      | some r =>
          let n := (name.bind r.named.find?).getD r.fallback
          let known := (ns.schedulers.filter fun b => b.2 == n).map Prod.fst
          answer (.texts known.mergeSort)
  | .enrolled => do
      match (← world).names.registry with
      | none => nothing
      | some r => answer (.texts (r.named.map Prod.fst).mergeSort)
  | .stopAll limit => do
      match (← world).names.registry with
      | none => nothing
      | some r =>
          let named := r.named.mergeSort fun a b => a.1 ≤ b.1
          stopNext limit [] (named ++ [("default", r.fallback)])

end RecurringWork.Simulation
