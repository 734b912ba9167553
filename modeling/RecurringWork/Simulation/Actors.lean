import RecurringWork.Simulation.Transaction

/-!
# RecurringWork.Simulation.Actors

**Jobs, runs, and the steps on them.** A job begins when its scheduler says so. One
that fires an actor needs the lock of the actor's entry first; it runs the actor, has
the manager act on the result, and gives the lock up (`follow`, `endFiring`).

A scripted actor does what its script says, run by run. A worker does a run over the
backlog: `beginBatch`, then an item at a time, and a pause at the end.
-/

namespace RecurringWork.Simulation

open Act

/-! ### Runs over the backlog -/

/-- Do what a processor does, up to its verdict. -/
def judge (actor : String) : Judgement Step → Act Control
  | .final v => return .give (.judged v)
  | .breaksOff => return .fault
  | .after pause calls next => do
      push (.judging actor next)
      sequenceAfter pause .silent (.call actor) calls

def actorName (actor : Nat) : Act String := do
  return (((← world).actors[actor]?).map NamedActor.name).getD ""

/-- A further judgement on an item has been asked for. The answer is how many there
were before. -/
def countCall (id : Nat) : List (Nat × Nat) → Nat × List (Nat × Nat)
  | [] => (0, [(id, 1)])
  | (i, n) :: rest =>
      if i = id then (n, (i, n + 1) :: rest)
      else
        let (k, rest) := countCall id rest
        (k, (i, n) :: rest)

/-- What the processor of a worker does with an item. -/
def nextJudgement (actor id : Nat) : Act (Judgement Step) := do
  match (← world).actors[actor]? with
  | some ⟨name, .worker c judgements otherwise counts⟩ =>
      let (k, counts) := countCall id counts
      modifyWorld fun w =>
        { w with actors := w.actors.set actor ⟨name, .worker c judgements otherwise counts⟩ }
      let listed := ((judgements.find? fun j => j.1 == id).map Prod.snd).getD []
      return (listed[k]?).getD otherwise
  | _ => return .final .completed

/-- A run does what it does next by itself. -/
def advanceRun (actor : Nat) (share : Share) (p : Progress) : Act Progress := do
  let w ← world
  match w.worker? actor with
  | none => return p
  | some c =>
      let (p, d) := p.next c.pace share w.now ⟨c.target, w.backlog, ← scope⟩
      modifyWorld fun w => w.setTarget actor d.target
      setBacklog d.backlog
      setScope d.scope
      return p

/-- Hand the next item of a run to the processor, or end the run. -/
def continueBatch (actor : Nat) (share : Share) (full : Bool) : List WorkItem → Act Control
  | [] => do
      let planned ← advanceRun actor share (.working full [])
      match ← advanceRun actor share planned with
      | .settled pause => return .give (.ran (.reschedule pause))
      | _ => nothing
  | i :: rest => do
      push (.batch ⟨actor, share, full, i, rest⟩)
      let name ← actorName actor
      note (.processed name i.id i.deferCount (← world).elapsed)
      judge name (← nextJudgement actor i.id)

/-- Begin a run over the backlog. -/
def beginBatch (actor : Nat) : Act Control := do
  let w ← world
  match w.worker? actor with
  | none => nothing
  | some c =>
      let share := c.key.share (w.workerView? c)
      let first ← advanceRun actor share .begun
      let second ← advanceRun actor share first
      match ← advanceRun actor share second with
      | .working full batch => continueBatch actor share full batch
      | _ => nothing

/-- Record the verdict on the item that was processed, and go on. -/
def endItem (r : BatchRun) (v : Verdict) : Act Control := do
  let w ← world
  match w.worker? r.actor with
  | none => nothing
  | some c =>
      let (result, b) := c.pace.conclude w.backlog w.now r.current v
      setBacklog b
      match result with
      | .ok writes =>
          let _ ← record (⟨(), writes⟩ : Backlog.Draft Unit)
          continueBatch r.actor r.share r.full r.rest
      | .error _ => return .fault

/-! ### Runs of actors -/

def beginRun (actor : Nat) : Act Control := do
  match (← world).actors[actor]? with
  | none => nothing
  | some ⟨_, .worker _ _ _ _⟩ => beginBatch actor
  | some ⟨name, .scripted runs count⟩ =>
      let n := count + 1
      modifyWorld fun w => { w with actors := w.actors.set actor ⟨name, .scripted runs n⟩ }
      note (.runBegan name n (← world).elapsed)
      let p := (runs[count]?).getD ⟨none, [], .suspended⟩
      push (.ending p.result)
      sequenceAfter p.pause (.run name n) (.call name) p.calls

/-- A firing has made a move: it runs the actor, waits, or is over. -/
def follow (manager entry : Nat) (job : JobRef) : Arrival → Act Control
  | .runs => do
      push (.firing manager entry)
      match (← world).system.entry? entry with
      | some e => beginRun e.actor
      | none => nothing
  | .waits => do
      -- The slot stays claimed until the job goes on with the lock.
      push (.granted manager entry job)
      return .await (.lock entry job)
  | .dropped | .skipped => return .ended .nothing

/-- The run of a firing has ended, if there was one. -/
def endFiring (manager entry : Nat) (result : Option RunResult) : Act Control := do
  let w ← world
  setSystem (w.system.endRun w.elapsed manager entry 0 result)
  nothing

def beginJob (job : JobRef) : Duty → Act Control
  | .firing manager entry => do
      let (arrival, s) := (← world).system.fire entry job
      setSystem s
      follow manager entry job arrival
  | .errand n => do
      match (← world).errands[n]? with
      | none => nothing
      | some e =>
          note (.jobBegan e.name (← world).elapsed)
          sequenceAfter e.pause (.job e.name) (.call e.name) e.calls

/-- A pause is over. -/
def wakeUp (waking : Waking) (trace : Trace) (calls : List Step) : Act Control := do
  let elapsed := (← world).elapsed
  match waking with
  | .run name n => note (.runWoke name n elapsed)
  | .job name => note (.jobWoke name elapsed)
  | .silent => pure ()
  sequence trace calls

/-! ### Steps -/

/-- Do something with the manager that a name stands for, and needs it to the end. -/
def withManager (name : String) (act : Nat → Manager → Act Control) : Act Control := do
  let w ← world
  match (w.names.managers.find? name).bind fun n => (w.system.manager? n).map fun m => (n, m) with
  | some (n, m) => holding (.manager n) (act n m)
  | none => nothing

/-- Do something with the actor that a name stands for, and needs it to the end. -/
def withActor (name : String) (act : Nat → Act Control) : Act Control := do
  match (← world).names.actors.find? name with
  | some n => holding (.actor n) (act n)
  | none => nothing

/-- The scheduler that a name stands for, a new one if there is none. -/
def schedulerOf (name : String) : Act Nat := do
  match (← world).names.schedulers.find? name with
  | some n => return n
  | none =>
      let (n, s) := (← world).system.addScheduler
      setSystem s
      modifyNames fun ns => { ns with schedulers := ns.schedulers.bind name n }
      return n

/-- A further scheduler under a name. -/
def newScheduler (name : String) : Act Nat := do
  modifyNames fun ns => { ns with schedulers := ns.schedulers.drop name }
  schedulerOf name

/-- The scheduler for a manager: the one that is named, or one of its own. -/
def schedulerFor (manager : String) : Option String → Act Nat
  | some name => schedulerOf name
  | none => newScheduler manager

/-- A further manager under a name. -/
def newManager (name : String) (m : Manager) : Act Nat := do
  let (n, s) := (← world).system.addManager m
  setSystem s
  modifyNames fun ns => { ns with managers := ns.managers.bind name n }
  return n

/-- A manager is to hear the requests that others send to its node, if it has one. -/
def hearRequests (manager : Nat) (node : Option Nat) : Act Unit := do
  let w ← world
  match node.bind fun n => (w.nodes[n]?).map fun k => (n, k) with
  | none => pure ()
  | some (n, k) =>
      let (id, d) := k.coordinator.dispatcher.subscribe .actorReschedule (.requests manager)
      modifyNode n fun c => { c with dispatcher := d }
      setSystem (w.system.modifyManager manager fun m => { m with subscription := some id })

/-- A further actor under a name. -/
def newActor (name : String) (body : ActorBody) : Act Unit := do
  let n := (← world).actors.length
  modifyWorld fun w => { w with actors := w.actors ++ [⟨name, body⟩] }
  modifyNames fun ns => { ns with actors := ns.actors.bind name n }

/-- Answer whether the actors could be changed. -/
def settleSystem : Except Error ActorSystem → Act Control
  | .ok s => do
      setSystem s
      answer (.text "ok")
  | .error e => answer (.failure e)

/-- Wait until nothing runs any more on a stopped scheduler, but not for long. -/
def awaitDrain (scheduler : Nat) (limit : Duration) : Act Control := do
  return .await (.drained scheduler ((← world).elapsed + limit.ticks) none)

def takeActorStep : ActorStep Step → Act Control
  | .manager name node scheduler retry =>
      match retry with
      | some none => answer .undecodable
      | _ => do
          let scheduler ← schedulerFor name scheduler
          let coordinator := node.bind (← world).node?
          let retry := (retry.bind id).map Retry.ofPolicy
          let m ← newManager name ⟨[], scheduler, coordinator, retry, none⟩
          hearRequests m coordinator
          answer .nothing
  | .actor name runs => do
      newActor name (.scripted runs 0)
      answer .nothing
  | .register manager name actor delay => withManager manager fun m _ => withActor actor fun a => do
      let w ← world
      settleSystem (w.system.register w.elapsed m name a delay)
  | .registerSuspended manager name actor =>
      withManager manager fun m _ => withActor actor fun a => do
        settleSystem (((← world).system.insert m name a).map Prod.snd)
  | .registerCoordinator manager name actor delay =>
      withManager manager fun m k => withActor actor fun a => do
        match Duration.ofDelay delay, k.coordinator with
        | .error e, _ => answer (.failure e)
        | .ok _, none =>
            answer (.failure (.error (.configuration "coordinator actors need a cluster coordinator")))
        | .ok _, some n =>
            modifyNode n fun c => c.listen (.duty m name a delay)
            push (.reply (.constant (.text "ok")))
            match (← world).nodes[n]? with
            | some node => tellView n node.coordinator.view [.duty m name a delay]
            | none => nothing
  | .reschedule manager name delay => withManager manager fun m k => do
      let w ← world
      match w.system.wake w.elapsed m name delay with
      | .error e => answer (.failure e)
      | .ok s =>
          setSystem s
          push (.reply (.constant (.text "ok")))
          match k.coordinator with
          | some n => fireOthers n (.rescheduleActor name delay)
          | none => nothing
  | .wake manager name delay => withManager manager fun m _ => do
      let w ← world
      settleSystem (w.system.wake w.elapsed m name delay)
  | .remove manager name => withManager manager fun m _ => do
      let (found, s) := (← world).system.remove m name
      setSystem s
      if found then answer (.text "ok") else answer (.failure (.error (.notRegistered name)))
  | .registered manager name => withManager manager fun _ k =>
      answer (.flag (k.entry? name).isSome)
  | .names manager => withManager manager fun _ k => answer (.texts k.sortedNames)
  | .stop manager limit => withManager manager fun m k => do
      match k.coordinator, k.subscription with
      | some n, some id => modifyNode n fun c => { c with dispatcher := (c.dispatcher.unsubscribe id).2 }
      | _, _ => pure ()
      setSystem
        (((← world).system.modifyManager m fun m => { m with subscription := none }).stop m)
      push (.reply (.drain k.scheduler))
      awaitDrain k.scheduler limit
  | .drop manager => do
      let found := ((← world).names.managers.find? manager).isSome
      modifyNames fun ns => { ns with managers := ns.managers.drop manager }
      answer (.flag found)

end RecurringWork.Simulation
