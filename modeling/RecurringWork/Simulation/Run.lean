import RecurringWork.Simulation.Dispatch

/-!
# RecurringWork.Simulation.Run

**How a simulation goes on.** The task that is running does one thing after the other
(`advance`) until it has to wait. Then the next one that can go on does (`Rounds`).
When none can, whoever waits for exactly that goes on; and when nobody does, time moves
straight to the next timer, and all tasks whose timers are then due can go on, in the
order in which the timers were set (`World.turn`).

Before a task waits, the transactions around what it is doing are looked at, the
innermost first: the first whose time is up is ended instead (`poll`).

A fault unwinds what the task is doing. It ends where somebody puts up with it: those
who tell listeners of a commit, a view or an event tell the next one, a run of an actor
has failed, a run that was asked for directly is answered with the fault. Otherwise it
ends the task, and with the script the simulation.

A simulation is over when its script is. Every turn is finite, but a script may go on
forever, so `World.run` takes a bound on the number of turns.
-/

namespace RecurringWork.Simulation

open Act

def takeStep : Step → Act Control
  | .now => do answer (.number (← world).now)
  | .advance d => do
      modifyWorld fun w => { w with clock := w.clock.advance d }
      answer (.number (← world).now)
  | .setClock t => do
      modifyWorld fun w => { w with clock := w.clock.set w.elapsed t }
      answer (.number (← world).now)
  | .sleep d => do
      push .settle
      sleep d
  | .backlog s => takeBacklogStep s
  | .inTransaction => do answer (.flag (← scope).isSome)
  | .transaction joins limit failure body => beginBody joins limit failure body
  | .listener name reaction => do
      match ← scope with
      | none => answer (.failure (.error .noActiveTransaction))
      | some s =>
          setScope (some (s.listen (.callback name reaction)))
          answer .nothing
  | .outside steps => do
      let n := (← world).nextTask
      let control := match steps with
        | [] => .give (.answer (.answers []))
        | s :: _ => .step s
      let stack := if steps.isEmpty then [] else [.collect steps.tail []]
      modifyWorld fun w =>
        { w with
          tasks := w.tasks ++ [⟨n, none, control, stack⟩]
          rounds := w.rounds.wake n
          nextTask := n + 1 }
      return .await (.task n)
  | .cluster s => takeClusterStep s
  | .actors s => takeActorStep s
  | .dispatch s => takeDispatchStep s
  | .schedulers s => takeSchedulerStep s
  | .unknown => answer .nothing

def Value.toAnswer : Value → Answer
  | .answer a => a
  | .ran (.reschedule d) => .pause d
  | _ => .nothing

def reported (rest : List Step) (done : List Report) (a : Answer) : Act Control := do
  let done := done ++ [⟨a, (← world).notices⟩]
  modifyWorld fun w => { w with notices := [] }
  push (.script rest.tail done)
  match rest with
  | [] => return .ended .nothing
  | s :: _ => return .step s

/-- A step that is taken elsewhere has been answered. -/
def collected (rest : List Step) (done : List Answer) : Act Control :=
  match rest with
  | [] => answer (.answers done)
  | s :: rest => do
      push (.collect rest done)
      return .step s

def noted (trace : Trace) (rest : List Step) (a : Answer) : Act Control := do
  note (match trace with
    | .reaction => .reaction a
    | .call name => .call name a)
  sequence trace rest

/-- The innermost frame has got a value. -/
def resume (v : Value) : Frame → Act Control
  | .script rest done => reported rest done v.toAnswer
  | .sequence trace rest => noted trace rest v.toAnswer
  | .collect rest done => collected rest (done ++ [v.toAnswer])
  | .body b => answeredInBody b v.toAnswer
  | .told rest reply => tell reply rest
  | .reply (.constant a) => answer a
  | .reply .elapsed => do answer (.number (← world).elapsed)
  | .reply (.view n) => answerView n
  | .reply (.drain n) => do answer (.drain ((← world).system.scheduler n).drain)
  | .settle => do
      push (.reply .elapsed)
      return .await .quiet
  | .direct => answer v.toAnswer
  | .changes rest => tellChange rest
  | .views n view rest => tellView n view rest
  | .hearing n e rest => hear n e rest
  | .delivery e rest => deliver e rest
  | .sending n e => sendFrom n e
  | .recompute n previous => recompute n previous
  | .joining name a => do answerView (← startNode name a .group)
  | .callbackEnd breaksOff => if breaksOff then return .fault else nothing
  | .firing m e =>
      endFiring m e (match v with
        | .ran r => some r
        | _ => none)
  | .granted m e job => do
      let (arrival, s) := (← world).system.proceed e
      setSystem s
      follow m e job arrival
  | .awake waking trace calls => wakeUp waking trace calls
  | .ending r => return .give (.ran r)
  | .judging actor j => judge actor j
  | .batch r =>
      match v with
      | .judged v => endItem r v
      | _ => nothing
  | .holding _ => return .give v
  | .stopping name n rest limit done => do
      stopNext limit (done ++ [(name, ((← world).system.scheduler n).drain)]) rest

/-- The innermost frame has been reached by a fault. -/
def rescue : Frame → Act Control
  | .told rest reply => tell reply rest
  | .views n view rest => tellView n view rest
  | .hearing n e rest => hear n e rest
  | .firing m e => endFiring m e (some .failed)
  | .direct => answer (.failure .fault)
  | _ => return .fault

/-- A wait is over that counts: the task goes on, or is put off. -/
def endWait (w : Wait) (c : Control) : Act (Wait ⊕ Control) := do
  let t ← world
  match t.rounds.endWait? with
  | some rounds =>
      modifyWorld fun w => { w with rounds }
      return .inr c
  | none =>
      modifyWorld fun w => { w with rounds := w.rounds.postpone }
      return .inl w

/-- The number of a timer, which is set now if it has none. -/
def timerNumber : Option Nat → Act Nat
  | some n => return n
  | none => setTimer

/-- Look at what a task waits for: what it waits for now, or what it does instead. -/
def lookAt (w : Wait) : Act (Wait ⊕ Control) := do
  let t ← world
  match w with
  | .timer due timer =>
      -- A task that has no patience left sets no timer either.
      if due ≤ t.elapsed ∨ t.rounds.waits = 0 then endWait w (.give .nothing)
      else return .inl (.timer due (← timerNumber timer))
  | .job j timer =>
      let (attention, s) := t.system.attend t.elapsed j
      setSystem s
      match attention with
      | .begin duty => endWait w (← beginJob j duty)
      | .over => return .inr (.ended .nothing)
      | .rest due =>
          match timer with
          | some _ => return .inl w
          | none => return .inl (.job j (some (due, ← setTimer)))
  | .lock e j =>
      let held := (t.system.entry? e).any fun e => e.holder == some j
      if held then endWait w (.give .nothing) else return .inl w
  | .task n =>
      match t.tasks.find? fun k => k.number == n with
      | some ⟨_, _, .ended v, _⟩ => endWait w (.give v)
      | some ⟨_, _, .brokeOff, _⟩ => endWait w .fault
      | some _ => return .inl w
      | none => return .inr (.give .nothing)
  | .drained n due timer =>
      if (t.system.scheduler n).isDrained then return .inr (.give .nothing)
      else if due ≤ t.elapsed then endWait w (.give .nothing)
      else return .inl (.drained n due (← timerNumber timer))
  | .quiet => return .inl w

/-- What a task does that waits. If it has to, the innermost transaction around it
whose time is up is ended; if there is none, it goes on waiting. -/
def poll (w : Wait) : Act Control := do
  match ← lookAt w with
  | .inr c => return c
  | .inl w =>
      let t ← get
      match overdue? t.world.elapsed t.stack with
      | some (b, rest) =>
          modify fun t => { t with stack := rest }
          endBody b (.error (.transactionTimeout b.limit))
      | none =>
          let (next, stack) := setBodyTimers t.world.nextTimer t.stack
          set { t with world := { t.world with nextTimer := next }, stack }
          return .wait w

/-- Take the innermost frame off the stack. -/
def pop : Act (Option Frame) := do
  match (← get).stack with
  | [] => return none
  | f :: rest =>
      modify fun t => { t with stack := rest }
      return some f

/-- The next thing that a task does. -/
def advance : Control → Act Control
  | .step s => takeStep s
  | .publish n => publish n
  | .give v => do
      match ← pop with
      | some f => resume v f
      | none => return .ended v
  | .fault => do
      match ← pop with
      | some f => rescue f
      | none => return .brokeOff
  | .await w | .wait w => poll w
  | .ended v => return .ended v
  | .brokeOff => return .brokeOff

namespace World

/-- Some tasks can go on. -/
def wake (w : World) (tasks : List Nat) : World := { w with rounds := w.rounds.wakeAll tasks }

/-- The jobs that the actor system has become aware of can go on. A job that is new
gets a task. -/
def absorbAlert (w : World) (j : JobRef) : World :=
  match w.tasks.find? fun t => t.job == some j with
  | some t => w.wake [t.number]
  | none =>
      -- A job sets its timer only when its task goes on for the first time.
      { w.wake [w.nextTask] with
        tasks := w.tasks ++ [⟨w.nextTask, some j, .wait (.job j none), []⟩]
        nextTask := w.nextTask + 1 }

def absorbAlerts (w : World) : World :=
  let alerts := w.system.alerts
  alerts.foldl absorbAlert { w with system := { w.system with alerts := [] } }

/-- Tasks with the order of their timers. -/
def inOrder (timers : List (Nat × Nat)) : List Nat :=
  (timers.mergeSort fun a b => a.1 ≤ b.1).map Prod.snd

/-- The tasks that wait for a scheduler to be drained, if it is. -/
def drainWaiters (w : World) (scheduler : Nat) : List Nat :=
  if (w.system.scheduler scheduler).isDrained then
    inOrder (w.tasks.filterMap fun t =>
      match t.control with
      | .wait (.drained n _ timer) =>
          if n = scheduler then some (timer.getD w.nextTimer, t.number) else none
      | _ => none)
  else []

def taskWaiters (w : World) (task : Nat) : List Nat :=
  w.tasks.filterMap fun t =>
    match t.control with
    | .wait (.task n) => if n = task then some t.number else none
    | _ => none

/-- A task has ended. That of a job is forgotten; what came out of another one is kept
for whoever waits for it. -/
def endTask (w : World) (t : Task) : World :=
  match t.job with
  | some j =>
      let w :=
        { w with
          system := w.system.finishJob j
          tasks := w.tasks.filter fun (k : Task) => k.number != t.number }
      w.wake (w.drainWaiters j.scheduler)
  | none => w.wake (w.taskWaiters t.number)

/-- The task that is running goes on. -/
def runTask (w : World) (t : Task) : World :=
  let (control, turn) := (advance t.control).run ⟨w, t.stack⟩
  let t' := { t with control, stack := turn.stack }
  let w := turn.world
  let w := { w with tasks := w.tasks.map fun (k : Task) => if k.number = t.number then t' else k }
  let w := w.absorbAlerts
  match control with
  | .ended _ | .brokeOff => let w := w.endTask t'; { w with rounds := w.rounds.rest }
  | .wait _ => { w with rounds := w.rounds.rest }
  | _ => w

/-- The timers that are set: when each is due, its number and its task. -/
def timers (w : World) : List (Nat × Nat × Nat) :=
  w.tasks.flatMap fun t =>
    (match t.control with
      | .wait (.timer due (some timer)) => [(due, timer, t.number)]
      | .wait (.job _ (some (due, timer))) => [(due, timer, t.number)]
      | .wait (.drained _ due (some timer)) => [(due, timer, t.number)]
      | _ => []) ++
    t.stack.filterMap fun f =>
      match f with
      | .body b => b.timer.map fun timer => (b.deadline, timer, t.number)
      | _ => none

def nextTimer? (w : World) : Option Nat :=
  w.timers.foldl (fun best t => some (match best with
    | some due => min due t.1
    | none => t.1)) none

/-- Time moves to a timer. -/
def moveTo (w : World) (due : Nat) : World :=
  let woken := (w.timers.filter fun t => t.1 ≤ due).mergeSort fun a b =>
    a.1 < b.1 || (a.1 == b.1 && a.2.1 ≤ b.2.1)
  { w with
    rounds := (w.rounds.wakeAll (woken.map fun t => t.2.2)).endRound
    elapsed := max w.elapsed due }

/-- The task that waits for nobody else to be able to go on. -/
def quiet? (w : World) : Option Task :=
  w.tasks.find? fun t =>
    match t.control with
    | .wait .quiet => true
    | _ => false

/-- A task that waited for that goes on, since nobody else can. -/
def endQuiet (w : World) (t : Task) : World :=
  { w with
    rounds := (w.rounds.wake t.number).endRound
    tasks := w.tasks.map fun (k : Task) =>
      if k.number = t.number then { k with control := .give .nothing } else k }

/-- The next thing that happens. -/
def turn (w : World) : World :=
  match w.rounds.running.bind fun n => w.tasks.find? fun t => t.number == n with
  | some t => w.runTask t
  | none =>
      if w.rounds.isIdle then
        match w.quiet?, w.nextTimer? with
        | some t, _ => w.endQuiet t
        | none, some due => w.moveTo due
        | none, none => w
      else { w with rounds := w.rounds.next }

def scriptTask? (w : World) : Option Task := w.tasks.find? fun t => t.number == scriptTask

/-- The script is over. -/
def isOver (w : World) : Bool :=
  match w.scriptTask?.map Task.control with
  | some (.ended _) | some .brokeOff => true
  | _ => false

/-- What the script has reported, if it has come to its end. -/
def reports? (w : World) : Option (List Report) :=
  match w.scriptTask? with
  | some ⟨_, _, .ended _, .script _ done :: _⟩ => some done
  | _ => none

/-- The world after at most so many turns, or when the script is over. -/
def run : Nat → World → World
  | 0, w => w
  | n + 1, w => if w.isOver then w else run n w.turn

end World

/-- A script with the clock it runs by. -/
structure Script where
  clock : Clock
  maxDeferCount : Nat
  steps : List Step

def Script.world (s : Script) : World where
  elapsed := 0
  clock := s.clock
  backlog := .empty s.maxDeferCount
  group := .empty
  dispatcher := .empty
  nodes := []
  standIns := []
  system := .empty
  actors := []
  writers := []
  errands := []
  callbacks := []
  names := ⟨[], [], [], [], [], [], [], [], [], none⟩
  notices := []
  tasks := [⟨scriptTask, none, match s.steps with
    | [] => .ended .nothing
    | step :: _ => .step step, [.script s.steps.tail []]⟩]
  rounds := .start
  nextTask := 1
  nextTimer := 0

/-- How many turns a script may take. -/
def turnLimit : Nat := 1000000000

/-- What a script reports, and the backlog that it leaves behind; nothing if it breaks
off. -/
def Script.play? (s : Script) : Option (List Report × Backlog) :=
  let w := s.world.run turnLimit
  w.reports?.map fun reports => (reports, w.backlog)

end RecurringWork.Simulation
