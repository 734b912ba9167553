import RecurringWork.Backlog.Write
import RecurringWork.Simulation.Answer
import RecurringWork.Simulation.Objects

/-!
# RecurringWork.Simulation.Task

**Threads of work.** The script is a task, and every job that has been scheduled is
another. What a task is in the middle of is its stack of `Frame`s, the innermost
first: each says what to do with the value that comes out of what is being done now.
A task that waits says what for (`Wait`).

The scope of a transaction is kept in the frame of its body. What is done inside the
body finds it there, and so does nothing else (`scopeOf`).
-/

namespace RecurringWork.Simulation

/-- A transaction whose body is being carried out. -/
structure Body where
  /-- Its scope, unless it has joined the one around it. -/
  scope : Option (Scope Write PostCommit)
  limit : Duration
  deadline : Nat
  /-- The timer for the deadline, once there is one. -/
  timer : Option Nat
  /-- The message with which the body fails at its end. -/
  failure : Option String
  /-- The step being taken fails the body if it fails. -/
  marked : Bool
  done : List Answer
  rest : List (Bool × Step)

/-- A run over the backlog. -/
structure BatchRun where
  actor : Nat
  share : Share
  full : Bool
  /-- The item that is being processed. -/
  current : WorkItem
  rest : List WorkItem

/-- How the steps of a sequence are noted. -/
inductive Trace
  /-- As those of a callback. -/
  | reaction
  /-- As those of a run, a processor or a job. -/
  | call (name : String)

/-- The answer to be given when something is over. -/
inductive Reply
  | constant (answer : Answer)
  | elapsed
  | view (node : Nat)
  | drain (scheduler : Nat)

/-- What is noted when a pause is over. -/
inductive Waking
  | run (actor : String) (number : Nat)
  | job (name : String)
  | silent

/-- What becomes of the value of what is being done. -/
inductive Frame
  /-- The script goes on. -/
  | script (rest : List Step) (done : List Report)
  /-- The steps of a callback or a run go on. -/
  | sequence (trace : Trace) (rest : List Step)
  /-- The steps that are taken elsewhere go on. -/
  | collect (rest : List Step) (done : List Answer)
  /-- The body of a transaction goes on. -/
  | body (b : Body)
  /-- More listeners of a transaction are told. -/
  | told (rest : List PostCommit) (answer : Answer)
  | reply (r : Reply)
  /-- After a sleep all others go on first. -/
  | settle
  /-- The result of a run is answered. -/
  | direct
  /-- More is told of a change of the membership. -/
  | changes (rest : List ChangeHook)
  /-- More is told of a view of a node. -/
  | views (node : Nat) (view : View) (rest : List ViewHook)
  /-- More hear an event, at a node or at none. -/
  | hearing (node : Option Nat) (event : Event) (rest : List EventHook)
  /-- More sinks take an event. -/
  | delivery (event : Event) (rest : List EventSink)
  /-- An event that was heard at its node is sent to the others. -/
  | sending (node : Nat) (event : Event)
  /-- A node computes the view after a version. -/
  | recompute (node previous : Nat)
  /-- A member starts its node. -/
  | joining (name : String) (address : Address)
  | callbackEnd (breaksOff : Bool)
  /-- A run of an actor ends. -/
  | firing (manager entry : Nat)
  /-- A firing has got the lock it waited for. -/
  | granted (manager entry : Nat) (job : JobRef)
  /-- A pause is over, and steps follow. -/
  | awake (waking : Waking) (trace : Trace) (calls : List Step)
  /-- A run answers. -/
  | ending (result : RunResult)
  /-- A processor goes on to its verdict. -/
  | judging (actor : String) (j : Judgement Step)
  /-- A verdict is recorded. -/
  | batch (run : BatchRun)
  /-- What is being done needs this, whoever lets go of it meanwhile. -/
  | holding (thing : Thing)
  /-- More schedulers are stopped. -/
  | stopping (name : String) (scheduler : Nat) (rest : List (String × Nat)) (limit : Duration)
      (done : List (String × Drain))

/-- What a task waits for. A timer has a number, which says in which order timers
were set, once it is set. -/
inductive Wait
  | timer (due : Nat) (timer : Option Nat)
  /-- A job is due, or cancelled. -/
  | job (job : JobRef) (timer : Option (Nat × Nat))
  /-- The job gets the lock of an entry. -/
  | lock (entry : Nat) (job : JobRef)
  /-- Another task ends. -/
  | task (number : Nat)
  /-- Nothing runs any more on a stopped scheduler, or a time. -/
  | drained (scheduler due : Nat) (timer : Option Nat)
  /-- Nobody else can go on. -/
  | quiet

/-- What comes out of something. -/
inductive Value
  | nothing
  | answer (value : Answer)
  | ran (result : RunResult)
  | judged (verdict : Verdict)

/-- What a task does now. -/
inductive Control
  /-- Take a step. -/
  | step (s : Step)
  /-- Have a node compute and publish its view. -/
  | publish (node : Nat)
  /-- Hand a value to the innermost frame. -/
  | give (v : Value)
  /-- Unwind to the innermost frame that puts up with it. -/
  | fault
  /-- Wait, unless what is waited for has happened already. -/
  | await (w : Wait)
  /-- Wait until something happens. -/
  | wait (w : Wait)
  | ended (v : Value)
  /-- A fault has unwound everything. -/
  | brokeOff

/-- A thread of work. -/
structure Task where
  number : Nat
  /-- The job that it carries out. -/
  job : Option JobRef
  control : Control
  stack : List Frame

/-- The scope of the transaction around what is being done. -/
def scopeOf : List Frame → Option (Scope Write PostCommit)
  | [] => none
  | .body b :: rest => b.scope <|> scopeOf rest
  | _ :: rest => scopeOf rest

/-- Change the scope of the transaction around what is being done. -/
def withScope (s : Scope Write PostCommit) : List Frame → List Frame
  | [] => []
  | .body b :: rest =>
      if b.scope.isSome then .body { b with scope := some s } :: rest
      else .body b :: withScope s rest
  | f :: rest => f :: withScope s rest

end RecurringWork.Simulation
