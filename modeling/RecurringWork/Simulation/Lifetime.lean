import RecurringWork.Simulation.World

/-!
# RecurringWork.Simulation.Lifetime

**What is held lives on.** A script can let go of nodes, managers, actors and writers by
dropping their names or giving them to others. A thing lives as long as a name stands
for it, something that is being done needs it, or another thing holds it that lives
itself (`World.isAlive`). Things that hold each other in a ring keep each other alive.

Callbacks and listeners know a node or a manager without holding it. What they are
called for is for them to do only while it lives.
-/

namespace RecurringWork.Simulation

/-- The writers that are to nudge at a commit. -/
def nudgingWriters (hooks : List PostCommit) : List Nat :=
  hooks.filterMap fun h =>
    match h with
    | .nudge writer _ => some writer
    | .callback _ _ => none

def Frame.needs : Frame → List Thing
  | .holding t => [t]
  | .body b => (nudgingWriters (b.scope.elim [] Scope.listeners)).map .writer
  | .told rest _ => (nudgingWriters rest).map .writer
  | _ => []

def NamedActor.holds (a : NamedActor) : List Thing :=
  match a.body with
  | .worker c _ _ _ => c.coordinator.toList.map .node
  | .scripted _ _ => []

namespace World

/-- What a manager holds: its node, and the actors that are registered with it. -/
def heldByManager (w : World) (m : Manager) : List Thing :=
  m.coordinator.toList.map .node ++
    m.names.filterMap fun n => (w.system.entry? n.2).map fun e => .actor e.actor

/-- What a thing holds. -/
def heldBy (w : World) : Thing → List Thing
  | .node n =>
      ((w.nodes[n]?).elim [] fun k => k.coordinator.viewListeners).filterMap fun l =>
        match l with
        | .duty _ _ actor _ => some (.actor actor)
        | .callback _ => none
  | .manager n => ((w.system.manager? n).elim [] w.heldByManager)
  | .actor n => (w.actors[n]?).elim [] NamedActor.holds
  | .writer n =>
      (w.writers[n]?).elim [] fun c => .manager c.manager :: (c.route.toList.map fun r => .node r.1)

/-- What names stand for, firings are for, or is needed in a stack of frames. -/
def rooted (w : World) (stack : List Frame) : List Thing :=
  w.names.nodes.map (fun b => .node b.2) ++ w.names.managers.map (fun b => .manager b.2) ++
    w.names.actors.map (fun b => .actor b.2) ++ w.names.writers.map (fun b => .writer b.2) ++
    (w.system.firings.flatMap fun f =>
      .manager f.1 :: ((w.system.entry? f.2).map fun e => Thing.actor e.actor).toList) ++
    stack.flatMap Frame.needs

/-- All that there ever was. -/
def things (w : World) : List Thing :=
  (List.range w.nodes.length).map .node ++ (List.range w.system.managers.length).map .manager ++
    (List.range w.actors.length).map .actor ++ (List.range w.writers.length).map .writer

/-- Those of some things that are rooted or held by one of them, and again those of
these, until all are. -/
def settled (w : World) (roots : List Thing) : Nat → List Thing → List Thing
  | 0, alive => alive
  | fuel + 1, alive =>
      let held := alive.flatMap w.heldBy
      let rest := alive.filter fun t => roots.contains t || held.contains t
      if rest.length = alive.length then alive else settled w roots fuel rest

/-- What is rooted stays. -/
theorem mem_settled_of_rooted {w : World} {roots alive : List Thing} {t : Thing} (fuel : Nat)
    (known : t ∈ alive) (root : t ∈ roots) : t ∈ w.settled roots fuel alive := by
  induction fuel generalizing alive with
  | zero => exact known
  | succ fuel ih =>
    simp only [settled]
    split
    · exact known
    · exact ih (by simp [known, root])

/-- A thing lives. The frames are those of all tasks. -/
def isAlive (w : World) (stack : List Frame) (t : Thing) : Bool :=
  (w.settled (w.rooted stack) w.things.length w.things).contains t

/-- The frames of the tasks that do not go on now. -/
def waitingFrames (w : World) : List Frame :=
  w.tasks.flatMap fun t => if w.rounds.running == some t.number then [] else t.stack

end World

namespace Act

/-- A thing lives. -/
def isAlive (t : Thing) : Act Bool := do
  let turn ← get
  return turn.world.isAlive (turn.stack ++ turn.world.waitingFrames) t

/-- Do something that needs a thing to the end. -/
def holding (t : Thing) (act : Act Control) : Act Control := do
  push (.holding t)
  act

theorem run_holding (x : Thing) (act : Act Control) (t : Turn) :
    (holding x act).run t = act.run { t with stack := .holding x :: t.stack } := rfl

/-- Do something that needs a thing, if it lives. -/
def ifAlive (t : Thing) (act : Act Control) : Act Control := do
  if ← isAlive t then holding t act else nothing

end Act

end RecurringWork.Simulation
