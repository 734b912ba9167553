import RecurringWork.Simulation.Lifetime

/-!
# RecurringWork.Simulation.Cluster

**Nodes, their views and their events.** Whoever is told of something is told one
after the other, in an order that is settled beforehand: callbacks of a change
(`tellChange`), listeners of a view (`tellView`), listeners of an event (`hear`), and
the sinks of the members it is sent to (`deliver`). Each can bring about the same
again before the next one's turn.

A listener of a view or an event that breaks off does not keep the others from being
told. A callback of the membership or a sink does.
-/

namespace RecurringWork.Simulation

open Act

/-! ### Callbacks -/

/-- A callback is called that has left its notice. -/
def react (number : Nat) (reaction : Reaction Step) : Act Control := do
  match (← world).callbacks[number]? with
  | none => nothing
  | some c =>
      modifyWorld fun w =>
        { w with callbacks := w.callbacks.modify number fun c => { c with calls := c.calls + 1 } }
      push (.callbackEnd reaction.breaksOff)
      if c.calls + 1 = reaction.call then sequence .reaction reaction.steps else nothing

/-- A callback is called for what it is told. -/
def callBack (number : Nat) (told : Callback → Notice) : Act Control := do
  match (← world).callbacks[number]? with
  | none => nothing
  | some c =>
      note (told c)
      react number c.reaction

/-- A further callback. -/
def addCallback (name : String) (kind : CallbackKind) (reaction : Reaction Step) : Act Nat := do
  let n := (← world).callbacks.length
  modifyWorld fun w => { w with callbacks := w.callbacks ++ [⟨name, kind, reaction, 0⟩] }
  return n

/-! ### Events -/

/-- The listeners hear an event, at a node or at none. -/
def hear (node : Option Nat) (event : Event) : List EventHook → Act Control
  | [] => nothing
  | hook :: rest => do
      push (.hearing node event rest)
      match hook with
      | .callback n =>
          callBack n fun c =>
            match c.kind with
            | .event node => .heard c.name node event
            | .change | .view => .heard c.name "" event
      | .requests m =>
          let w ← world
          match event.kind with
          | .rescheduleActor name delay =>
              if ← isAlive (.manager m) then
                setSystem (w.system.heedRequest w.elapsed m name delay)
          | _ => pure ()
          nothing
      | .news worker m name =>
          let w ← world
          match event.kind, w.worker? worker with
          | .backlogChanged route due, some c =>
              if c.key.name = route then
                let (needed, target) := c.target.request due
                modifyWorld fun w => w.setTarget worker target
                if needed && (← isAlive (.manager m)) then
                  match w.system.wake w.elapsed m name (delayUntil due w.now).toMillis with
                  | .ok s => setSystem s
                  | .error _ => pure ()
          | _, _ => pure ()
          nothing

/-- The sinks of the members take an event. -/
def deliver (event : Event) : List EventSink → Act Control
  | [] => nothing
  | sink :: rest => do
      push (.delivery event rest)
      match sink with
      | .callback n =>
          callBack n fun c =>
            match c.kind with
            | .event node => .heard c.name node event
            | .change | .view => .heard c.name "" event
      | .listeners n =>
          match (← world).nodes[n]? with
          | some k =>
              ifAlive (.node n) (hear (some n) event (k.coordinator.dispatcher.audience event))
          | none => nothing

/-- Hand an event to a facility. The answer holds the sinks that take it. -/
def send (facility : Facility) (event : Event) (excluded : List Address) :
    Act (Except BroadcastError Unit × List EventSink) := do
  let w ← world
  match facility with
  | .group =>
      let d := w.group.send excluded
      return (d.outcome, d.sinks)
  | .alone => return (.ok (), [])
  | .standIn n =>
      note (.sent event excluded)
      match (w.standIns[n]?).bind StandIn.refusal with
      | some reason => return (.error (.transport reason), [])
      | none => return (.ok (), [])

/-- Send an event of a node to all others. That it did not reach them all is no
failure. -/
def sendFrom (node : Nat) (event : Event) : Act Control := do
  match (← world).nodes[node]? with
  | none => nothing
  | some k =>
      let (_, sinks) ← send k.facility event [k.coordinator.node]
      deliver event sinks

/-- Fire an event at all nodes but its own. -/
def fireOthers (node : Nat) (event : Event) : Act Control := do
  match (← world).nodes[node]? with
  | none => nothing
  | some k => sendFrom node (event.withOrigin k.coordinator.node)

/-- Fire an event at all nodes, its own first. -/
def fire (node : Nat) (event : Event) : Act Control := do
  match (← world).nodes[node]? with
  | none => nothing
  | some k =>
      let event := event.withOrigin k.coordinator.node
      push (.sending node event)
      hear (some node) event (k.coordinator.dispatcher.audience event)

/-! ### Views -/

/-- The listeners are told of a view of a node. -/
def tellView (node : Nat) (view : View) : List ViewHook → Act Control
  | [] => nothing
  | hook :: rest => do
      push (.views node view rest)
      match hook with
      | .callback n => callBack n fun c => .view c.name view
      | .duty m name actor delay =>
          let w ← world
          if ← isAlive (.manager m) then
            setSystem (w.system.heedView w.elapsed m name actor delay view)
          nothing

/-- Compute and publish the view that follows a version. If another one has been
published meanwhile, look at the members again. -/
def recompute (node previous : Nat) : Act Control := do
  let w ← world
  match w.nodes[node]? with
  | none => nothing
  | some k =>
      let (members, coordinates) := w.membership k.coordinator.node k.facility
      match k.coordinator.republish? previous members coordinates with
      -- Another view was published while the members were asked for.
      | none => return .publish node
      | some (listeners, c) =>
          modifyNode node fun _ => c
          tellView node c.view listeners

/-- Look at the members and publish the view. A stand-in may have the node do the same
before it answers. -/
def publish (node : Nat) : Act Control := do
  let w ← world
  match w.nodes[node]? with
  | none => nothing
  | some k =>
      let previous := k.coordinator.view.version
      let races :=
        match k.facility with
        | .standIn n => (w.standIns[n]?).map fun s => (n, s.races)
        | _ => none
      match races with
      | some (n, left + 1) =>
          modifyWorld fun w =>
            { w with standIns := w.standIns.modify n fun s => { s with races := left } }
          push (.recompute node previous)
          return .publish node
      | _ => recompute node previous

/-- Those that want to know are told of a change of the membership. -/
def tellChange : List ChangeHook → Act Control
  | [] => nothing
  | hook :: rest => do
      push (.changes rest)
      match hook with
      | .callback n => callBack n fun c => .changed c.name
      | .refresh n => ifAlive (.node n) (return .publish n)

/-- A further node, which looks at the members of its facility. -/
def startNode (name : String) (address : Address) (facility : Facility) : Act Nat := do
  let w ← world
  let (members, coordinates) := w.membership address facility
  let n := w.nodes.length
  modifyWorld fun w =>
    { w with nodes := w.nodes ++ [⟨.start address members coordinates, facility⟩] }
  match facility with
  | .group =>
      modifyWorld fun w =>
        { w with group := (w.group.onChange address (.refresh n)).onEvent address (.listeners n) }
  | .alone => pure ()
  | .standIn k =>
      modifyWorld fun w =>
        { w with standIns := w.standIns.modify k fun s =>
            { s with callbacks := s.callbacks ++ [.refresh n], sinks := s.sinks ++ [.listeners n] } }
  modifyNames fun ns =>
    { ns with nodes := ns.nodes.bind name n, members := ns.members.bind name (address, facility) }
  return n

def answerView (n : Nat) : Act Control := do
  match (← world).nodes[n]? with
  | some k => answer (.view k.coordinator.view)
  | none => nothing

/-! ### Steps -/

/-- Do something with the node that a name stands for, and needs it to the end. -/
def withNode (name : String) (act : Nat → Node → Act Control) : Act Control := do
  let w ← world
  match (w.node? name).bind fun n => (w.nodes[n]?).map fun k => (n, k) with
  | some (n, k) => holding (.node n) (act n k)
  | none => nothing

/-- Do something with the member that a name stands for. -/
def withMember (name : String) (act : Address → Facility → Act Control) : Act Control := do
  match (← world).names.members.find? name with
  | some (a, f) => act a f
  | none => nothing

/-- Do something with an event that did decode. -/
def withEvent (event : Option Event) (act : Event → Act Control) : Act Control :=
  match event with
  | some e => act e
  | none => answer .undecodable

def standInOf (name : String) : Act (Option (Nat × StandIn)) := do
  let w ← world
  match w.names.members.find? name with
  | some (_, .standIn n) => return (w.standIns[n]?).map fun s => (n, s)
  | _ => return none

/-- A node that is to be told of changes of its membership. -/
def addChangeHook (a : Address) (f : Facility) (hook : ChangeHook) : Act Unit :=
  modifyWorld fun w =>
    match f with
    | .group => { w with group := w.group.onChange a hook }
    | .alone => w
    | .standIn n =>
        { w with standIns := w.standIns.modify n fun s =>
            { s with callbacks := s.callbacks ++ [hook] } }

/-- A node that is to take events. -/
def addSink (a : Address) (f : Facility) (sink : EventSink) : Act Unit :=
  modifyWorld fun w =>
    match f with
    | .group => { w with group := w.group.onEvent a sink }
    | .alone => w
    | .standIn n =>
        { w with standIns := w.standIns.modify n fun s => { s with sinks := s.sinks ++ [sink] } }

def StandIn.changed (s : StandIn) (c : FacilityChange) : StandIn :=
  { s with
    members := c.members.getD s.members
    isCoordinator := c.isCoordinator.getD s.isCoordinator
    races := c.races.getD s.races
    refusal := c.refusal.getD s.refusal }

def takeClusterStep : ClusterStep Step → Act Control
  | .join name a => do
      let (hooks, g) := (← world).group.join a
      modifyWorld fun w => { w with group := g }
      push (.joining name a)
      tellChange hooks
  | .member name a => do
      let (hooks, g) := (← world).group.join a
      modifyWorld fun w => { w with group := g }
      modifyNames fun ns => { ns with members := ns.members.bind name (a, .group) }
      push (.reply (.constant .nothing))
      tellChange hooks
  | .standalone name a => do
      let _ ← startNode name a .alone
      let (members, _) := (← world).membership a .alone
      withNode name fun _ k => answer (.alone members k.coordinator.view)
  | .standIn name a members coordinates => do
      let n := (← world).standIns.length
      modifyWorld fun w =>
        { w with standIns := w.standIns ++ [⟨members, coordinates, 0, none, [], []⟩] }
      answerView (← startNode name a (.standIn n))
  | .changeStandIn name change => do
      match ← standInOf name with
      | some (n, _) =>
          modifyWorld fun w => { w with standIns := w.standIns.modify n fun s => s.changed change }
          answer .nothing
      | none => nothing
  | .notifyStandIn name => do
      match ← standInOf name with
      | some (_, s) =>
          push (.reply (.constant (.number s.callbacks.length)))
          tellChange s.callbacks
      | none => nothing
  | .deliverStandIn name event => withEvent event fun e => do
      match ← standInOf name with
      | some (_, s) =>
          push (.reply (.constant (.number s.sinks.length)))
          deliver e s.sinks
      | none => nothing
  | .leave a => do
      let (hooks, g) := (← world).group.leave a
      modifyWorld fun w => { w with group := g }
      push (.reply (.constant (.flag hooks.isSome)))
      tellChange (hooks.getD [])
  | .reachable a value => do
      modifyWorld fun w => { w with group := w.group.setReachable a value }
      answer .nothing
  | .group => do
      let g := (← world).group
      answer (.group g.addresses g.coordinator?)
  | .memberView name => withMember name fun a f => do
      let (members, coordinates) := (← world).membership a f
      answer (.member a members coordinates)
  | .memberCallback name callback reaction => withMember name fun a f => do
      addChangeHook a f (.callback (← addCallback callback .change reaction))
      answer .nothing
  | .memberSink name callback reaction => withMember name fun a f => do
      addSink a f (.callback (← addCallback callback (.event name) reaction))
      answer .nothing
  | .broadcast name event excluded => withEvent event fun e => withMember name fun _ f => do
      let (outcome, sinks) ← send f e excluded
      push (.reply (.constant (match outcome with
        | .ok () => .text "ok"
        | .error b => .broadcast b)))
      deliver e sinks
  | .info name => withNode name fun _ k =>
      answer (.node k.coordinator.node k.coordinator.view)
  | .changed name => withNode name fun n _ => do
      push (.reply (.view n))
      return .publish n
  | .viewListener name callback reaction => withNode name fun n k => do
      let hook := ViewHook.callback (← addCallback callback .view reaction)
      modifyNode n fun c => c.listen hook
      push (.reply (.constant .nothing))
      tellView n k.coordinator.view [hook]
  | .subscribe node name category reaction =>
      match category with
      | none => answer .undecodable
      | some c => do
          let hook := EventHook.callback (← addCallback name (.event (node.getD "")) reaction)
          match node with
          | none =>
              let (n, d) := (← world).dispatcher.subscribe c hook
              modifyWorld fun w => { w with dispatcher := d }
              modifyNames fun ns => { ns with subscriptions := ns.subscriptions.bind name n }
              answer .nothing
          | some node => withNode node fun k m => do
              let (n, d) := m.coordinator.dispatcher.subscribe c hook
              modifyNode k fun c => { c with dispatcher := d }
              modifyNames fun ns => { ns with subscriptions := ns.subscriptions.bind name n }
              answer .nothing
  | .unsubscribe node name => do
      match (← world).names.subscriptions.find? name with
      | none => answer (.flag false)
      | some n =>
          match node with
          | none =>
              let (found, d) := (← world).dispatcher.unsubscribe n
              modifyWorld fun w => { w with dispatcher := d }
              answer (.flag found)
          | some node => withNode node fun k m => do
              let (found, d) := m.coordinator.dispatcher.unsubscribe n
              modifyNode k fun c => { c with dispatcher := d }
              answer (.flag found)
  | .listenerCount => do answer (.number (← world).dispatcher.size)
  | .dispatch event => withEvent event fun e => do
      let hooks := (← world).dispatcher.audience e
      push (.reply (.constant (.number hooks.length)))
      hear none e hooks
  | .fire name event => withEvent event fun e => withNode name fun n _ => do
      push (.reply (.constant .nothing))
      fire n e
  | .fireOthers name event => withEvent event fun e => withNode name fun n _ => do
      push (.reply (.constant .nothing))
      fireOthers n e
  | .dropNode name => do
      let found := ((← world).node? name).isSome
      modifyNames fun ns => { ns with nodes := ns.nodes.drop name }
      answer (.flag found)

end RecurringWork.Simulation
