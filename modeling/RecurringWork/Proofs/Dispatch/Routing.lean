import Mathlib.Data.List.Pairwise
import RecurringWork.Proofs.Dispatch.Circulation
import RecurringWork.Proofs.Dispatch.Submissions

/-!
# RecurringWork.Proofs.Dispatch.Routing

**Wake-ups go to exactly the right workers.** In a group of nodes each worker has its seat, and
listens to the news of its node (`World.Wired`). A worker that is routed takes a seat next to
the others (`Wired.takes_seat`), and nothing else is asked of a group: there may be any number
of nodes and workers, with any slices and any wake targets.

A writer announces work for a worker of its node (`World.WritesFor`). A nudge wakes that
worker directly. The news are sent to all members but its own node, so they are not heard
there again; each member that can be reached has them once (`Wired.exists_hearers`), and has
its workers hear them once, although the event has several tags (`Wired.audience`). They are
for the workers of the slice alone, because different slices have different names
(`PartitionKey.name_inj`). So those who are informed (`World.Informs`) heed the news, and
everything else stays as it is (`World.Routed`, `Wired.nudged`), so that the group is ready for
the next nudge (`Wired.lasts`).

Who hands in items is answered with them, whoever of the members cannot be reached.
-/

namespace RecurringWork

/-! ### Names of slices -/

theorem WorkTag.name_inj {a b : WorkTag} : a.name = b.name ↔ a = b := by
  constructor
  · cases a <;> cases b <;> decide
  · rintro rfl
    rfl

/-- **Different slices have different names**, whatever channels are called. -/
theorem PartitionKey.name_inj {a b : PartitionKey} : a.name = b.name ↔ a = b := by
  constructor
  · intro same
    -- The first letter tells the three sorts of names apart.
    have letters := congrArg String.toList same
    cases a <;> cases b <;> simp [name] at letters ⊢
    · exact WorkTag.name_inj.mp (String.toList_injective letters)
    · exact String.toList_injective letters
  · rintro rfl
    rfl

namespace Simulation

open World

variable {w : World} {p : Seat} {stack : List Frame}

namespace World

/-! ### Groups whose workers are routed -/

/-- A group of nodes whose workers have these seats, while a task is in the middle of `stack`. -/
structure Wired (w : World) (stack : List Frame) (seats : List Seat) : Prop where
  seated : ∀ p ∈ seats, w.Seated p
  apart : seats.Pairwise Seat.Apart
  /-- News of the backlog are heard at a node for each of its workers, once. -/
  routed : ∀ (n : Nat) (k : Node), w.nodes[n]? = some k →
    (k.coordinator.dispatcher.subscribers .backlogChanged).map Subscription.listener =
      (seats.filter fun p => p.node == n).map Seat.news
  /-- Apart from that, managers heed requests. -/
  heeding : ∀ (n : Nat) (k : Node), w.nodes[n]? = some k →
    ∀ s ∈ k.coordinator.dispatcher.subscriptions, s.category = .backlogChanged ∨
      s.category = .actorReschedule ∧ ∃ m, s.listener = .requests m
  /-- The members are nodes. -/
  members : ∀ m ∈ w.group.members, ∃ n k, m.sinks = [.listeners n] ∧ w.nodes[n]? = some k ∧
    k.coordinator.node = m.address ∧ w.isAlive (stack ++ w.waitingFrames) (.node n) = true
  addresses : w.group.addresses.Nodup
  managers : ∀ p ∈ seats, w.isAlive (stack ++ w.waitingFrames) (.manager p.manager) = true

namespace Wired

variable {seats : List Seat} {here : Seat} {key : PartitionKey} {n : Nat}

theorem apart_of_ne (wired : w.Wired stack seats) {p q : Seat} (here : p ∈ seats)
    (there : q ∈ seats) (other : p ≠ q) : p.Apart q := by
  have : Std.Symm Seat.Apart := ⟨fun _ _ h => h.symm⟩
  exact wired.apart.forall here there other

/-- **News of the backlog are heard at a node by each of its workers, once**, and by nobody else,
although the event has further tags. -/
theorem audience (wired : w.Wired stack seats) {k : Node} (there : w.nodes[n]? = some k)
    (route : String) (t : Int) (origin : Address) :
    k.coordinator.dispatcher.audience ((Event.backlogChanged route t).withOrigin origin) =
      (seats.filter fun p => p.node == n).map Seat.news := by
  have nobody : ∀ c : Category, c ≠ .backlogChanged → c ≠ .actorReschedule →
      k.coordinator.dispatcher.subscribers c = [] := by
    intro c new old
    rw [Dispatcher.subscribers, List.filter_eq_nil_iff]
    intro s mem
    rcases wired.heeding n k there s mem with tag | ⟨tag, -⟩
    · simpa [tag] using new.symm
    · simpa [tag] using old.symm
  rw [← wired.routed n k there]
  simp [Dispatcher.audience, Event.withOrigin, Event.backlogChanged, Event.ofKind,
    EventKind.categories, nobody]

/-- More frames and other items make no difference. -/
theorem weaken (wired : w.Wired stack seats) {more : List Frame} (within : stack ⊆ more)
    (b : Backlog) : ({ w with backlog := b } : World).Wired more seats := by
  have retains : w.Retains { w with backlog := b } :=
    ⟨List.Subset.refl _, fun x => by cases x <;> exact List.Subset.refl _,
      fun _ => List.Subset.refl _⟩
  have lives : ∀ {x}, w.isAlive (stack ++ w.waitingFrames) x = true →
      ({ w with backlog := b } : World).isAlive (more ++ w.waitingFrames) x = true :=
    fun lives => retains.isAlive (List.append_subset.mpr
      ⟨List.Subset.trans within (List.subset_append_left _ _), List.subset_append_right _ _⟩) lives
  refine ⟨fun p mem => ?_, wired.apart, wired.routed, wired.heeding, fun m mem => ?_,
    wired.addresses, fun p mem => lives (wired.managers p mem)⟩
  · have seat := wired.seated p mem
    exact ⟨seat.works, seat.leads, seat.alive, seat.managed⟩
  · obtain ⟨n, k, sinks, there, address, live⟩ := wired.members m mem
    exact ⟨n, k, sinks, there, address, lives live⟩

/-- Whoever is woken, the group is wired as before. -/
theorem lasts (wired : w.Wired stack seats) {v : World} (told : w.Undisturbed v) :
    v.Wired stack seats := by
  obtain ⟨_, _, same⟩ := told.world
  have nodes : v.nodes = w.nodes := by rw [same]
  have group : v.group = w.group := by rw [same]
  have lives : ∀ {x}, w.isAlive (stack ++ w.waitingFrames) x = true →
      v.isAlive (stack ++ v.waitingFrames) x = true := told.isAlive (List.Subset.refl _)
  refine ⟨fun p mem => told.seated (wired.seated p mem), wired.apart, ?_, ?_, fun m mem => ?_, ?_,
    fun p mem => lives (wired.managers p mem)⟩
  · rw [nodes]
    exact wired.routed
  · rw [nodes]
    exact wired.heeding
  · rw [group] at mem
    obtain ⟨n, k, sinks, there, address, live⟩ := wired.members m mem
    exact ⟨n, k, sinks, nodes ▸ there, address, lives live⟩
  · rw [group]
    exact wired.addresses

end Wired

/-! ### To be routed is to take a seat -/

/-- Someone has subscribed at a node, which has these subscriptions now. -/
def subscribed (w : World) (n : Nat) (d : Dispatcher EventHook) (named : Bindings Nat) : World :=
  { w with
    nodes := w.nodes.modify n fun k =>
      { k with coordinator := { k.coordinator with dispatcher := d } }
    names := { w.names with subscriptions := named } }

theorem node_subscribed {n j : Nat} {d : Dispatcher EventHook} {named : Bindings Nat} {l : Node}
    (found : (w.subscribed n d named).nodes[j]? = some l) :
    ∃ k, w.nodes[j]? = some k ∧ l.coordinator.node = k.coordinator.node ∧
      l.coordinator.dispatcher = if n = j then d else k.coordinator.dispatcher := by
  obtain ⟨k, was, rfl⟩ : ∃ k, w.nodes[j]? = some k ∧ _ = l := by
    rw [subscribed, List.getElem?_modify] at found
    exact Option.map_eq_some_iff.mp found
  exact ⟨k, was, by split <;> rfl, by split <;> rfl⟩

theorem exists_node_subscribed {j : Nat} {k : Node} (there : w.nodes[j]? = some k) (n : Nat)
    (d : Dispatcher EventHook) (named : Bindings Nat) :
    ∃ l, (w.subscribed n d named).nodes[j]? = some l ∧
      l.coordinator.node = k.coordinator.node ∧ l.facility = k.facility := by
  rw [subscribed, List.getElem?_modify, there]
  exact ⟨_, rfl, by split <;> rfl, by split <;> rfl⟩

theorem retains_subscribed (w : World) (n : Nat) (d : Dispatcher EventHook)
    (named : Bindings Nat) : w.Retains (w.subscribed n d named) := by
  refine ⟨?_, fun x => ?_, fun frames => List.Subset.refl _⟩
  · simp [things, subscribed]
  · cases x with
    | node k =>
        show List.filterMap _ ((w.nodes[k]?).elim [] _) ⊆
          List.filterMap _ (((w.nodes.modify n _)[k]?).elim [] _)
        rw [List.getElem?_modify]
        rcases w.nodes[k]? with _ | ⟨c, facility⟩
        · simp
        · by_cases here : n = k <;> simp [here]
    | _ => exact List.Subset.refl _

namespace Wired

variable {seats : List Seat}

/-- A worker that listens to the news of its node has a seat next to those that there are. -/
theorem subscribed (wired : w.Wired stack seats) (seat : w.Seated p)
    (apart : ∀ q ∈ seats, q.Apart p)
    (lives : w.isAlive (stack ++ w.waitingFrames) (.manager p.manager) = true) {k : Node}
    (there : w.nodes[p.node]? = some k) (named : Bindings Nat) :
    (w.subscribed p.node (k.coordinator.dispatcher.subscribe .backlogChanged p.news).2
      named).Wired stack (seats ++ [p]) := by
  have lives_on : ∀ {x}, w.isAlive (stack ++ w.waitingFrames) x = true →
      (w.subscribed p.node (k.coordinator.dispatcher.subscribe .backlogChanged p.news).2
        named).isAlive (stack ++ w.waitingFrames) x = true :=
    (w.retains_subscribed _ _ _).isAlive (List.Subset.refl _)
  have same_node : ∀ o, w.nodes[p.node]? = some o → o = k := fun o found =>
    Option.some.inj (found.symm.trans there)
  have last : ∀ {q}, q ∈ seats ++ [p] ↔ q ∈ seats ∨ q = p := by simp
  refine ⟨fun q mem => ?_, ?_, fun j l found => ?_, fun j l found s mem => ?_, fun m mem => ?_,
    wired.addresses, fun q mem => lives_on ?_⟩
  · have seat : w.Seated q := by
      rcases last.mp mem with mem | rfl
      · exact wired.seated q mem
      · exact seat
    exact ⟨seat.works, seat.leads, seat.alive, seat.managed⟩
  · refine List.pairwise_append.mpr ⟨wired.apart, List.pairwise_singleton _ _, ?_⟩
    intro q mem r last
    rw [List.mem_singleton.mp last]
    exact apart q mem
  · obtain ⟨o, was, -, dispatcher⟩ := node_subscribed found
    rw [dispatcher, List.filter_append, List.map_append, ← wired.routed j o was]
    by_cases here : p.node = j
    · subst here
      cases same_node o was
      simp [Dispatcher.subscribers_subscribe]
    · simp [here]
  · obtain ⟨o, was, -, dispatcher⟩ := node_subscribed found
    rw [dispatcher] at mem
    split at mem
    · next here =>
        subst here
        cases same_node o was
        rcases List.mem_append.mp mem with mem | mem
        · exact wired.heeding _ _ was s mem
        · rw [List.mem_singleton.mp mem]
          exact .inl rfl
    · exact wired.heeding j o was s mem
  · obtain ⟨j, o, sinks, was, address, live⟩ := wired.members m mem
    obtain ⟨l, found, same, -⟩ := exists_node_subscribed was p.node
      (k.coordinator.dispatcher.subscribe .backlogChanged p.news).2 named
    exact ⟨j, l, sinks, found, same.trans address, lives_on live⟩
  · rcases last.mp mem with mem | rfl
    · exact wired.managers q mem
    · exact lives

/-- **A worker that is routed has a seat from then on**, next to those that there are. -/
theorem takes_seat (wired : w.Wired stack seats) (seat : w.Seated p)
    (apart : ∀ q ∈ seats, q.Apart p)
    (lives : w.isAlive (stack ++ w.waitingFrames) (.manager p.manager) = true) {k : Node}
    (there : w.nodes[p.node]? = some k) {worker manager : String}
    (known : w.names.actors.find? worker = some p.worker)
    (manages : w.names.managers.find? manager = some p.manager) :
    ∃ v, Reaches ((takeDispatchStep (.route worker manager p.name)).run ⟨w, stack⟩)
        (.give (.answer (.flag true)), ⟨v, stack⟩) ∧
      (∃ d named, v = w.subscribed p.node d named) ∧ v.Wired stack (seats ++ [p]) := by
  obtain ⟨c, works, at_⟩ := seat.works
  obtain ⟨m, leads, -⟩ := seat.managed
  let named := w.names.subscriptions.bind ("route:" ++ worker) k.coordinator.dispatcher.next
  refine ⟨_, ?_, ⟨_, _, rfl⟩, wired.subscribed seat apart lives there named⟩
  rw [takeDispatchStep, withWorker, withActor, Act.run_look, known]
  dsimp only
  rw [Act.run_holding, Act.run_look, works]
  dsimp only
  rw [withManager, Act.run_look, manages, Option.bind_some, leads]
  dsimp only [Option.map_some]
  rw [Act.run_holding, Act.run_look, at_, Option.bind_some, there]
  exact .head rfl (.single rfl)

end Wired

/-! ### Those who are informed -/

/-- A writer for the worker in a seat, which announces work in the slice of that worker to the
other members of the group. -/
structure WritesFor (w : World) (n : Nat) (p : Seat) (key : PartitionKey) : Prop where
  writer : ∃ c, w.writers[n]? = some c ∧ c.manager = p.manager ∧ c.actorName = p.name ∧
    c.actor = p.worker ∧ c.route = some (p.node, key.name)
  works : w.key? p.worker = some key
  grouped : ∃ k, w.nodes[p.node]? = some k ∧ k.facility = .group

/-- What one node sends to the others arrives at another: it is that of a member that can be
reached and has another address. -/
def Hears (w : World) (source n : Nat) : Prop :=
  ∃ m ∈ w.group.members, m.sinks = [.listeners n] ∧ m.reachable = true ∧
    ∀ k, w.nodes[source]? = some k → m.address ≠ k.coordinator.node

/-- Work that is added for the slice `key` by a writer for `here` is news to a worker: the one in
that seat, and those of the slice on the nodes that hear of it. -/
def Informs (w : World) (here : Seat) (key : PartitionKey) (p : Seat) : Prop :=
  p = here ∨ w.key? p.worker = some key ∧ w.Hears here.node p.node

/-- Those who are informed of work that is due at `t` heed it, and nothing else happens. -/
structure Routed (w v : World) (t : Int) (seats : List Seat) (informed : Seat → Prop) : Prop where
  heeds : ∀ p ∈ seats, informed p → w.Heeds v t p
  keeps : ∀ p ∈ seats, ¬ informed p → w.Keeps v p
  strangers : ∀ q : Seat, (∀ p ∈ seats, p.Apart q) → w.Keeps v q
  rest : w.Undisturbed v

theorem WritesFor.weaken {here : Seat} {key : PartitionKey} {n : Nat}
    (writes : w.WritesFor n here key) (b : Backlog) :
    ({ w with backlog := b } : World).WritesFor n here key :=
  ⟨writes.writer, writes.works, writes.grouped⟩

theorem WritesFor.subscribed {here : Seat} {key : PartitionKey} {n : Nat}
    (writes : w.WritesFor n here key) (m : Nat) (d : Dispatcher EventHook)
    (named : Bindings Nat) : (w.subscribed m d named).WritesFor n here key := by
  obtain ⟨k, there, grouped⟩ := writes.grouped
  obtain ⟨l, found, -, same⟩ := exists_node_subscribed there m d named
  exact ⟨writes.writer, writes.works, l, found, same.trans grouped⟩

theorem WritesFor.lasts {here : Seat} {key : PartitionKey} {n : Nat}
    (writes : w.WritesFor n here key) {v : World} (told : w.Undisturbed v) :
    v.WritesFor n here key := by
  obtain ⟨_, _, same⟩ := told.world
  refine ⟨?_, (told.key here.worker).trans writes.works, ?_⟩
  · rw [same]
    exact writes.writer
  · rw [same]
    exact writes.grouped

/-- A nudge wakes the writer's own worker, and has the other nodes hear of it in any case. -/
theorem WritesFor.run_nudge {here : Seat} {key : PartitionKey} {n : Nat} {k : Node}
    (writes : w.WritesFor n here key) (seat : w.Seated here) (there : w.nodes[here.node]? = some k)
    (due : Int) :
    (nudge n due).run ⟨w, stack⟩ =
      (deliver ((Event.backlogChanged key.name due).withOrigin k.coordinator.node)
        (w.group.send [k.coordinator.node]).sinks).run
        ⟨woken due w here, .holding (.writer n) :: stack⟩ := by
  obtain ⟨c, writer, manager, name, actor, route⟩ := writes.writer
  obtain ⟨d, works, -⟩ := seat.works
  have woke := ActorSystem.wake_of_registered seat.leads w.elapsed
    (delayUntil due w.now).toMillis_nonneg
  rw [← manager, ← name] at woke
  have grouped : k.facility = .group := by
    obtain ⟨k', found, grouped⟩ := writes.grouped
    cases there.symm.trans found
    exact grouped
  rw [Simulation.nudge, Act.run_look, writer]
  show (Act.holding (.writer n) _).run _ = _
  rw [Act.run_holding]
  extract_lets target nudged
  have own : target = d.target := by
    simp only [target, actor, works, Option.map_some, Option.getD_some]
  have lower : nudged.target = (d.target.request due).2 := own ▸ c.target_nudge target _ _ _ due
  have woken : nudged.system = _ := c.system_nudge target w.system w.elapsed w.now due
  rw [own, woke] at woken
  dsimp only at woken
  have told : { w.setTarget c.actor nudged.target with system := nudged.system } =
      World.woken due w here := by
    rw [woken_of_worker works, actor, lower, woken, manager]
  rw [Act.run_modifyWorld, Act.run_setSystem, route]
  split
  · next found =>
      cases found
      rw [← told]
      exact run_fireOthers (w := { w.setTarget c.actor nudged.target with system := nudged.system })
        there grouped (.backlogChanged key.name due)
  · contradiction
  · contradiction

/-- Those who are told of a nudge, in order: the worker in the seat `here`, and the workers of
the nodes `homes`. -/
def told (seats : List Seat) (here : Seat) (homes : List Nat) : List Seat :=
  here :: homes.flatMap fun m => seats.filter fun p => p.node == m

theorem mem_filter_node {seats : List Seat} {m : Nat} :
    p ∈ seats.filter (fun p => p.node == m) ↔ p ∈ seats ∧ p.node = m := by
  rw [List.mem_filter, beq_iff_eq]

theorem mem_told {seats : List Seat} {here : Seat} {homes : List Nat} :
    p ∈ told seats here homes ↔ p = here ∨ p ∈ seats ∧ p.node ∈ homes := by
  simp only [told, List.mem_cons, List.mem_flatMap, mem_filter_node]
  constructor
  · rintro (same | ⟨m, home, among, rfl⟩)
    · exact .inl same
    · exact .inr ⟨among, home⟩
  · rintro (same | ⟨among, home⟩)
    · exact .inl same
    · exact .inr ⟨_, home, among, rfl⟩

/-- Members that are different nodes have the sinks of different nodes. -/
theorem exists_homes (members : List (Member ChangeHook EventSink))
    (nodes : ∀ m ∈ members, ∃ n, m.sinks = [.listeners n])
    (apart : members.Pairwise fun a b => a.sinks ≠ b.sinks) :
    ∃ homes : List Nat, members.flatMap Member.sinks = homes.map .listeners ∧ homes.Nodup ∧
      ∀ n, n ∈ homes ↔ ∃ m ∈ members, m.sinks = [.listeners n] := by
  induction members with
  | nil => exact ⟨[], rfl, .nil, by simp⟩
  | cons m rest ih =>
      obtain ⟨n, sinks⟩ := nodes m List.mem_cons_self
      obtain ⟨others, apart⟩ := List.pairwise_cons.mp apart
      obtain ⟨homes, same, distinct, mem_iff⟩ :=
        ih (fun a mem => nodes a (List.mem_cons_of_mem _ mem)) apart
      refine ⟨n :: homes, ?_, List.nodup_cons.mpr ⟨fun again => ?_, distinct⟩, fun k => ?_⟩
      · rw [List.flatMap_cons, sinks, same]
        rfl
      · obtain ⟨a, mem, also⟩ := (mem_iff n).mp again
        exact others a mem (sinks.trans also.symm)
      · rw [List.mem_cons, mem_iff]
        constructor
        · rintro (rfl | ⟨a, mem, also⟩)
          · exact ⟨m, List.mem_cons_self, sinks⟩
          · exact ⟨a, List.mem_cons_of_mem _ mem, also⟩
        · rintro ⟨a, mem, also⟩
          rcases List.mem_cons.mp mem with rfl | mem
          · left
            rw [sinks] at also
            cases also
            rfl
          · exact .inr ⟨a, mem, also⟩

namespace Wired

variable {seats : List Seat} {here : Seat} {key : PartitionKey} {n : Nat}

/-- Where an event of a node goes: to those that hear of it, to each once. -/
theorem exists_hearers (wired : w.Wired stack seats) {source : Nat} {k : Node}
    (there : w.nodes[source]? = some k) :
    ∃ homes : List Nat, (w.group.send [k.coordinator.node]).sinks = homes.map .listeners ∧
      homes.Nodup ∧ ∀ n, n ∈ homes ↔ w.Hears source n := by
  have nodes : ∀ m ∈ w.group.members, ∃ n, m.sinks = [.listeners n] := by
    intro m mem
    obtain ⟨n, _, sinks, -⟩ := wired.members m mem
    exact ⟨n, sinks⟩
  have apart : w.group.members.Pairwise fun a b => a.sinks ≠ b.sinks := by
    refine (List.pairwise_map.mp wired.addresses).imp_of_mem fun {a b} one other differ same => ?_
    obtain ⟨n, k, sinks, found, address, -⟩ := wired.members a one
    obtain ⟨m, l, sinks', found', address', -⟩ := wired.members b other
    rw [sinks, sinks'] at same
    cases same
    cases found.symm.trans found'
    exact differ (address.symm.trans address')
  obtain ⟨homes, same, distinct, mem_iff⟩ := exists_homes
    ((w.group.members.filter fun m => !List.contains [k.coordinator.node] m.address).filter
      Member.reachable)
    (fun m mem => nodes m (List.mem_of_mem_filter (List.mem_of_mem_filter mem)))
    ((apart.filter _).filter _)
  refine ⟨homes, same, distinct, fun n => (mem_iff n).trans ?_⟩
  constructor
  · rintro ⟨m, mem, sinks⟩
    obtain ⟨mem, reachable⟩ := List.mem_filter.mp mem
    obtain ⟨mem, other⟩ := List.mem_filter.mp mem
    refine ⟨m, mem, sinks, reachable, fun l found => ?_⟩
    cases there.symm.trans found
    simpa using other
  · rintro ⟨m, mem, sinks, reachable, other⟩
    refine ⟨m, List.mem_filter.mpr ⟨List.mem_filter.mpr ⟨mem, ?_⟩, reachable⟩, sinks⟩
    simpa using other k there

/-- A node does not hear of its own events. -/
theorem not_hears_self (wired : w.Wired stack seats) (source : Nat) : ¬ w.Hears source source := by
  rintro ⟨m, mem, sinks, -, other⟩
  obtain ⟨n, k, sinks', found, address, -⟩ := wired.members m mem
  cases sinks.symm.trans sinks'
  exact other k found address.symm

/-- Whoever tells some workers, each in its own seat, of work in a slice routes it to them. -/
theorem routed_foldl (wired : w.Wired stack seats) {told : List Seat} {t : Int}
    {informed : Seat → Prop} (among : told ⊆ seats) (apart : told.Pairwise Seat.Apart)
    (informed_iff : ∀ p ∈ seats, informed p ↔ p ∈ told ∧ w.key? p.worker = some key) :
    w.Routed (told.foldl (notified key.name t) w) t seats informed := by
  have named : ∀ p : Seat, (w.key? p.worker).map PartitionKey.name = some key.name ↔
      w.key? p.worker = some key := by
    intro p
    cases w.key? p.worker <;> simp [PartitionKey.name_inj]
  refine ⟨fun p mem informs => ?_, fun p mem silent => ?_, fun q strange => ?_, ?_⟩
  · obtain ⟨hears, works⟩ := (informed_iff p mem).mp informs
    exact heeds_foldl (wired.seated p mem) hears apart ((named p).mpr works)
  · refine keeps_foldl fun q hears => ?_
    by_cases same : q = p
    · subst same
      exact .inr fun works => silent ((informed_iff q mem).mpr ⟨hears, (named q).mp works⟩)
    · exact .inl (wired.apart_of_ne (among hears) mem same)
  · exact keeps_foldl fun p hears => .inl (strange p (among hears))
  · exact undisturbed_foldl key.name t w told

/-- Those who are told are in different seats, as long as the node of the first is not among
the others. -/
theorem pairwise_told (wired : w.Wired stack seats) (mem : here ∈ seats) {homes : List Nat}
    (distinct : homes.Nodup) (away : here.node ∉ homes) :
    (told seats here homes).Pairwise Seat.Apart := by
  refine List.pairwise_cons.mpr ⟨fun p others => ?_, List.pairwise_flatMap.mpr ⟨?_, ?_⟩⟩
  · obtain ⟨m, home, at_home⟩ := List.mem_flatMap.mp others
    obtain ⟨among, rfl⟩ := mem_filter_node.mp at_home
    refine wired.apart_of_ne mem among ?_
    rintro rfl
    exact away home
  · exact fun m _ => wired.apart.filter _
  · refine distinct.imp fun {a b} other p at_a q at_b => ?_
    obtain ⟨among, rfl⟩ := mem_filter_node.mp at_a
    obtain ⟨among', rfl⟩ := mem_filter_node.mp at_b
    exact wired.apart_of_ne among among' fun same => other (same ▸ rfl)

/-- The writer's own worker is woken first, and then the news are delivered. -/
theorem ends_nudge (wired : w.Wired stack seats) (mem : here ∈ seats)
    (writes : w.WritesFor n here key) {k : Node} (there : w.nodes[here.node]? = some k)
    {homes : List Nat} (sinks : (w.group.send [k.coordinator.node]).sinks = homes.map .listeners)
    (hears : ∀ m ∈ homes, w.Hears here.node m) (due : Int) :
    Ends (tellOne (.nudge n due)) stack w
      ((told seats here homes).foldl (notified key.name due) w) := by
  have own : notified key.name due w here = woken due w here := by
    rw [notified, writes.works, Option.map_some, if_pos rfl]
  have woke := undisturbed_woken due w here
  have deeper : stack ⊆ .holding (.writer n) :: stack := List.subset_cons_self _ _
  have home_of : ∀ m ∈ homes, ∃ l, w.nodes[m]? = some l ∧
      w.isAlive (stack ++ w.waitingFrames) (.node m) = true := by
    intro m home
    obtain ⟨a, member, sink, -⟩ := hears m home
    obtain ⟨m', l, sink', found, -, lives⟩ := wired.members a member
    cases sink.symm.trans sink'
    exact ⟨l, found, lives⟩
  refine ⟨.give .nothing, .inl ⟨_, rfl⟩, ?_⟩
  rw [told, List.foldl_cons, own]
  show Reaches ((Simulation.nudge n due).run ⟨w, stack⟩) _
  rw [writes.run_nudge (wired.seated here mem) there, sinks]
  refine Relation.ReflTransGen.tail (reaches_deliver rfl (fun m home => ?_) (fun m home => ?_)
    (fun m home p at_home => ?_) fun m home p at_home => ?_) rfl
  · obtain ⟨l, found, -⟩ := home_of m home
    obtain ⟨_, _, same⟩ := woke.world
    rw [same]
    exact ⟨l, found, wired.audience found ..⟩
  · obtain ⟨l, -, lives⟩ := home_of m home
    exact woke.isAlive deeper lives
  · exact woke.seated (wired.seated p (mem_filter_node.mp at_home).1)
  · exact woke.isAlive deeper (wired.managers p (mem_filter_node.mp at_home).1)

/-- **A nudge goes to exactly the right workers.** -/
theorem nudged (wired : w.Wired stack seats) (mem : here ∈ seats) (writes : w.WritesFor n here key)
    (due : Int) : ∃ v, Ends (tellOne (.nudge n due)) stack w v ∧
      w.Routed v due seats (w.Informs here key) := by
  obtain ⟨k, there, -⟩ := writes.grouped
  obtain ⟨homes, sinks, distinct, mem_iff⟩ := wired.exists_hearers there
  have away : here.node ∉ homes := fun home =>
    wired.not_hears_self _ ((mem_iff _).mp home)
  refine ⟨_, wired.ends_nudge mem writes there sinks (fun m => (mem_iff m).mp) due,
    wired.routed_foldl ?_ (wired.pairwise_told mem distinct away) ?_⟩
  · intro p heard
    rcases mem_told.mp heard with rfl | ⟨among, -⟩
    · exact mem
    · exact among
  · intro p among
    rw [Informs, mem_told, mem_iff]
    constructor
    · rintro (rfl | ⟨works, hears⟩)
      · exact ⟨.inl rfl, writes.works⟩
      · exact ⟨.inr ⟨among, hears⟩, works⟩
    · rintro ⟨rfl | ⟨-, hears⟩, works⟩
      · exact .inl rfl
      · exact .inr ⟨works, hears⟩

end Wired

end World

end Simulation

/-! ### Items that are handed in -/

namespace Backlog

/-- The first of some items is due at `due`. -/
def FirstDue (items : List WorkItem) (due : Int) : Prop :=
  (∃ i ∈ items, i.scheduleTime = some due) ∧ ∀ i ∈ items, ∃ t, i.scheduleTime = some t ∧ due ≤ t

/-- If there are items, one listener is told of the first of them. -/
theorem Announces.first {β : Type} {announce : Int → β} {items : List WorkItem} {told : List β}
    (announces : Announces announce items told) (some_ : items ≠ []) :
    ∃ due, told = [announce due] ∧ FirstDue items due := by
  rcases announces with ⟨none, -⟩ | ⟨due, told, first⟩
  · exact absurd none some_
  · exact ⟨due, told, first⟩

end Backlog

namespace Simulation.World.Wired

variable {w : World} {stack : List Frame} {seats : List Seat} {here : Seat} {key : PartitionKey}
  {n : Nat}

/-- What the writer's nudge comes to when it is told at the end of a transaction. -/
theorem reaches_tell (wired : w.Wired stack seats) (mem : here ∈ seats)
    (writes : w.WritesFor n here key) (due : Int) (reply : Answer) :
    ∃ v, Reaches ((tell reply [.nudge n due]).run ⟨w, stack⟩) (.give (.answer reply), ⟨v, stack⟩) ∧
      w.Routed v due seats (w.Informs here key) := by
  have deeper : stack ⊆ .told [] reply :: stack := List.subset_cons_self _ _
  obtain ⟨v, ends, routed⟩ := (wired.weaken deeper w.backlog).nudged mem writes due
  have told : Told reply stack [.nudge n due] w v := .cons ends (.nil v)
  exact ⟨v, told.reaches, routed⟩

/-- What comes of a submission that is not decided by a transaction around it: it is answered
with the items, and by then the workers of the slice have been woken for the first of them. -/
theorem submitted (wired : w.Wired stack seats) (mem : here ∈ seats)
    (writes : w.WritesFor n here key) {writer : String}
    (known : w.names.writers.find? writer = some n) {items : List WorkItem} (some_ : items ≠ [])
    (reply : List WorkItem → Answer) {stored : List WorkItem}
    (alone : ∀ s ∈ scopeOf stack, s.doomed = true) :
    let r := submit w.backlog w.now (scopeOf stack) (PostCommit.nudge n) items
    r.result = .ok stored →
    ∃ due, Backlog.FirstDue stored due ∧
      ∃ v, Reaches ((takeSubmission writer items reply).run ⟨w, stack⟩)
          (.give (.answer (reply stored)), ⟨v, stack⟩) ∧
        ({ w with backlog := r.backlog } : World).Routed v due seats (w.Informs here key) := by
  intro r answered
  obtain ⟨scope, length, announces⟩ := Submission.announces_of_alone alone answered
  have some_stored : stored ≠ [] := by
    rintro rfl
    exact some_ (List.length_eq_zero_iff.mp length.symm)
  obtain ⟨due, told, first⟩ := announces.first some_stored
  have deeper : stack ⊆ .holding (.writer n) :: stack := List.subset_cons_self _ _
  obtain ⟨v, reaches, routed⟩ :=
    (wired.weaken deeper r.backlog).reaches_tell mem (writes.weaken r.backlog) due (reply stored)
  refine ⟨due, first, v, ?_, routed⟩
  have goes_on : concluded reply r = tell (reply stored) [.nudge n due] := by
    rw [concluded, answered, show r.told = _ from told]
  have kept : restored r.scope (.holding (.writer n) :: stack) = .holding (.writer n) :: stack := by
    rw [show r.scope = _ from scope]
    exact restored_scopeOf (.holding (.writer n) :: stack)
  rw [takeSubmission_run known]
  show Reaches ((concluded reply r).run
    ⟨{ w with backlog := r.backlog }, restored r.scope (.holding (.writer n) :: stack)⟩) _
  rw [goes_on, kept]
  exact reaches.tail rfl

/-- What comes of a submission in a transaction that can still commit: it is answered at once, and
that transaction is to tell the workers of the slice of the first of its items. -/
theorem joined_inv {s : Scope Write PostCommit} (around : scopeOf stack = some s)
    (healthy : s.doomed = false) {writer : String} (known : w.names.writers.find? writer = some n)
    {items : List WorkItem} (some_ : items ≠ []) (reply : List WorkItem → Answer)
    {stored : List WorkItem} :
    let r := submit w.backlog w.now (scopeOf stack) (PostCommit.nudge n) items
    r.result = .ok stored →
    ∃ due t, Backlog.FirstDue stored due ∧ t.listeners = s.listeners ++ [.nudge n due] ∧
      Reaches ((takeSubmission writer items reply).run ⟨w, stack⟩)
        (.give (.answer (reply stored)),
          ⟨{ w with backlog := r.backlog }, withScope t stack⟩) := by
  intro r answered
  obtain ⟨added, t, joined⟩ := Submission.joined (⟨w.backlog, [], []⟩ : Ledger PostCommit) healthy
    w.now (PostCommit.nudge n) items
  rw [← around] at joined
  obtain ⟨rfl, length, told, listeners, announces⟩ := joined.all stored answered
  have some_stored : added ≠ [] := by
    rintro rfl
    exact some_ (List.length_eq_zero_iff.mp length.symm)
  obtain ⟨due, rfl, first⟩ := announces.first some_stored
  refine ⟨due, t, first, listeners, ?_⟩
  have goes_on : concluded reply r = Act.answer (reply added) := by
    rw [concluded, answered, show r.told = _ from joined.quiet.1]
    rfl
  have inside : restored r.scope (.holding (.writer n) :: stack) =
      .holding (.writer n) :: withScope t stack := by
    rw [joined.scope]
    rfl
  rw [takeSubmission_run known]
  show Reaches ((concluded reply r).run
    ⟨{ w with backlog := r.backlog }, restored r.scope (.holding (.writer n) :: stack)⟩) _
  rw [goes_on, inside]
  exact .single rfl

/-- **Wake-ups are routed to exactly the right workers.** In a group of nodes with any workers, a
writer for the slice `key` announces work for the worker in the seat `here`:

* whoever is routed takes a seat next to the others;
* a nudge of the writer for work that is due at `due` comes to its end, and by then exactly those
  who are informed have heeded it: the worker in that seat and, on the members that can be
  reached, the workers of the same slice. All others keep their wake targets and their timers,
  and the group is as before, ready for the next nudge;
* items that are handed in with no transaction around that can still commit are answered, and
  those who are informed are woken for the first of them, whoever cannot be reached;
* items that are handed in inside a transaction that can still commit are answered at once, and
  one nudge for the first of them is told at the end of the transaction;
* a transaction that commits is answered with success, and its nudge is told then. -/
theorem wakes_its_workers (wired : w.Wired stack seats) (mem : here ∈ seats)
    (writes : w.WritesFor n here key) :
    (∀ (p : Seat) (worker manager : String), w.Seated p → (∀ q ∈ seats, q.Apart p) →
        w.isAlive (stack ++ w.waitingFrames) (.manager p.manager) = true →
        (∃ k, w.nodes[p.node]? = some k) →
        w.names.actors.find? worker = some p.worker →
        w.names.managers.find? manager = some p.manager →
      ∃ v, Reaches ((takeDispatchStep (.route worker manager p.name)).run ⟨w, stack⟩)
          (.give (.answer (.flag true)), ⟨v, stack⟩) ∧
        (∃ d named, v = w.subscribed p.node d named) ∧
        v.Wired stack (seats ++ [p]) ∧ v.WritesFor n here key) ∧
    (∀ due, ∃ v, Ends (tellOne (.nudge n due)) stack w v ∧
      w.Routed v due seats (w.Informs here key) ∧
      v.Wired stack seats ∧ v.WritesFor n here key) ∧
    (∀ (writer : String) (items : List WorkItem) (reply : List WorkItem → Answer)
        (stored : List WorkItem), w.names.writers.find? writer = some n → items ≠ [] →
      let r := submit w.backlog w.now (scopeOf stack) (PostCommit.nudge n) items
      r.result = .ok stored →
      ((∀ s ∈ scopeOf stack, s.doomed = true) → ∃ due, Backlog.FirstDue stored due ∧
        ∃ v, Reaches ((takeSubmission writer items reply).run ⟨w, stack⟩)
            (.give (.answer (reply stored)), ⟨v, stack⟩) ∧
          ({ w with backlog := r.backlog } : World).Routed v due seats (w.Informs here key) ∧
          v.Wired stack seats ∧ v.WritesFor n here key) ∧
      ∀ s ∈ scopeOf stack, s.doomed = false → ∃ due t, Backlog.FirstDue stored due ∧
        t.listeners = s.listeners ++ [.nudge n due] ∧
        Reaches ((takeSubmission writer items reply).run ⟨w, stack⟩)
          (.give (.answer (reply stored)),
            ⟨{ w with backlog := r.backlog }, withScope t stack⟩)) ∧
    ∀ (b : Body) (s : Scope Write PostCommit) (outcome : Except Error Unit) (due : Int),
      b.scope = some s → s.listeners = [.nudge n due] →
      (∃ done, s.verdict outcome = .ok done) →
      ∃ v, Reaches ((endBody b outcome).run ⟨w, stack⟩)
          (.give (.answer (.transaction (.ok ()) b.done)), ⟨v, stack⟩) ∧
        ({ w with backlog := w.backlog.commit s.staged } : World).Routed v due seats
          (w.Informs here key) ∧
        v.Wired stack seats ∧ v.WritesFor n here key := by
  have same : stack ⊆ stack := List.Subset.refl _
  refine ⟨?_, ?_, ?_, ?_⟩
  · intro p worker manager seat apart lives ⟨k, there⟩ known manages
    obtain ⟨v, reaches, ⟨d, named, rfl⟩, seated⟩ :=
      wired.takes_seat seat apart lives there known manages
    exact ⟨_, reaches, ⟨d, named, rfl⟩, seated, writes.subscribed p.node d named⟩
  · intro due
    obtain ⟨v, ends, routed⟩ := wired.nudged mem writes due
    exact ⟨v, ends, routed, wired.lasts routed.rest, writes.lasts routed.rest⟩
  · intro writer items reply stored known some_ r answered
    refine ⟨fun alone => ?_, fun s around healthy => ?_⟩
    · obtain ⟨due, first, v, reaches, routed⟩ :=
        wired.submitted mem writes known some_ reply alone answered
      exact ⟨due, first, v, reaches, routed, (wired.weaken same _).lasts routed.rest,
        (writes.weaken _).lasts routed.rest⟩
    · exact joined_inv around healthy known some_ reply answered
  · intro b s outcome due own listeners ⟨done, commits⟩
    have tells := endBody_run_of_own own outcome w stack
    rw [commits, listeners] at tells
    rw [tells]
    obtain ⟨v, reaches, routed⟩ :=
      (wired.weaken same _).reaches_tell mem (writes.weaken _) due _
    exact ⟨v, reaches, routed, (wired.weaken same _).lasts routed.rest,
      (writes.weaken _).lasts routed.rest⟩

end Simulation.World.Wired

namespace Simulation.World

/-! ### Four nodes -/

/-- The seat of the worker at a node of `quartet`. -/
def seatOf (n : Nat) : Seat := ⟨n, n, "worker", n, n⟩

def addressOf (n : Nat) : Address := ⟨.v4 #v[10, 0, 0, n.toUInt8], 7000⟩

/-- A node of `quartet`, at which a manager listens to requests and a worker to the news. -/
def nodeOf (n : Nat) : Node where
  coordinator := ⟨addressOf n, ⟨n == 0, "", 1, n, 4⟩, 1, [],
    ⟨[⟨0, .actorReschedule, .requests n⟩, ⟨1, .backlogChanged, (seatOf n).news⟩], 2⟩⟩
  facility := .group

def managerOf (n : Nat) : Manager := ⟨[("worker", n)], n, some n, none, some 0⟩

def workerOf (n : Nat) : Worker := ⟨.all, some n, .standard, .unplanned⟩

/-- Four nodes, each with a worker for all items. The first has a writer for its worker. The
scheduler of the third has been stopped, and the last cannot be reached. -/
def quartet : World :=
  { (⟨.manual 0, 5, []⟩ : Script).world with
    group := ⟨(List.range 4).map fun n =>
      ⟨addressOf n, n != 3, [.refresh n], [.listeners n]⟩⟩
    nodes := (List.range 4).map nodeOf
    system :=
      { entries := (List.range 4).map fun n => Entry.ofActor "worker" n
        managers := (List.range 4).map managerOf
        schedulers := (List.range 4).map fun n => ⟨[], n == 2⟩
        alerts := [] }
    actors := (List.range 4).map fun n =>
      ⟨"worker", .worker (workerOf n) [] .breaksOff []⟩
    writers := [⟨0, "worker", 0, .ofSeconds 30, some (0, PartitionKey.all.name)⟩]
    names := ⟨[("a", 0), ("b", 1), ("c", 2), ("d", 3)], [], [],
      [("a", 0), ("b", 1), ("c", 2), ("d", 3)], [], [("writer", 0)], [], [], [], none⟩ }

def seatsOfQuartet : List Seat := [seatOf 0, seatOf 1, seatOf 2, seatOf 3]

theorem mem_quartet {p : Seat} :
    p ∈ seatsOfQuartet ↔ p = seatOf 0 ∨ p = seatOf 1 ∨ p = seatOf 2 ∨ p = seatOf 3 := by
  simp [seatsOfQuartet]

theorem node_quartet {n : Nat} {k : Node} (found : quartet.nodes[n]? = some k) :
    (n = 0 ∨ n = 1 ∨ n = 2 ∨ n = 3) ∧ k = nodeOf n := by
  have bound : n < 4 := (List.getElem?_eq_some_iff.mp found).1
  obtain ⟨m, below, same⟩ : ∃ m, (List.range 4)[n]? = some m ∧ nodeOf m = k := by
    simpa only [quartet, List.getElem?_map, Option.map_eq_some_iff] using found
  rw [List.getElem?_range bound] at below
  cases below
  exact ⟨by omega, same.symm⟩

theorem wired_quartet : quartet.Wired [] seatsOfQuartet where
  seated := by
    intro p mem
    rcases mem_quartet.mp mem with rfl | rfl | rfl | rfl <;>
      exact ⟨⟨_, rfl, rfl⟩, rfl, ⟨_, rfl, rfl, rfl⟩, ⟨_, rfl, rfl⟩⟩
  apart := by simp [seatsOfQuartet, Seat.Apart, seatOf]
  routed := by
    intro n k found
    obtain ⟨rfl | rfl | rfl | rfl, rfl⟩ := node_quartet found <;> rfl
  heeding := by
    intro n k found s mem
    obtain ⟨-, rfl⟩ := node_quartet found
    rcases List.mem_cons.mp mem with rfl | mem
    · exact .inr ⟨rfl, n, rfl⟩
    · rw [List.mem_singleton.mp mem]
      exact .inl rfl
  members := by
    intro m mem
    obtain ⟨n, below, rfl⟩ := List.mem_map.mp mem
    have few : n = 0 ∨ n = 1 ∨ n = 2 ∨ n = 3 := by
      have := List.mem_range.mp below
      omega
    rcases few with rfl | rfl | rfl | rfl <;> exact ⟨_, _, rfl, rfl, rfl, rfl⟩
  addresses := by decide
  managers := by
    intro p mem
    rcases mem_quartet.mp mem with rfl | rfl | rfl | rfl <;> rfl

theorem writesFor_quartet : quartet.WritesFor 0 (seatOf 0) .all where
  writer := ⟨_, rfl, rfl, rfl, rfl, rfl⟩
  works := rfl
  grouped := ⟨_, rfl, rfl⟩

theorem hears_quartet {n : Nat} : quartet.Hears 0 n ↔ n = 1 ∨ n = 2 := by
  constructor
  · rintro ⟨m, mem, sinks, reachable, other⟩
    obtain ⟨k, below, rfl⟩ := List.mem_map.mp mem
    cases sinks
    have := List.mem_range.mp below
    have : n ≠ 3 := by simpa using reachable
    have : n ≠ 0 := by
      rintro rfl
      exact other _ rfl rfl
    omega
  · rintro (rfl | rfl)
    · refine ⟨_, List.mem_map_of_mem (List.mem_range.mpr (by decide : 1 < 4)), rfl, rfl, ?_⟩
      rintro k ⟨⟩
      decide
    · refine ⟨_, List.mem_map_of_mem (List.mem_range.mpr (by decide : 2 < 4)), rfl, rfl, ?_⟩
      rintro k ⟨⟩
      decide

/-- A message that is to go out at `due`. -/
def messageFor (due : Int) : WorkItem :=
  { WorkItem.ofKind (.notification "email" .null) with scheduleTime := some due }

theorem submit_quartet (due : Int) :
    (submit quartet.backlog quartet.now (scopeOf []) (PostCommit.nudge 0)
      [messageFor due]).result = .ok [quartet.backlog.admitted 0 due (messageFor due)] := rfl

theorem firstDue_quartet {t due : Int}
    (first : Backlog.FirstDue [quartet.backlog.admitted 0 due (messageFor due)] t) : t = due := by
  obtain ⟨⟨i, mem, time⟩, -⟩ := first
  cases List.mem_singleton.mp mem
  cases time
  rfl

theorem informs_quartet {n : Nat} :
    quartet.Informs (seatOf 0) .all (seatOf n) ↔ n = 0 ∨ n = 1 ∨ n = 2 := by
  have same : seatOf n = seatOf 0 ↔ n = 0 :=
    ⟨fun same => congrArg Seat.node same, fun same => by rw [same]⟩
  rw [Informs, same]
  constructor
  · rintro (here | ⟨-, hears⟩)
    · exact .inl here
    · exact .inr (hears_quartet.mp hears)
  · rintro (here | there)
    · exact .inl here
    · refine .inr ⟨?_, hears_quartet.mpr there⟩
      rcases there with rfl | rfl <;> rfl

/-- What comes of it when a message is handed in: the first two workers have timers for it, which
may not be too long, and the third has none. -/
theorem timers_quartet {v : World} {b : Backlog} {due : Int}
    (routed : ({ quartet with backlog := b } : World).Routed v due seatsOfQuartet
      (quartet.Informs (seatOf 0) .all)) (early : due < Instant.maximum) :
    (∀ n, n = 0 ∨ n = 1 → quartet.system.OneMore v.system n n n
        (0 + min (max due 0 - 0).toNat Duration.longestTimer)) ∧
      ∀ j, v.system.firingsOn j 2 2 = [] := by
  have heeds : ∀ n, n = 0 ∨ n = 1 ∨ n = 2 →
      ({ quartet with backlog := b } : World).Heeds v due (seatOf n) := by
    intro n one
    refine routed.heeds _ ?_ (informs_quartet.mpr one)
    rcases one with rfl | rfl | rfl <;> decide
  have live : ∀ n, n = 0 ∨ n = 1 → quartet.system.Live n := by
    rintro n (rfl | rfl) <;> exact ⟨by decide, rfl⟩
  constructor
  · rintro n one
    refine (heeds n (by omega)).woken (workerOf n) (managerOf n) ?_ ?_ (.inl early) (live n one)
    · rcases one with rfl | rfl <;> rfl
    · rcases one with rfl | rfl <;> rfl
  · intro j
    refine ((heeds 2 (by omega)).left (workerOf 2) (managerOf 2) rfl rfl ?_ j).trans ?_
    · rintro ⟨-, -, open_⟩
      cases open_
    · rcases j with _ | _ | _ | _ | j <;> rfl

/-- A message is handed in that is to go out after a second. The first two workers get a timer
for it. The third is to run then as well, but its scheduler accepts no timers. The last cannot
be reached. -/
theorem quartet_wakes_its_workers :
    ∃ stored v, Reaches ((takeSubmission "writer" [messageFor 1000] .timetable).run ⟨quartet, []⟩)
        (.give (.answer (.timetable stored)), ⟨v, []⟩) ∧
      quartet.system.OneMore v.system 0 0 0 1000 ∧ quartet.system.OneMore v.system 1 1 1 1000 ∧
      (v.worker? 2).map Worker.target = some ⟨1000⟩ ∧ v.system.firingsOn 2 2 2 = [] ∧
      quartet.Keeps v (seatOf 3) := by
  obtain ⟨-, -, submissions, -⟩ := wired_quartet.wakes_its_workers (by decide) writesFor_quartet
  obtain ⟨alone, -⟩ := submissions "writer" [messageFor 1000] .timetable _ rfl (by simp)
    (submit_quartet 1000)
  obtain ⟨due, first, v, reaches, routed, -⟩ := alone (by simp [scopeOf])
  cases firstDue_quartet first
  obtain ⟨timers, none⟩ := timers_quartet routed (by decide)
  refine ⟨_, v, reaches, timers 0 (.inl rfl), timers 1 (.inr rfl), ?_, none 2, ?_⟩
  · have third := routed.heeds (seatOf 2) (by decide) (informs_quartet.mpr (by omega))
    exact congrArg (Option.map Worker.target) (third.target _ rfl)
  · have last := routed.keeps (seatOf 3) (by decide) fun informed => by
      simpa using informs_quartet.mp informed
    exact ⟨last.worker, last.firings⟩

/-- A message is handed in that is to go out after forty years of 365 days. All workers of the
slice plan to run later, but the second has its new firing after thirty years, and the third,
whose scheduler has been stopped, has none. -/
theorem quartet_wakes_early_or_never :
    let forty : Int := 40 * 365 * 86400000
    let thirty : Nat := 30 * 365 * 86400000
    (quartet.Informs (seatOf 0) .all (seatOf 1) ∧ quartet.Informs (seatOf 0) .all (seatOf 2)) ∧
      (quartet.worker? 1 = some (workerOf 1) ∧ Needs (workerOf 1).target forty) ∧
      (quartet.worker? 2 = some (workerOf 2) ∧ Needs (workerOf 2).target forty) ∧
      ∃ stored v,
        Reaches ((takeSubmission "writer" [messageFor forty] .timetable).run ⟨quartet, []⟩)
          (.give (.answer (.timetable stored)), ⟨v, []⟩) ∧
        quartet.system.OneMore v.system 1 1 1 thirty ∧
        ¬ quartet.system.OneMore v.system 1 1 1 (max forty quartet.now).toNat ∧
        ∀ due, ¬ quartet.system.OneMore v.system 2 2 2 due := by
  intro forty thirty
  have known : quartet.names.writers.find? "writer" = some 0 := rfl
  obtain ⟨due, first, v, reaches, routed⟩ := wired_quartet.submitted (by decide) writesFor_quartet
    known (by simp) .timetable (by simp [scopeOf]) (submit_quartet forty)
  cases firstDue_quartet first
  obtain ⟨timers, none⟩ := timers_quartet routed (by decide)
  have capped : 0 + min (max forty 0 - 0).toNat Duration.longestTimer = thirty := by
    simp only [forty, thirty, Duration.longestTimer]
    omega
  have late : (max forty quartet.now).toNat ≠ thirty := by
    have now : quartet.now = 0 := rfl
    rw [now]
    omega
  have second := timers 1 (.inr rfl)
  rw [capped] at second
  refine ⟨⟨informs_quartet.mpr (by omega), informs_quartet.mpr (by omega)⟩,
    ⟨rfl, .inl (by decide)⟩, ⟨rfl, .inl (by decide)⟩, _, v, reaches, second, ?_, ?_⟩
  · rintro ⟨_, other, -⟩
    obtain ⟨_, one, -⟩ := second
    obtain ⟨same, -⟩ := List.cons.inj (one.symm.trans other)
    exact late (congrArg Job.due same).symm
  · rintro due ⟨_, one, -⟩
    rw [none 2] at one
    cases one

end Simulation.World

end RecurringWork
