import RecurringWork.Proofs.Cluster.Asking
import RecurringWork.Proofs.Dispatch.Routing

/-!
# RecurringWork.Proofs.Cluster.Posts

**Groups whose managers hear requests.** In a group that is staffed (`World.Staffed`) each manager
has its post at a node and hears the requests of the node, once, although the event has further
tags (`Staffed.audience`). A manager that is made at a node takes a post there, next to those that
there are (`Staffed.takes_post`); nothing else is asked of a group. There may be any number of
nodes, of managers at a node and of names, and members may be out of reach.
-/

namespace RecurringWork.Simulation

open World

variable {u v w : World} {stack : List Frame} {posts : List Post} {event : Event}
  {name : String} {delay : Int}

namespace World

/-! ### Groups whose managers hear requests -/

/-- A group of nodes whose managers have these posts, while a task is in the middle of `stack`.
Members may have sinks besides those of their nodes. -/
structure Staffed (w : World) (stack : List Frame) (posts : List Post) : Prop where
  /-- No manager has two posts. -/
  apart : (posts.map Post.manager).Nodup
  managed : ∀ p ∈ posts, ∃ c, w.system.manager? p.manager = some c ∧ c.coordinator = some p.node
  lives : ∀ p ∈ posts, w.isAlive (stack ++ w.waitingFrames) (.manager p.manager) = true
  grouped : ∀ p ∈ posts, ∃ k, w.nodes[p.node]? = some k ∧ k.facility = .group
  leads : w.system.Leads
  /-- Requests are heard at a node by its managers, each once. -/
  listens : ∀ (n : Nat) (k : Node), w.nodes[n]? = some k →
    (k.coordinator.dispatcher.subscribers .actorReschedule).map Subscription.listener =
      (postsAt posts n).map Post.requests
  /-- Nobody listens for the other tags of a request. -/
  narrow : ∀ (n : Nat) (k : Node), w.nodes[n]? = some k →
    ∀ s ∈ k.coordinator.dispatcher.subscriptions, s.category ≠ .scheduling ∧ s.category ≠ .any
  /-- What a member takes is for nodes of its address. -/
  members : ∀ m ∈ w.group.members, ∀ n, EventSink.listeners n ∈ m.sinks →
    ∃ k, w.nodes[n]? = some k ∧ k.coordinator.node = m.address
  once : ((w.group.members.flatMap Member.sinks).filterMap EventSink.node?).Nodup
  observers : ∀ m ∈ w.group.members, ∀ c, EventSink.callback c ∈ m.sinks → w.Quiet c

namespace Staffed

/-- **Requests are heard at a node by its managers, each once**, and by nobody else, although the
event has further tags. -/
theorem audience (staffed : w.Staffed stack posts) {n : Nat} {k : Node}
    (there : w.nodes[n]? = some k) (name : String) (delay : Int) (origin : Address) :
    k.coordinator.dispatcher.audience ((Event.rescheduleActor name delay).withOrigin origin) =
      (postsAt posts n).map Post.requests := by
  have nobody : ∀ c : Category, c = .scheduling ∨ c = .any →
      k.coordinator.dispatcher.subscribers c = [] := by
    intro c wide
    rw [Dispatcher.subscribers, List.filter_eq_nil_iff]
    rintro s mem tag
    obtain ⟨not_scheduling, not_any⟩ := staffed.narrow n k there s mem
    rcases wide with rfl | rfl
    · exact not_scheduling (beq_iff_eq.mp tag)
    · exact not_any (beq_iff_eq.mp tag)
  rw [← staffed.listens n k there]
  simp [Dispatcher.audience, Event.withOrigin, Event.rescheduleActor, Event.ofKind,
    EventKind.categories, nobody]

theorem weaken (staffed : w.Staffed stack posts) {more : List Frame} (within : stack ⊆ more) :
    w.Staffed more posts :=
  { staffed with lives := fun p mem => (Unaltered.refl w).isAlive within (staffed.lives p mem) }

/-- Whoever is asked, the group is staffed as before. -/
theorem lasts (staffed : w.Staffed stack posts) (same : w.Unaltered v) :
    v.Staffed stack posts := by
  obtain ⟨_, _, _, world⟩ := same.world
  have nodes : v.nodes = w.nodes := by rw [world]
  have group : v.group = w.group := by rw [world]
  refine ⟨staffed.apart, fun p mem => ?_,
    fun p mem => same.isAlive (List.Subset.refl _) (staffed.lives p mem), ?_,
    same.system.leads staffed.leads, ?_, ?_, ?_, ?_, fun m mem c sink => ?_⟩
  · rw [same.system.manager]
    exact staffed.managed p mem
  · rw [nodes]
    exact staffed.grouped
  · rw [nodes]
    exact staffed.listens
  · rw [nodes]
    exact staffed.narrow
  · rw [nodes, group]
    exact staffed.members
  · rw [group]
    exact staffed.once
  · rw [group] at mem
    exact same.quiet (staffed.observers m mem c sink)

/-- Where somebody has a post, the node lives. -/
theorem node_lives (staffed : w.Staffed stack posts) {p : Post} (mem : p ∈ posts) :
    w.isAlive (stack ++ w.waitingFrames) (.node p.node) = true := by
  obtain ⟨c, manages, coordinator⟩ := staffed.managed p mem
  obtain ⟨k, there, -⟩ := staffed.grouped p mem
  refine isAlive_of_held (staffed.lives p mem) ?_ ?_
  · show _ ∈ (w.system.manager? p.manager).elim [] w.heldByManager
    rw [manages]
    simp [heldByManager, coordinator]
  · have known := (List.getElem?_eq_some_iff.mp there).1
    simp [things, known]

end Staffed

end World

/-! ### A manager takes a post -/

theorem Bindings.drop_of_free {α : Type} {bs : Bindings α} {name : String}
    (free : bs.find? name = none) : bs.drop name = bs := by
  have others := List.find?_eq_none.mp (Option.map_eq_none_iff.mp free)
  refine List.filter_eq_self.mpr fun b mem => ?_
  simpa using others b mem

theorem Bindings.find?_bind {α : Type} (bs : Bindings α) (name : String) (value : α) :
    (bs.bind name value).find? name = some value := by
  simp [bind, find?]

/-- The scheduler for a manager may have to be made first. -/
theorem run_schedulerFor (name : String) (scheduler : Option String) (w : World)
    (stack : List Frame) :
    ∃ number named further, (schedulerFor name scheduler).run ⟨w, stack⟩ = (number,
      ⟨{ w with
          system := { w.system with schedulers := w.system.schedulers ++ further }
          names := { w.names with schedulers := named } }, stack⟩) := by
  have by_name : ∀ (name : String) (w : World), ∃ number named further,
      (schedulerOf name).run ⟨w, stack⟩ = (number,
        ⟨{ w with
            system := { w.system with schedulers := w.system.schedulers ++ further }
            names := { w.names with schedulers := named } }, stack⟩) := by
    intro name w
    rw [schedulerOf, Act.run_look]
    cases w.names.schedulers.find? name with
    | some number => exact ⟨number, w.names.schedulers, [], by rw [List.append_nil]; rfl⟩
    | none => exact ⟨w.system.schedulers.length, _, [.empty], rfl⟩
  cases scheduler with
  | some other => exact by_name other w
  | none =>
      obtain ⟨number, named, further, made⟩ := by_name name
        { w with names := { w.names with schedulers := w.names.schedulers.drop name } }
      exact ⟨number, named, further, made⟩

theorem run_newManager (name : String) (c : Manager) (w : World) (stack : List Frame) :
    (newManager name c).run ⟨w, stack⟩ = (w.system.managers.length,
      ⟨{ w with
          system := (w.system.addManager c).2
          names :=
            { w.names with
              managers := w.names.managers.bind name w.system.managers.length } }, stack⟩) := rfl

theorem run_hearRequests {n : Nat} {k : Node} (there : w.nodes[n]? = some k) (m : Nat) :
    (hearRequests m (some n)).run ⟨w, stack⟩ = ((),
      ⟨{ w.subscribed n (k.coordinator.dispatcher.subscribe .actorReschedule (.requests m)).2
          w.names.subscriptions with
          system := w.system.modifyManager m fun c =>
            { c with subscription := some k.coordinator.dispatcher.next } }, stack⟩) := by
  rw [hearRequests, Act.run_look, Option.bind_some, there]
  rfl

namespace World

/-- A manager `c` has been made under a name, perhaps with its scheduler, at node `n`, which has
these subscriptions now. -/
def hired (w : World) (name : String) (c : Manager) (n : Nat) (d : Dispatcher EventHook)
    (further : List (Scheduler Duty)) (named : Bindings Nat) : World :=
  { w.subscribed n d w.names.subscriptions with
    system :=
      { w.system with
        managers := w.system.managers ++ [c]
        schedulers := w.system.schedulers ++ further }
    names :=
      { w.names with
        schedulers := named
        managers := w.names.managers.bind name w.system.managers.length } }

/-- To make a manager at a node is to have it hear the requests of the node. -/
theorem run_manager (name : String) {node : String} (scheduler : Option String)
    {retry : Option (Option RetryPolicy)} (decodes : retry ≠ some none) {n : Nat} {k : Node}
    (at_ : w.node? node = some n) (there : w.nodes[n]? = some k) (stack : List Frame) :
    ∃ c further named, (takeActorStep (.manager name (some node) scheduler retry)).run ⟨w, stack⟩ =
        (.give (.answer .nothing), ⟨w.hired name c n
          (k.coordinator.dispatcher.subscribe .actorReschedule
            (.requests w.system.managers.length)).2 further named, stack⟩) ∧
      c.names = [] ∧ c.coordinator = some n := by
  obtain ⟨number, named, further, made⟩ := run_schedulerFor name scheduler w stack
  refine ⟨⟨[], number, some n, (retry.bind id).map Retry.ofPolicy,
    some k.coordinator.dispatcher.next⟩, further, named, ?_, rfl, rfl⟩
  have last : ∀ (ms : List Manager) (c : Manager) (f : Manager → Manager),
      (ms ++ [c]).modify ms.length f = ms ++ [f c] := by
    intro ms c f
    induction ms with
    | nil => rfl
    | cons a rest ih => exact congrArg (a :: ·) ih
  unfold takeActorStep
  dsimp only
  split
  · exact absurd rfl decodes
  · rw [Act.run_bind made, Act.run_look]
    have at_ : (some node).bind { w with
        system := { w.system with schedulers := w.system.schedulers ++ further }
        names := { w.names with schedulers := named } }.node? = some n := at_
    rw [at_, Act.run_bind (run_newManager _ _ _ _), Act.run_bind (run_hearRequests (k := k) ?_ _)]
    · simp only [hired, ActorSystem.modifyManager, ActorSystem.addManager, last]
      rfl
    · exact there

section Hired

variable {c : Manager} {n : Nat} {d : Dispatcher EventHook} {further : List (Scheduler Duty)}
  {named : Bindings Nat}

theorem manager?_hired (m : Nat) : (w.hired name c n d further named).system.manager? m =
    if m = w.system.managers.length then some c else w.system.manager? m := by
  show (w.system.managers ++ [c])[m]? = _
  rw [List.getElem?_append]
  split
  · next old => rw [if_neg (Nat.ne_of_lt old)]; rfl
  · next new =>
      by_cases last : m = w.system.managers.length
      · simp [last]
      · have beyond : w.system.managers.length + 1 ≤ m := by omega
        rw [if_neg last, ActorSystem.manager?,
          List.getElem?_eq_none (by omega : w.system.managers.length ≤ m)]
        exact List.getElem?_eq_none (by simp; omega)

theorem node_hired {j : Nat} {l : Node}
    (found : (w.hired name c n d further named).nodes[j]? = some l) :
    ∃ k, w.nodes[j]? = some k ∧
      l.coordinator.dispatcher = if n = j then d else k.coordinator.dispatcher := by
  have found : (w.subscribed n d w.names.subscriptions).nodes[j]? = some l := found
  obtain ⟨k, was, -, dispatcher⟩ := node_subscribed found
  exact ⟨k, was, dispatcher⟩

/-- A manager that is made under a free name lets nobody die. -/
theorem retains_hired (free : w.names.managers.find? name = none) :
    w.Retains (w.hired name c n d further named) := by
  refine (w.retains_subscribed n d w.names.subscriptions).trans ⟨?_, fun x => ?_, fun frames => ?_⟩
  · have longer : w.system.managers.length ≤ (w.system.managers ++ [c]).length := by simp
    intro x mem
    simp only [things, List.mem_append, List.mem_map, List.mem_range] at mem ⊢
    rcases mem with ((nodes | ⟨m, below, same⟩) | actors) | writers
    · exact .inl (.inl (.inl nodes))
    · exact .inl (.inl (.inr ⟨m, Nat.lt_of_lt_of_le below longer, same⟩))
    · exact .inl (.inr actors)
    · exact .inr writers
  · cases x with
    | manager m =>
        show (w.system.manager? m).elim [] _ ⊆
          ((w.hired name c n d further named).system.manager? m).elim [] _
        rw [manager?_hired]
        split
        · next last =>
            rw [ActorSystem.manager?, List.getElem?_eq_none (Nat.le_of_eq last.symm)]
            exact List.nil_subset _
        · exact List.Subset.refl _
    | _ => exact List.Subset.refl _
  · have managers : w.names.managers ⊆ (w.names.managers.bind name w.system.managers.length) := by
      rw [Bindings.bind, Bindings.drop_of_free free]
      exact List.subset_cons_self _ _
    have firings : w.system.firings ⊆ (w.hired name c n d further named).system.firings := by
      show w.system.firings ⊆ (w.system.schedulers ++ further).flatMap _
      rw [List.flatMap_append]
      exact List.subset_append_left _ _
    intro x mem
    simp only [rooted, List.mem_append, List.mem_flatMap] at mem ⊢
    rcases mem with ((((nodes | named) | actors) | writers) | ⟨f, fires, root⟩) | needed
    · exact .inl (.inl (.inl (.inl (.inl nodes))))
    · exact .inl (.inl (.inl (.inl (.inr (List.map_subset _ managers named)))))
    · exact .inl (.inl (.inl (.inr actors)))
    · exact .inl (.inl (.inr writers))
    · exact .inl (.inr ⟨f, firings fires, root⟩)
    · exact .inr needed

/-- It lives as long as the name stands for it. -/
theorem isAlive_hired (frames : List Frame) :
    (w.hired name c n d further named).isAlive frames (.manager w.system.managers.length) =
      true := by
  rw [World.isAlive, List.contains_iff_mem]
  refine mem_settled_of_rooted _ ?_ ?_
  · simp [things, hired]
  · simp [rooted, hired, Bindings.bind]

end Hired

namespace Staffed

/-- **A manager that is made at a node has a post there from then on**, next to those that there
are. -/
theorem takes_post (staffed : w.Staffed stack posts) {name : String}
    (free : w.names.managers.find? name = none) {n : Nat} {k : Node}
    (there : w.nodes[n]? = some k) (grouped : k.facility = .group) {c : Manager}
    (blank : c.names = []) (coordinator : c.coordinator = some n)
    (further : List (Scheduler Duty)) (named : Bindings Nat) :
    (w.hired name c n (k.coordinator.dispatcher.subscribe .actorReschedule
      (.requests w.system.managers.length)).2 further named).Staffed stack
        (posts ++ [⟨n, w.system.managers.length⟩]) := by
  have old : ∀ p ∈ posts, p.manager ≠ w.system.managers.length := by
    rintro p mem last
    obtain ⟨c, manages, -⟩ := staffed.managed p mem
    rw [ActorSystem.manager?, List.getElem?_eq_none (Nat.le_of_eq last.symm)] at manages
    cases manages
  have same_node : ∀ o, w.nodes[n]? = some o → o = k := fun o found =>
    Option.some.inj (found.symm.trans there)
  have last : ∀ {p : Post}, p ∈ posts ++ [⟨n, w.system.managers.length⟩] ↔
      p ∈ posts ∨ p = ⟨n, w.system.managers.length⟩ := by simp
  refine ⟨?_, fun p mem => ?_, fun p mem => ?_, fun p mem => ?_, ?_, fun j l found => ?_,
    fun j l found s mem => ?_, fun m mem j sink => ?_, staffed.once, staffed.observers⟩
  · rw [List.map_append]
    refine List.nodup_append.mpr ⟨staffed.apart, List.nodup_singleton _, ?_⟩
    rintro m mem _ new rfl
    obtain ⟨p, among, rfl⟩ := List.mem_map.mp mem
    exact old p among (List.mem_singleton.mp new)
  · rw [manager?_hired]
    rcases last.mp mem with mem | rfl
    · rw [if_neg (old p mem)]
      exact staffed.managed p mem
    · exact ⟨c, if_pos rfl, coordinator⟩
  · rcases last.mp mem with mem | rfl
    · exact (retains_hired free).isAlive (List.Subset.refl _) (staffed.lives p mem)
    · exact isAlive_hired _
  · obtain ⟨o, was, grouped⟩ : ∃ o, w.nodes[p.node]? = some o ∧ o.facility = .group := by
      rcases last.mp mem with mem | rfl
      · exact staffed.grouped p mem
      · exact ⟨k, there, grouped⟩
    obtain ⟨l, found, -, same⟩ := exists_node_subscribed was n _ w.names.subscriptions
    exact ⟨l, found, same.trans grouped⟩
  · intro m i key led
    rw [ActorSystem.registered?, manager?_hired] at led
    split at led
    · simp [Manager.entry?, blank] at led
    · exact staffed.leads led
  · obtain ⟨o, was, dispatcher⟩ := node_hired found
    rw [dispatcher, postsAt, List.filter_append, List.map_append, ← postsAt,
      ← staffed.listens j o was]
    by_cases here : n = j
    · subst here
      cases same_node o was
      simp [Dispatcher.subscribers_subscribe, Post.requests]
    · simp [here]
  · obtain ⟨o, was, dispatcher⟩ := node_hired found
    rw [dispatcher] at mem
    split at mem
    · next here =>
        subst here
        cases same_node o was
        rcases List.mem_append.mp mem with mem | mem
        · exact staffed.narrow _ _ was s mem
        · rw [List.mem_singleton.mp mem]
          exact ⟨by simp, by simp⟩
    · exact staffed.narrow j o was s mem
  · obtain ⟨o, was, address⟩ := staffed.members m mem j sink
    obtain ⟨l, found, same, -⟩ := exists_node_subscribed was n _ w.names.subscriptions
    exact ⟨l, found, same.trans address⟩

end Staffed

end World

end RecurringWork.Simulation
