import RecurringWork.Proofs.Actor.Registration
import RecurringWork.Proofs.Cluster.Crew
import RecurringWork.Proofs.Cluster.Deliveries

/-!
# RecurringWork.Proofs.Cluster.Duty

**Who holds the duty of the coordinator.** Each node of a group has a manager that keeps an actor
registered as long as the views of the node say that it coordinates the group. A `Service` is a
group with such managers, whose callbacks and listeners are called one after the other with every
join and leave. This module says after any history which of them have the actor registered
(`Service.Reachable.holds_iff_head_or_relic`): the manager of the node that coordinates the group
has, and so has the manager of every node that coordinated the group when it left it.

A manager is as good as its node: it has the actor registered exactly if the view that its node has
published says that the node coordinates (`Post.Follows`). This is kept when a node is told of a
change (`Post.Follows.told`), when another one is (`Post.spares_heed`), and by whatever else happens
to the managers and leaves the name alone (`Fleet.Sparing`).
-/

namespace RecurringWork

/-! ### Managers that follow the views -/

/-- The manager of a node, and the actor that it keeps registered while the node coordinates. -/
structure Post where
  manager : Nat
  actor : Nat
  delay : Int

/-- A manager heeds a view of its node. -/
def Post.heed (name : String) (now : Nat) (s : ActorSystem) : Post × View → ActorSystem
  | (p, view) => s.heedView now p.manager name p.actor p.delay view

/-- The listener of a node is a manager that has the actor registered exactly if the published
view says that the node coordinates. -/
structure Post.Follows {β : Type} (p : Post) (name : String) (s : ActorSystem)
    (k : Coordinator Post β) : Prop where
  listens : k.viewListeners = [p]
  upToDate : k.UpToDate
  positive : 0 ≤ p.delay
  manages : (s.manager? p.manager).isSome
  registered : (s.registered? p.manager name).isSome = k.view.isCoordinator

namespace Cluster

variable {α β : Type}

/-- Who is told of which view when the callback of a node is called. -/
def news (c : Cluster α β) (n : Nat) : List (α × View) :=
  match c.nodes[n]? with
  | none => []
  | some k =>
      match k.republish? k.view.version c.group.addresses (c.group.coordinator? == some k.node) with
      | some (listeners, k) => listeners.map (·, k.view)
      | none => []

/-- What the managers do while callbacks are called, one after the other. -/
def spread (name : String) (now : Nat) : Cluster Post β → List Nat → ActorSystem → ActorSystem
  | _, [], s => s
  | c, n :: ns, s => spread name now (c.tell n) ns ((c.news n).foldl (Post.heed name now) s)

theorem viewListeners_refreshed (g : Group Nat Nat) (k : Coordinator α β) :
    (refreshed g k).viewListeners = k.viewListeners := by
  unfold refreshed Coordinator.republish? Coordinator.publish? Coordinator.deliver?
  simp only [if_true, Option.map_some]
  split_ifs <;> rfl

/-- A node that is told publishes its next view and hands it to all its listeners. -/
theorem refreshed_of_upToDate {k : Coordinator α β} (h : k.UpToDate) (g : Group Nat Nat) :
    refreshed g k = k.republished g.addresses (g.coordinator? == some k.node) := by
  rw [refreshed, h.republish?]

theorem news_of_upToDate {c : Cluster α β} {n : Nat} {k : Coordinator α β}
    (found : c.nodes[n]? = some k) (h : k.UpToDate) :
    c.news n = k.viewListeners.map (·, (refreshed c.group k).view) := by
  rw [news, found, refreshed_of_upToDate h]
  dsimp only
  rw [h.republish?]

end Cluster

namespace Post

variable {β : Type} {p : Post} {name : String} {s t : ActorSystem} {k : Coordinator Post β}

theorem Follows.spares {spared : Nat → String → Prop} (h : p.Follows name s k)
    (spares : ActorSystem.Spares spared s t) (here : spared p.manager name) :
    p.Follows name t k where
  listens := h.listens
  upToDate := h.upToDate
  positive := h.positive
  manages := by
    rw [spares.managers]
    exact h.manages
  registered := by
    rw [spares.registered here]
    exact h.registered

/-- What one manager does concerns no other. -/
theorem spares_heed (p : Post) (name : String) (now : Nat) (s : ActorSystem) (view : View) :
    ActorSystem.Spares (fun m _ => m ≠ p.manager) s (heed name now s (p, view)) :=
  ActorSystem.spares_heedView (fun apart => apart rfl) now p.actor p.delay view

/-- **A manager follows its node when the node is told.** -/
theorem Follows.told (h : p.Follows name s k) (now : Nat) (g : Group Nat Nat) :
    p.Follows name (heed name now s (p, (Cluster.refreshed g k).view)) (Cluster.refreshed g k) where
  listens := by
    rw [Cluster.refreshed_of_upToDate h.upToDate]
    exact h.listens
  upToDate := by
    rw [Cluster.refreshed_of_upToDate h.upToDate]
    rfl
  positive := h.positive
  manages := by
    rw [(p.spares_heed name now s _).managers]
    exact h.manages
  registered := ActorSystem.registered?_heedView h.manages now p.actor h.positive _

end Post

namespace Cluster

variable {β : Type} {name : String} {c : Cluster Post β} {s t : ActorSystem}

/-- Every node has a manager of its own, which follows it. -/
structure Staffed (name : String) (c : Cluster Post β) (s : ActorSystem) : Prop where
  posted : ∀ {n : Nat} {k : Coordinator Post β}, c.nodes[n]? = some k →
    ∃ p : Post, p.Follows name s k
  apart : ∀ {i j : Nat} {k l : Coordinator Post β} {p q : Post}, c.nodes[i]? = some k →
    c.nodes[j]? = some l → k.viewListeners = [p] → l.viewListeners = [q] →
    p.manager = q.manager → i = j

/-- What leaves the name alone leaves the nodes staffed. -/
theorem Staffed.spares (h : c.Staffed name s)
    (spares : ActorSystem.Spares (fun _ key => key = name) s t) : c.Staffed name t where
  posted := fun found => (h.posted found).imp fun _ follows => follows.spares spares rfl
  apart := h.apart

/-- To tell a node is to refresh it. -/
theorem nodes_tell_inv {n j : Nat} {l : Coordinator Post β} (found : (c.tell n).nodes[j]? = some l) :
    ∃ k, c.nodes[j]? = some k ∧ l = if n = j then refreshed c.group k else k := by
  rw [Cluster.tell, List.getElem?_modify] at found
  obtain ⟨k, here, same⟩ := Option.map_eq_some_iff.mp found
  exact ⟨k, here, same.symm⟩

/-- All managers still follow their nodes when one node is told. -/
theorem Staffed.tell (h : c.Staffed name s) (now n : Nat) :
    (c.tell n).Staffed name ((c.news n).foldl (Post.heed name now) s) := by
  constructor
  · intro j l found
    obtain ⟨k, here, rfl⟩ := nodes_tell_inv found
    obtain ⟨p, follows⟩ := h.posted here
    refine ⟨p, ?_⟩
    cases told : c.nodes[n]? with
    | none =>
        have other : n ≠ j := by
          rintro rfl
          rw [told] at here
          cases here
        rw [if_neg other, news, told]
        exact follows
    | some k' =>
        obtain ⟨p', follows'⟩ := h.posted told
        rw [news_of_upToDate told follows'.upToDate, follows'.listens]
        by_cases same : n = j
        · subst same
          rw [told] at here
          cases here
          cases follows.listens.symm.trans follows'.listens
          rw [if_pos rfl]
          exact follows.told now c.group
        · rw [if_neg same]
          refine follows.spares (p'.spares_heed name now s _) fun one => ?_
          exact same (h.apart told here follows'.listens follows.listens one.symm)
  · intro i j k l p q found found' first second
    obtain ⟨k, here, rfl⟩ := nodes_tell_inv found
    obtain ⟨l, here', rfl⟩ := nodes_tell_inv found'
    refine h.apart here here' ?_ ?_
    · split at first
      · exact (viewListeners_refreshed c.group k).symm.trans first
      · exact first
    · split at second
      · exact (viewListeners_refreshed c.group l).symm.trans second
      · exact second

/-- After all callbacks have been called, every manager has followed its node. -/
theorem Staffed.spread (h : c.Staffed name s) (now : Nat) (ns : List Nat) :
    (ns.foldl Cluster.tell c).Staffed name (c.spread name now ns s) := by
  induction ns generalizing c s with
  | nil => exact h
  | cons n ns ih => exact ih (h.tell now n)

/-- No node has another manager than before. -/
theorem nodes_foldl_tell_inv {ns : List Nat} {j : Nat} {l : Coordinator Post β}
    (found : (ns.foldl Cluster.tell c).nodes[j]? = some l) :
    ∃ k, c.nodes[j]? = some k ∧ l.viewListeners = k.viewListeners := by
  induction ns generalizing c with
  | nil => exact ⟨l, found, rfl⟩
  | cons n ns ih =>
      obtain ⟨k, here, same⟩ := ih found
      obtain ⟨k', here', rfl⟩ := nodes_tell_inv here
      refine ⟨k', here', same.trans ?_⟩
      split
      · exact viewListeners_refreshed c.group k'
      · rfl

/-- No manager is lost while nodes are told. -/
theorem manager?_spread (now : Nat) (ns : List Nat) (c : Cluster Post β) (s : ActorSystem)
    (m : Nat) : ((c.spread name now ns s).manager? m).isSome = (s.manager? m).isSome := by
  have heeds : ∀ (news : List (Post × View)) (s : ActorSystem),
      ((news.foldl (Post.heed name now) s).manager? m).isSome = (s.manager? m).isSome := by
    intro news
    induction news with
    | nil => exact fun _ => rfl
    | cons first rest ih =>
        intro s
        exact (ih _).trans ((first.1.spares_heed name now s first.2).managers m)
  induction ns generalizing c s with
  | nil => rfl
  | cons n ns ih => exact (ih _ _).trans (heeds _ s)

/-- The nodes once one more has been started and has got a manager. -/
theorem nodes_start_listen (c : Cluster Post β) (a : Address) (p : Post) (j : Nat) :
    ((c.start a).take (.listen c.nodes.length p)).nodes[j]? =
      if j = c.nodes.length then
        some ((Coordinator.start a c.group.addresses (c.group.coordinator? == some a)).listen p)
      else c.nodes[j]? := by
  simp only [take, start, List.getElem?_modify]
  by_cases last : j = c.nodes.length
  · subst last
    simp
  · rw [if_neg last]
    by_cases old : j < c.nodes.length
    · simp [List.getElem?_append_left old, Ne.symm last]
    · rw [List.getElem?_eq_none (by simp; omega), List.getElem?_eq_none (by omega)]
      rfl

/-- A node that is started gets a manager that nobody else has. -/
theorem Staffed.start (h : c.Staffed name s) (now : Nat) (a : Address) {p : Post}
    (positive : 0 ≤ p.delay) (manages : (s.manager? p.manager).isSome)
    (unused : ∀ k ∈ c.nodes, ∀ q ∈ k.viewListeners, q.manager ≠ p.manager) :
    ((c.start a).take (.listen c.nodes.length p)).Staffed name
      (Post.heed name now s (p, (Coordinator.start a c.group.addresses
        (c.group.coordinator? == some a) : Coordinator Post β).view)) := by
  have apart : ∀ {j : Nat} {l : Coordinator Post β} {q : Post}, c.nodes[j]? = some l →
      l.viewListeners = [q] → q.manager ≠ p.manager := by
    intro j l q here one
    exact unused l (List.mem_of_getElem? here) q (one ▸ List.mem_singleton_self q)
  constructor
  · intro j l found
    rw [nodes_start_listen] at found
    split at found
    · cases found
      refine ⟨p, rfl, rfl, positive, ?_, ?_⟩
      · rw [(p.spares_heed name now s _).managers]
        exact manages
      · exact ActorSystem.registered?_heedView manages now p.actor positive _
    · obtain ⟨q, follows⟩ := h.posted found
      exact ⟨q, follows.spares (p.spares_heed name now s _) (apart found follows.listens)⟩
  · intro i j k l q r found found' first second same
    rw [nodes_start_listen] at found found'
    split at found
    · next last =>
        cases found
        cases first
        split at found'
        · next last' => rw [last, last']
        · exact absurd same.symm (apart found' second)
    · split at found'
      · cases found'
        cases second
        exact absurd same (apart found first)
      · exact h.apart found found' first second same

end Cluster

/-! ### Services -/

/-- A group of nodes with their managers, and what has happened to it, told from its end. -/
structure Service (β : Type) where
  cluster : Cluster Post β
  history : List (Cluster.Move Post)
  fleet : Fleet

namespace Service

variable {β : Type} {name : String}

/-- Nobody has joined. -/
def empty (s : ActorSystem) : Service β := ⟨.empty, [], ⟨s, 0, [], []⟩⟩

/-- Somebody new joins. All nodes are told, then the new one is started, and its manager is told
of the view that it has published. -/
def join (name : String) (a : Address) (p : Post) (x : Service β) : Service β :=
  let (callbacks, group) := x.cluster.group.join a
  let told := Cluster.spread name x.fleet.elapsed { x.cluster with group } callbacks x.fleet.system
  let n := x.cluster.nodes.length
  let cluster := (x.cluster.take (.join a)).take (.listen n p)
  let system :=
    match cluster.nodes[n]? with
    | some k => Post.heed name x.fleet.elapsed told (p, k.view)
    | none => told
  ⟨cluster, .listen n p :: .join a :: x.history, { x.fleet with system }⟩

/-- A member leaves, or somebody else, which changes nothing. -/
def leave (name : String) (a : Address) (x : Service β) : Service β :=
  let (callbacks, group) := x.cluster.group.leave a
  let system := Cluster.spread name x.fleet.elapsed { x.cluster with group } (callbacks.getD [])
    x.fleet.system
  ⟨x.cluster.take (.leave a), .leave a :: x.history, { x.fleet with system }⟩

/-- One thing that happens. -/
inductive Step (name : String) : Service β → Service β → Prop
  /-- Somebody new joins, with a manager that no other node has. -/
  | joins {x : Service β} {a : Address} {p : Post} : a ∉ x.cluster.group.addresses →
      0 ≤ p.delay → (x.fleet.system.manager? p.manager).isSome →
      (∀ k ∈ x.cluster.nodes, ∀ q ∈ k.viewListeners, q.manager ≠ p.manager) →
      Step name x (x.join name a p)
  /-- A member joins again. -/
  | rejoins {x : Service β} {a : Address} : a ∈ x.cluster.group.addresses →
      Step name x { x with cluster := x.cluster.take (.join a), history := .join a :: x.history }
  | leaves {x : Service β} (a : Address) : Step name x (x.leave name a)
  /-- Something happens to the managers that leaves the name alone. -/
  | goesOn {x : Service β} {f : Fleet} : Fleet.Sparing name x.fleet f →
      Step name x { x with fleet := f }

/-- Any number of things that happen one after the other. -/
abbrev Steps (name : String) : Service β → Service β → Prop := Relation.ReflTransGen (Step name)

/-- What can come of managers that nobody has used. -/
def Reachable (name : String) (x : Service β) : Prop :=
  ∃ s, Fleet.Blank s ∧ Steps name (.empty s) x

/-- The node has a manager that has an actor registered under the name. -/
def Holds (name : String) (x : Service β) (n : Nat) : Prop :=
  ∃ k, x.cluster.nodes[n]? = some k ∧
    ∃ p ∈ k.viewListeners, (x.fleet.system.registered? p.manager name).isSome

/-- The cluster is that of the history, and all its nodes are staffed. -/
structure Sound (name : String) (x : Service β) : Prop where
  cluster : x.cluster = .after x.history
  staffed : x.cluster.Staffed name x.fleet.system

theorem sound_empty (s : ActorSystem) : (empty s : Service β).Sound name where
  cluster := rfl
  staffed := by
    constructor
    · intro n k found
      cases found
    · intro i j k l p q found
      cases found

/-- A node has its manager whatever the members are. -/
theorem Sound.regrouped {x : Service β} (h : x.Sound name) (group : Group Nat Nat) :
    ({ x.cluster with group } : Cluster Post β).Staffed name x.fleet.system :=
  ⟨h.staffed.posted, h.staffed.apart⟩

theorem Sound.join {x : Service β} (h : x.Sound name) {a : Address} {p : Post}
    (new : a ∉ x.cluster.group.addresses) (positive : 0 ≤ p.delay)
    (manages : (x.fleet.system.manager? p.manager).isSome)
    (unused : ∀ k ∈ x.cluster.nodes, ∀ q ∈ k.viewListeners, q.manager ≠ p.manager) :
    (x.join name a p).Sound name := by
  let told : Cluster Post β := (x.cluster.group.join a).2.callbacks.foldl Cluster.tell
    { x.cluster with group := (x.cluster.group.join a).2 }
  have length : told.nodes.length = x.cluster.nodes.length := by simp [told]
  have joined : x.cluster.take (.join a) = told.start a := Cluster.take_join_of_not_mem new
  have callbacks : (x.cluster.group.join a).1 = (x.cluster.group.join a).2.callbacks := by
    have holds : x.cluster.group.holds a = false := by simpa [Group.holds] using new
    simp [Group.join, holds]
  have staffed := ((h.regrouped (x.cluster.group.join a).2).spread x.fleet.elapsed
    (x.cluster.group.join a).1)
  rw [callbacks] at staffed
  have next := staffed.start x.fleet.elapsed a positive
    ((Cluster.manager?_spread _ _ _ _ _).trans manages) fun k mem q listens => by
      obtain ⟨j, found⟩ := List.mem_iff_getElem?.mp mem
      obtain ⟨l, here, same⟩ := Cluster.nodes_foldl_tell_inv found
      exact unused l (List.mem_of_getElem? here) q (same ▸ listens)
  constructor
  · exact congrArg (fun c => (c.take (.join a)).take (.listen x.cluster.nodes.length p)) h.cluster
  · have node := Cluster.nodes_start_listen told a p told.nodes.length
    rw [if_pos rfl, length] at node
    rw [length] at next
    simp only [Service.join, joined, callbacks, node]
    exact next

theorem Sound.leave {x : Service β} (h : x.Sound name) (a : Address) :
    (x.leave name a).Sound name where
  cluster := congrArg (Cluster.take · (.leave a)) h.cluster
  staffed := (h.regrouped _).spread x.fleet.elapsed _

/-- **Every step keeps the nodes staffed.** -/
theorem Sound.step {x y : Service β} (h : x.Sound name) (st : Step name x y) : y.Sound name := by
  cases st with
  | joins new positive manages unused => exact h.join new positive manages unused
  | @rejoins a known =>
      refine ⟨congrArg (Cluster.take · (.join a)) h.cluster, ?_⟩
      rw [Cluster.take_join_of_mem known]
      exact h.staffed
  | leaves a => exact h.leave a
  | goesOn sparing => exact ⟨h.cluster, h.staffed.spares sparing.spares⟩

theorem Reachable.sound {x : Service β} (h : x.Reachable name) : x.Sound name := by
  obtain ⟨s, -, run⟩ := h
  induction run with
  | refl => exact sound_empty s
  | tail _ st ih => exact ih.step st

/-- **The holders of a duty are the nodes that take themselves for the coordinator.** -/
theorem Sound.holds_iff {x : Service β} (h : x.Sound name) (n : Nat) :
    x.Holds name n ↔ n ∈ Cluster.Move.holders x.history := by
  constructor
  · rintro ⟨k, found, p, listens, registered⟩
    obtain ⟨q, follows⟩ := h.staffed.posted found
    rw [follows.listens, List.mem_singleton] at listens
    subst listens
    rw [follows.registered] at registered
    rw [h.cluster] at found
    exact (Cluster.coordinates_iff found).mp registered
  · intro holder
    obtain ⟨k, found⟩ : ∃ k, x.cluster.nodes[n]? = some k := by
      have started := (Cluster.Move.nodup_numbers x.history).2 n
        ((Cluster.Move.holders_sublist _).subset holder)
      rw [← Cluster.length_nodes_after β, ← h.cluster] at started
      exact ⟨_, List.getElem?_eq_getElem started⟩
    obtain ⟨p, follows⟩ := h.staffed.posted found
    refine ⟨k, found, p, follows.listens ▸ List.mem_singleton_self p, ?_⟩
    rw [follows.registered]
    rw [h.cluster] at found
    exact (Cluster.coordinates_iff found).mpr holder

/-- **The duty is held by the node of the coordinator and by every node that coordinated the
group when it left it**, and by no other. So it is always held by the node of the coordinator,
if there is one, and by nobody else exactly as long as no coordinator has left, unless the group is
empty and only one has. -/
theorem Reachable.holds_iff_head_or_relic {x : Service β} (h : x.Reachable name) :
    (∀ n, x.Holds name n ↔
      (Cluster.Move.crew x.history).head?.map Prod.snd = some n ∨
        n ∈ Cluster.Move.relics x.history) ∧
      (∀ a, x.cluster.group.coordinator? = some a →
        ∃ n k, (Cluster.Move.crew x.history).head? = some (a, n) ∧ x.cluster.nodes[n]? = some k ∧
          k.node = a ∧ x.Holds name n) ∧
      ((∀ i j, x.Holds name i → x.Holds name j → i = j) ↔
        (Cluster.Move.relics x.history).length +
          (if x.cluster.group.addresses = [] then 0 else 1) ≤ 1) := by
  have sound := h.sound
  have addresses : x.cluster.group.addresses = Cluster.Move.roster x.history := by
    rw [sound.cluster]
    exact (Cluster.follows_after x.history).addresses
  have holders : ∀ n, x.Holds name n ↔
      (Cluster.Move.crew x.history).head?.map Prod.snd = some n ∨
        n ∈ Cluster.Move.relics x.history := by
    intro n
    rw [sound.holds_iff, Cluster.Move.holders, List.mem_append, Option.mem_toList]
  refine ⟨holders, fun a coordinates => ?_, ?_⟩
  · rw [Cluster.coordinator?_eq_head?, addresses, ← Cluster.Move.map_fst_crew, List.head?_map,
      Option.map_eq_some_iff] at coordinates
    obtain ⟨⟨b, n⟩, first, rfl⟩ := coordinates
    obtain ⟨k, found, at_a, -⟩ :=
      Cluster.coordinates_of_mem_crew β (List.mem_of_mem_head? first)
    rw [← sound.cluster] at found
    exact ⟨n, k, first, found, at_a, (holders n).mpr (.inl (by rw [first]; rfl))⟩
  · rw [addresses, ← Cluster.Move.one_holder_iff]
    exact forall₂_congr fun i j => by rw [sound.holds_iff, sound.holds_iff]

/-- Two managers that nobody has used. -/
def twoManagers : ActorSystem :=
  ⟨[], [⟨[], 0, none, none, none⟩, ⟨[], 0, none, none, none⟩], [.empty], []⟩

/-- Two members with their nodes and managers. The first of them coordinates the group. -/
def twoMembers : Service Unit :=
  join "duty" ⟨.localhost, 7001⟩ ⟨1, 1, 0⟩
    (join "duty" ⟨.localhost, 7000⟩ ⟨0, 0, 0⟩ (empty twoManagers))

theorem reachable_twoMembers : twoMembers.Reachable "duty" := by
  have blank : Fleet.Blank twoManagers := by
    refine ⟨rfl, fun k mem => ?_, fun c mem => ?_⟩
    · simp only [twoManagers, List.mem_cons, List.not_mem_nil, or_false, or_self] at mem
      rw [mem]
    · cases List.mem_singleton.mp mem
      rfl
  have first : Step "duty" (empty twoManagers : Service Unit)
      (join "duty" ⟨.localhost, 7000⟩ ⟨0, 0, 0⟩ (empty twoManagers)) :=
    .joins (by decide) (by decide) rfl fun k mem => by cases mem
  have second : Step "duty" (join "duty" ⟨.localhost, 7000⟩ ⟨0, 0, 0⟩ (empty twoManagers))
      twoMembers := by
    refine .joins (by decide) (by decide) rfl fun k mem q listens => ?_
    cases List.mem_singleton.mp mem
    cases List.mem_singleton.mp listens
    decide
  exact ⟨twoManagers, blank, (Relation.ReflTransGen.single first).tail second⟩

/-- The first of two members holds the duty, and nobody else. -/
theorem holds_of_twoMembers :
    twoMembers.Reachable "duty" ∧ twoMembers.Holds "duty" 0 ∧
      ∀ n, twoMembers.Holds "duty" n → n = 0 := by
  obtain ⟨holders, -, one⟩ := reachable_twoMembers.holds_iff_head_or_relic
  have first : twoMembers.Holds "duty" 0 := (holders 0).mpr (.inl (by decide))
  exact ⟨reachable_twoMembers, first, fun n held => one.mpr (by decide) n 0 held first⟩

/-- The first of two members leaves. The second one takes the duty over, and the first one
keeps it. -/
theorem duty_held_twice :
    let x := twoMembers.leave "duty" ⟨.localhost, 7000⟩
    x.Reachable "duty" ∧ x.cluster.group.coordinator? = some ⟨.localhost, 7001⟩ ∧
      x.Holds "duty" 0 ∧ x.Holds "duty" 1 := by
  intro x
  obtain ⟨s, blank, run⟩ := reachable_twoMembers
  have reachable : x.Reachable "duty" := ⟨s, blank, run.tail (.leaves _)⟩
  exact ⟨reachable, by decide, (reachable.sound.holds_iff 0).mpr (by decide),
    (reachable.sound.holds_iff 1).mpr (by decide)⟩

end Service

end RecurringWork
