import RecurringWork.Cluster.Coordinator
import RecurringWork.Cluster.Group
import RecurringWork.Proofs.Cluster.Order

/-!
# RecurringWork.Proofs.Cluster.Views

**The nodes of a group agree.** Nobody hands out places in a cluster: each node asks for the
members when it is told that they have changed, and works out its own place among them. This
module follows a group through any history of joins and leaves (`Cluster.after`), with a node
started on every member that is new, and shows that the views which the nodes have published
fit together (`Cluster.after_views`).

What a history amounts to is said without any node: who the members are (`Cluster.Move.roster`), and
how often that has changed since a member joined (`Cluster.Move.changesSince`). The one invariant is
that each member is *tended* (`Cluster.Tends`): it has one callback, that of the node started
last at its address, and the view of this node is up to date. A move that changes the members
tells every such callback exactly once; one that changes nobody tells none.
-/

namespace RecurringWork

/-- What can happen to a group of nodes with listeners `α` for their views. -/
inductive Cluster.Move (α : Type)
  | join (a : Address)
  | leave (a : Address)
  /-- A listener asks for the views of a node. -/
  | listen (node : Nat) (listener : α)

namespace Cluster.Move

variable {α : Type}

/-- The members after a move, in the order in which they joined. -/
def members : Move α → List Address → List Address
  | join a, ms => if a ∈ ms then ms else ms ++ [a]
  | leave a, ms => ms.filter (· != a)
  | listen _ _, ms => ms

/-- The members after a history, which is told from its end. -/
def roster : List (Move α) → List Address
  | [] => []
  | m :: earlier => m.members (roster earlier)

/-- How often the members have changed since `a` joined for the last time. -/
def changesSince (a : Address) : List (Move α) → Nat
  | [] => 0
  | m :: earlier =>
      if a ∉ roster earlier then 0
      else if m.members (roster earlier) = roster earlier then changesSince a earlier
      else changesSince a earlier + 1

/-- The members change with a join exactly if it is by somebody new. -/
theorem members_join_of_not_mem {a : Address} {ms : List Address} (new : a ∉ ms) :
    (join a : Move α).members ms = ms ++ [a] := by
  simp [members, new]

/-- Members are listed in the order in which they joined: more has changed since the earlier of
two did. -/
theorem pairwise_roster (h : List (Move α)) :
    (roster h).Pairwise fun a b => changesSince b h < changesSince a h := by
  induction h with
  | nil => exact List.Pairwise.nil
  | cons m earlier ih =>
      by_cases same : m.members (roster earlier) = roster earlier
      · simp only [roster, same]
        refine ih.imp_of_mem ?_
        intro a b a_mem b_mem before
        simpa [changesSince, same, a_mem, b_mem] using before
      · -- All who stay have seen one change more.
        have grown : (roster earlier).Pairwise fun a b =>
            changesSince b (m :: earlier) < changesSince a (m :: earlier) := by
          refine ih.imp_of_mem ?_
          intro a b a_mem b_mem before
          simpa [changesSince, same, a_mem, b_mem] using before
        cases m with
        | join a =>
            have new : a ∉ roster earlier := by
              intro known
              exact same (by simp [members, known])
            rw [roster, members_join_of_not_mem new]
            refine List.pairwise_append.mpr ⟨grown, List.pairwise_singleton _ _, ?_⟩
            intro b b_mem c c_mem
            obtain rfl := List.mem_singleton.mp c_mem
            simp [changesSince, new, b_mem, same]
        | leave a => exact grown.filter _
        | listen n l => exact absurd rfl same

/-- No address is a member twice. -/
theorem nodup_roster (h : List (Move α)) : (roster h).Nodup := by
  refine (pairwise_roster h).imp ?_
  rintro a b before rfl
  exact lt_irrefl _ before

end Cluster.Move

/-- A group together with the nodes that have been started on its members, in the order in
which they were. Its callbacks and sinks are the numbers of nodes. -/
structure Cluster (α β : Type) where
  group : Group Nat Nat
  nodes : List (Coordinator α β)

namespace Cluster

variable {α β : Type}

def empty : Cluster α β := ⟨.empty, []⟩

/-- A node after it has been told that the members have changed. -/
def refreshed (g : Group Nat Nat) (k : Coordinator α β) : Coordinator α β :=
  match k.republish? k.view.version g.addresses (g.coordinator? == some k.node) with
  | some (_, k) => k
  | none => k

/-- The callback of a node is called. -/
def tell (c : Cluster α β) (n : Nat) : Cluster α β :=
  { c with nodes := c.nodes.modify n (refreshed c.group) }

/-- Start a node on a member. -/
def start (c : Cluster α β) (a : Address) : Cluster α β where
  group := (c.group.onChange a c.nodes.length).onEvent a c.nodes.length
  nodes := c.nodes ++ [.start a c.group.addresses (c.group.coordinator? == some a)]

/-- What a move comes to. A member that is new gets a node once all callbacks have been
called. -/
def take (c : Cluster α β) : Move α → Cluster α β
  | .join a =>
      let (callbacks, group) := c.group.join a
      let told := callbacks.foldl tell { c with group }
      if c.group.holds a then told else told.start a
  | .leave a =>
      let (callbacks, group) := c.group.leave a
      (callbacks.getD []).foldl tell { c with group }
  | .listen n listener => { c with nodes := c.nodes.modify n (·.listen listener) }

/-- The cluster after a history, which is told from its end. -/
def after : List (Move α) → Cluster α β
  | [] => empty
  | m :: earlier => (after earlier).take m

/-- The node that has been started last at an address. -/
def node? (c : Cluster α β) (a : Address) : Option (Coordinator α β) :=
  (c.nodes.filter fun k => k.node = a).getLast?

/-! ### Telling the nodes -/

theorem node_refreshed (g : Group Nat Nat) (k : Coordinator α β) :
    (refreshed g k).node = k.node := by
  unfold refreshed Coordinator.republish? Coordinator.publish? Coordinator.deliver?
  simp only [if_true, Option.map_some]
  split_ifs <;> rfl

/-- A node that is told publishes the next view, whether or not it hands it out. -/
theorem view_refreshed (g : Group Nat Nat) (k : Coordinator α β) :
    (refreshed g k).view =
      .compute k.node g.addresses (g.coordinator? == some k.node) (k.view.version + 1) := by
  unfold refreshed Coordinator.republish? Coordinator.publish? Coordinator.deliver?
  simp only [if_true, Option.map_some]
  split_ifs <;> rfl

@[simp] theorem group_foldl_tell (ns : List Nat) (c : Cluster α β) :
    (ns.foldl tell c).group = c.group := by
  induction ns generalizing c with
  | nil => rfl
  | cons n ns ih => rw [List.foldl_cons, ih, tell]

/-- Nodes that are told once each publish one view each, and the others none. -/
theorem getElem?_foldl_tell {ns : List Nat} (nodup : ns.Nodup) (c : Cluster α β) (j : Nat) :
    (ns.foldl tell c).nodes[j]? =
      if j ∈ ns then (c.nodes[j]?).map (refreshed c.group) else c.nodes[j]? := by
  induction ns generalizing c with
  | nil => simp
  | cons n ns ih =>
      obtain ⟨once, rest⟩ := List.nodup_cons.mp nodup
      rw [List.foldl_cons, ih rest]
      by_cases here : j = n
      · subst here
        simp [tell, once]
      · simp [tell, here, Ne.symm here]

/-! ### Members that are tended -/

/-- A member is tended: it has one callback, that of the node that was started last at its
address, and this node has published its place among the members. -/
def Tends (c : Cluster α β) (m : Member Nat Nat) (version : Nat) : Prop :=
  ∃ n k, m.callbacks = [n] ∧ c.nodes[n]? = some k ∧ k.node = m.address ∧
    (∀ j l, n < j → c.nodes[j]? = some l → l.node ≠ m.address) ∧
    k.view = .compute m.address c.group.addresses (c.group.coordinator? == some m.address) version

/-- Members at different addresses have different callbacks. -/
theorem nodup_callbacks {c : Cluster α β} {g : Group Nat Nat} (apart : g.addresses.Nodup)
    (each : ∀ m ∈ g.members, m.callbacks = [] ∨ ∃ version, c.Tends m version) :
    g.callbacks.Nodup := by
  refine List.nodup_flatMap.mpr ⟨?_, ?_⟩
  · intro m mem
    rcases each m mem with none | ⟨_, n, _, one, _⟩
    · simp [none]
    · simp [one]
  · refine (List.pairwise_map.mp apart).imp_of_mem ?_
    intro m o m_mem o_mem apart n n_m n_o
    rcases each m m_mem with none | ⟨_, i, k, mine, found, at_m, _⟩
    · simp [none] at n_m
    rcases each o o_mem with none | ⟨_, j, l, other, found', at_o, _⟩
    · simp [none] at n_o
    obtain rfl : n = i := by simpa [mine] using n_m
    obtain rfl : n = j := by simpa [other] using n_o
    rw [found] at found'
    cases found'
    exact apart (at_m.symm.trans at_o)

/-- **A change reaches every member**: after all callbacks of a group have been called, whoever
was tended has published its place in this group, with the next version. -/
theorem Tends.told {c : Cluster α β} {g : Group Nat Nat} {m : Member Nat Nat} {version : Nat}
    (tends : c.Tends m version) (nodup : g.callbacks.Nodup) (mem : m ∈ g.members) :
    (g.callbacks.foldl tell { c with group := g }).Tends m (version + 1) := by
  obtain ⟨n, k, one, found, at_m, last, view⟩ := tends
  have called : n ∈ g.callbacks := List.mem_flatMap.mpr ⟨m, mem, by simp [one]⟩
  refine ⟨n, refreshed g k, one, ?_, ?_, ?_, ?_⟩
  · simp [getElem?_foldl_tell nodup, called, found]
  · rw [node_refreshed, at_m]
  · intro j l later other
    rw [getElem?_foldl_tell nodup] at other
    split_ifs at other with also
    · obtain ⟨l', there, rfl⟩ := Option.map_eq_some_iff.mp other
      rw [node_refreshed]
      exact last j l' later there
    · exact last j l later other
  · rw [view_refreshed, at_m, view, group_foldl_tell]
    rfl

/-! ### A node is started -/

/-- The member that coordinates is the one that comes first. -/
theorem coordinator?_eq_head? (g : Group Nat Nat) : g.coordinator? = g.addresses.head? := by
  simp [Group.coordinator?, Group.addresses]

@[simp] theorem addresses_start (c : Cluster α β) (a : Address) :
    (c.start a).group.addresses = c.group.addresses := by
  simp [start, Group.onChange, Group.onEvent]

@[simp] theorem coordinator?_start (c : Cluster α β) (a : Address) :
    (c.start a).group.coordinator? = c.group.coordinator? := by
  rw [coordinator?_eq_head?, addresses_start, coordinator?_eq_head?]

/-- Only the member at its address gets the callback of a node. -/
theorem mem_members_start {c : Cluster α β} {a : Address} {m : Member Nat Nat}
    (mem : m ∈ (c.start a).group.members) :
    (m.address ≠ a ∧ m ∈ c.group.members) ∨
      m.address = a ∧ ∃ o ∈ c.group.members, o.address = a ∧
        m.callbacks = o.callbacks ++ [c.nodes.length] := by
  simp only [start, Group.onChange, Group.onEvent, Group.modify, List.map_map,
    List.mem_map, Function.comp_apply] at mem
  obtain ⟨o, old, rfl⟩ := mem
  by_cases here : o.address = a
  · refine .inr ⟨?_, o, old, here, ?_⟩ <;> simp [here]
  · refine .inl ⟨?_, ?_⟩ <;> simp [here, old]

/-- A node that is started elsewhere leaves a member as it is. -/
theorem Tends.start {c : Cluster α β} {m : Member Nat Nat} {version : Nat} {a : Address}
    (tends : c.Tends m version) (elsewhere : m.address ≠ a) : (c.start a).Tends m version := by
  obtain ⟨n, k, one, found, at_m, last, view⟩ := tends
  obtain ⟨bound, -⟩ := List.getElem?_eq_some_iff.mp found
  refine ⟨n, k, one, ?_, at_m, ?_, ?_⟩
  · rw [Cluster.start, List.getElem?_append_left bound, found]
  · intro j l later other
    rw [Cluster.start, List.getElem?_append] at other
    split_ifs at other with old
    · exact last j l later other
    · obtain ⟨-, rfl⟩ := List.getElem?_eq_some_iff.mp other
      simpa [Coordinator.start, Coordinator.initial] using elsewhere.symm
  · rw [coordinator?_start, addresses_start, view]

/-- A member without callbacks is tended once a node has been started on it. -/
theorem tends_start {c : Cluster α β} {m : Member Nat Nat} {a : Address} (at_a : m.address = a)
    (first : m.callbacks = [c.nodes.length]) : (c.start a).Tends m 1 := by
  refine ⟨c.nodes.length, .start a c.group.addresses (c.group.coordinator? == some a), first,
    ?_, at_a.symm, ?_, ?_⟩
  · simp [Cluster.start]
  · intro j l later other
    obtain ⟨bound, -⟩ := List.getElem?_eq_some_iff.mp other
    simp [Cluster.start] at bound
    omega
  · rw [coordinator?_start, addresses_start, at_a]
    rfl

/-! ### Histories -/

/-- The members are those of the history, and each is tended, with one version for the start
of its node and one for each change since. -/
structure Follows (c : Cluster α β) (h : List (Move α)) : Prop where
  addresses : c.group.addresses = Move.roster h
  tends : ∀ m ∈ c.group.members, c.Tends m (1 + Move.changesSince m.address h)

/-- A join by a member changes nothing. -/
theorem take_join_of_mem {c : Cluster α β} {a : Address} (known : a ∈ c.group.addresses) :
    c.take (.join a) = c := by
  have holds : c.group.holds a = true := by simpa [Group.holds] using known
  simp [take, Group.join, holds]

/-- A leave by somebody else changes nothing. -/
theorem take_leave_of_not_mem {c : Cluster α β} {a : Address} (absent : a ∉ c.group.addresses) :
    c.take (.leave a) = c := by
  have holds : c.group.holds a = false := by simpa [Group.holds] using absent
  simp [take, Group.leave, holds]

/-- Whoever is new is told of by all others before its node is started. -/
theorem take_join_of_not_mem {c : Cluster α β} {a : Address} (new : a ∉ c.group.addresses) :
    c.take (.join a) = ((c.group.join a).2.callbacks.foldl tell
      { c with group := (c.group.join a).2 }).start a := by
  have holds : c.group.holds a = false := by simpa [Group.holds] using new
  simp [take, Group.join, holds]

theorem take_leave_of_mem {c : Cluster α β} {a : Address} (known : a ∈ c.group.addresses) :
    c.take (.leave a) =
      (c.group.leave a).2.callbacks.foldl tell { c with group := (c.group.leave a).2 } := by
  have holds : c.group.holds a = true := by simpa [Group.holds] using known
  simp [take, Group.leave, holds]

theorem mem_members_join {g : Group Nat Nat} {a : Address} {o : Member Nat Nat}
    (mem : o ∈ (g.join a).2.members) : o ∈ g.members ∨ o.address = a ∧ o.callbacks = [] := by
  unfold Group.join at mem
  split_ifs at mem
  · exact .inl mem
  · rcases List.mem_append.mp mem with old | fresh
    · exact .inl old
    · obtain rfl := List.mem_singleton.mp fresh
      exact .inr ⟨rfl, rfl⟩

theorem mem_members_leave {g : Group Nat Nat} {a : Address} {o : Member Nat Nat}
    (mem : o ∈ (g.leave a).2.members) : o ∈ g.members := by
  unfold Group.leave at mem
  split_ifs at mem
  · exact List.mem_of_mem_filter mem
  · exact mem

/-- Told of members among which it stays, a member has seen one change more. -/
theorem Follows.told {c : Cluster α β} {h : List (Move α)} (follows : c.Follows h) {m : Move α}
    (changed : m.members (Move.roster h) ≠ Move.roster h) {g : Group Nat Nat}
    (each : ∀ o ∈ g.members, o.callbacks = [] ∨ o ∈ c.group.members) (apart : g.addresses.Nodup)
    {o : Member Nat Nat} (old : o ∈ c.group.members) (mem : o ∈ g.members) :
    (g.callbacks.foldl tell { c with group := g }).Tends o
      (1 + Move.changesSince o.address (m :: h)) := by
  have nodup : g.callbacks.Nodup := by
    refine nodup_callbacks (c := c) apart ?_
    intro p p_mem
    rcases each p p_mem with none | stayed
    · exact .inl none
    · exact .inr ⟨_, follows.tends p stayed⟩
  have known : o.address ∈ Move.roster h := by
    rw [← follows.addresses]
    exact List.mem_map_of_mem old
  simpa [Move.changesSince, known, changed, Nat.add_assoc] using
    (follows.tends o old).told nodup mem

/-- A move that changes nobody leaves everybody tended. -/
theorem Follows.unchanged {c d : Cluster α β} {h : List (Move α)} (follows : c.Follows h)
    {m : Move α} (same : m.members (Move.roster h) = Move.roster h) (group : d.group = c.group)
    (tends : ∀ o ∈ c.group.members, ∀ version, c.Tends o version → d.Tends o version) :
    d.Follows (m :: h) := by
  constructor
  · rw [group, follows.addresses, Move.roster, same]
  · intro o mem
    rw [group] at mem
    have known : o.address ∈ Move.roster h := by
      rw [← follows.addresses]
      exact List.mem_map_of_mem mem
    simpa [Move.changesSince, known, same] using tends o mem _ (follows.tends o mem)

/-- A listener changes no view. -/
theorem Tends.listen {c : Cluster α β} {o : Member Nat Nat} {version : Nat}
    (tends : c.Tends o version) (n : Nat) (listener : α) :
    (c.take (.listen n listener)).Tends o version := by
  obtain ⟨i, k, one, found, at_o, last, view⟩ := tends
  refine ⟨i, if n = i then k.listen listener else k, one, ?_, ?_, ?_, ?_⟩
  · simp only [take, List.getElem?_modify, found]
    split_ifs <;> rfl
  · split_ifs <;> exact at_o
  · intro j l later other
    simp only [take, List.getElem?_modify] at other
    obtain ⟨l', there, rfl⟩ := Option.map_eq_some_iff.mp other
    have elsewhere := last j l' later there
    split_ifs <;> exact elsewhere
  · split_ifs <;> exact view

/-- The members have all seen one change more, and the new one has a node. -/
theorem Follows.join {c : Cluster α β} {h : List (Move α)} (follows : c.Follows h) {a : Address}
    (new : a ∉ Move.roster h) : (c.take (.join a)).Follows (.join a :: h) := by
  have absent : a ∉ c.group.addresses := by rwa [follows.addresses]
  have changed : (Move.join a : Move α).members (Move.roster h) ≠ Move.roster h := by
    simp [Move.members, new]
  have addresses : (c.group.join a).2.addresses = Move.roster (.join a :: h) := by
    rw [Group.addresses_join, follows.addresses, Move.roster, Move.members_join_of_not_mem new,
      if_neg (by simpa [Group.holds] using absent)]
  have apart : (c.group.join a).2.addresses.Nodup := addresses ▸ Move.nodup_roster _
  have each : ∀ o ∈ (c.group.join a).2.members, o.callbacks = [] ∨ o ∈ c.group.members := by
    intro o mem
    rcases mem_members_join mem with old | ⟨-, none⟩
    · exact .inr old
    · exact .inl none
  rw [take_join_of_not_mem absent]
  constructor
  · rw [addresses_start, group_foldl_tell, addresses]
  · intro o mem
    rcases mem_members_start mem with ⟨elsewhere, mem⟩ | ⟨at_a, o', mem, at_a', started⟩
    · rw [group_foldl_tell] at mem
      rcases mem_members_join mem with old | ⟨at_a, -⟩
      · exact (follows.told changed each apart old mem).start elsewhere
      · exact absurd at_a elsewhere
    · rw [group_foldl_tell] at mem
      rcases mem_members_join mem with old | ⟨-, none⟩
      · exact absurd (at_a' ▸ List.mem_map_of_mem old) absent
      · have first : Move.changesSince a (.join a :: h) = 0 := by simp [Move.changesSince, new]
        rw [at_a, first]
        exact tends_start at_a (by rw [started, none, List.nil_append])

/-- The members that stay have all seen one change more. -/
theorem Follows.leave {c : Cluster α β} {h : List (Move α)} (follows : c.Follows h) {a : Address}
    (known : a ∈ Move.roster h) : (c.take (.leave a)).Follows (.leave a :: h) := by
  have changed : (Move.leave a : Move α).members (Move.roster h) ≠ Move.roster h := by
    intro same
    have stays : a ∈ (Move.leave a : Move α).members (Move.roster h) := by rwa [same]
    simp [Move.members] at stays
  have addresses : (c.group.leave a).2.addresses = Move.roster (.leave a :: h) := by
    rw [Group.addresses_leave, follows.addresses, Move.roster, Move.members]
  have apart : (c.group.leave a).2.addresses.Nodup := addresses ▸ Move.nodup_roster _
  rw [take_leave_of_mem (by rwa [follows.addresses])]
  constructor
  · rw [group_foldl_tell, addresses]
  · intro o mem
    rw [group_foldl_tell] at mem
    exact follows.told changed (fun _ mem => .inr (mem_members_leave mem)) apart
      (mem_members_leave mem) mem

/-- **Every move keeps the members tended.** -/
theorem Follows.take {c : Cluster α β} {h : List (Move α)} (follows : c.Follows h)
    (m : Move α) : (c.take m).Follows (m :: h) := by
  cases m with
  | join a =>
      by_cases known : a ∈ Move.roster h
      · rw [take_join_of_mem (by rwa [follows.addresses])]
        exact follows.unchanged (by simp [Move.members, known]) rfl fun _ _ _ tends => tends
      · exact follows.join known
  | leave a =>
      by_cases known : a ∈ Move.roster h
      · exact follows.leave known
      · rw [take_leave_of_not_mem (by rwa [follows.addresses])]
        refine follows.unchanged ?_ rfl fun _ _ _ tends => tends
        refine List.filter_eq_self.mpr fun b mem => ?_
        simpa using ne_of_mem_of_not_mem mem known
  | listen n listener =>
      exact follows.unchanged rfl rfl fun _ _ _ tends => tends.listen n listener

theorem follows_after (h : List (Move α)) : (after h : Cluster α β).Follows h := by
  induction h with
  | nil => exact ⟨rfl, by simp [after, empty, Group.empty]⟩
  | cons m earlier ih => exact ih.take m

/-! ### What the views say -/

/-- The node of a member that is tended is the one that was started last at its address. -/
theorem Tends.node? {c : Cluster α β} {m : Member Nat Nat} {version : Nat}
    (tends : c.Tends m version) : ∃ k, c.node? m.address = some k ∧
      k.view = .compute m.address c.group.addresses (c.group.coordinator? == some m.address)
        version := by
  obtain ⟨n, k, -, found, at_m, last, view⟩ := tends
  refine ⟨k, ?_, view⟩
  have later : (c.nodes.drop (n + 1)).filter (fun l => l.node = m.address) = [] := by
    refine List.filter_eq_nil_iff.mpr ?_
    intro l mem
    obtain ⟨j, there⟩ := List.mem_iff_getElem?.mp mem
    rw [List.getElem?_drop] at there
    simpa using last _ l (by omega) there
  rw [Cluster.node?, ← List.take_append_drop (n + 1) c.nodes, List.filter_append, later,
    List.append_nil, List.take_add_one, found, List.filter_append]
  simp [at_m]

/-- A member among the members is at its rank. -/
theorem compute_of_mem {ms : List Address} {a : Address} (nodup : ms.Nodup) (mem : a ∈ ms)
    (isCoordinator : Bool) (version : Nat) :
    View.compute a ms isCoordinator version =
      ⟨isCoordinator, a.ip.render, version, Address.rank ms a, ms.length⟩ := by
  simp [View.compute, View.roster, mem, Address.idxOf?_sorted nodup mem,
    (Address.sorted_perm nodup).length_eq]

/-- **The views agree.** After any history of joins and leaves:

* the group lists its members in the order in which they joined, nobody twice;
* each member has published how many members there are, its own rank among them by address,
  whether it has been there longest, and a version that counts the start of its node and every
  change since;
* a join by a member, and a leave by somebody else, changes nothing at all;
* each identity belongs to exactly one member, as long as there is any. -/
theorem after_views (h : List (Move α)) :
    ((after h : Cluster α β).group.addresses = Move.roster h ∧
      (Move.roster h).Pairwise fun a b => Move.changesSince b h < Move.changesSince a h) ∧
    (∀ a ∈ Move.roster h, ∃ k, (after h : Cluster α β).node? a = some k ∧ k.view =
      ⟨(Move.roster h).head? == some a, a.ip.render, 1 + Move.changesSince a h,
        Address.rank (Move.roster h) a, (Move.roster h).length⟩) ∧
    (∀ a ∈ Move.roster h, (after (.join a :: h) : Cluster α β) = after h) ∧
    (∀ a ∉ Move.roster h, (after (.leave a :: h) : Cluster α β) = after h) ∧
    (Move.roster h ≠ [] → ∀ id : Nat, ∃! a, a ∈ Move.roster h ∧
      ∃ k, (after h : Cluster α β).node? a = some k ∧
        inPartition id k.view.position k.view.size) := by
  have follows : (after h : Cluster α β).Follows h := follows_after h
  have nodup := Move.nodup_roster h
  have views : ∀ a ∈ Move.roster h, ∃ k, (after h : Cluster α β).node? a = some k ∧ k.view =
      ⟨(Move.roster h).head? == some a, a.ip.render, 1 + Move.changesSince a h,
        Address.rank (Move.roster h) a, (Move.roster h).length⟩ := by
    intro a mem
    obtain ⟨m, member, rfl⟩ := List.mem_map.mp (follows.addresses ▸ mem)
    obtain ⟨k, node, view⟩ := (follows.tends m member).node?
    refine ⟨k, node, ?_⟩
    rw [view, coordinator?_eq_head?, follows.addresses, compute_of_mem nodup mem]
  refine ⟨⟨follows.addresses, Move.pairwise_roster h⟩, views, ?_, ?_, ?_⟩
  · intro a known
    exact take_join_of_mem (by rwa [follows.addresses])
  · intro a absent
    exact take_leave_of_not_mem (by rwa [follows.addresses])
  · intro inhabited id
    obtain ⟨a, ⟨mem, holds⟩, unique⟩ := Address.existsUnique_inPartition nodup inhabited id
    obtain ⟨k, node, view⟩ := views a mem
    refine ⟨a, ⟨mem, k, node, by rwa [view]⟩, ?_⟩
    rintro b ⟨b_mem, l, b_node, b_holds⟩
    obtain ⟨l', b_node', b_view⟩ := views b b_mem
    rw [b_node, Option.some_inj] at b_node'
    subst b_node'
    rw [b_view] at b_holds
    exact unique b ⟨b_mem, b_holds⟩

end Cluster

end RecurringWork
