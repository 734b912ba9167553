import RecurringWork.Proofs.Cluster.Views

/-!
# RecurringWork.Proofs.Cluster.Crew

**Which nodes take themselves for the coordinator.** A node says in its published view whether it
coordinates its group. The views of members are up to date (`Cluster.Tends`), so of these only the
one that comes first says so. But a member that leaves takes its callbacks with it, and nobody tells
its node of anything from then on (`Cluster.view_of_not_mem_crew`): a node that coordinated the
group when it left says so for ever.

What a history of joins and leaves comes to is again said without any node: who the members are and
which nodes are theirs (`Cluster.Move.crew`), and which nodes coordinated the group when they left it
(`Cluster.Move.relics`). `Cluster.coordinates_iff` puts the two together.
-/

namespace RecurringWork

namespace Cluster.Move

variable {α : Type}

/-- How many nodes have been started, one for each join by somebody new. -/
def started : List (Move α) → Nat
  | [] => 0
  | join a :: earlier => if a ∈ roster earlier then started earlier else started earlier + 1
  | leave _ :: earlier | listen _ _ :: earlier => started earlier

/-- The members after a history, each with the number of its node. -/
def crew : List (Move α) → List (Address × Nat)
  | [] => []
  | join a :: earlier =>
      if a ∈ roster earlier then crew earlier else crew earlier ++ [(a, started earlier)]
  | leave a :: earlier => (crew earlier).filter fun p => p.1 != a
  | listen _ _ :: earlier => crew earlier

/-- The nodes that coordinated the group when they left it, the last one first. -/
def relics : List (Move α) → List Nat
  | [] => []
  | leave a :: earlier =>
      (((crew earlier).head?.filter fun p => p.1 == a).map Prod.snd).toList ++ relics earlier
  | join _ :: earlier | listen _ _ :: earlier => relics earlier

/-- The nodes that take themselves for the coordinator: the one that is, and the relics. -/
def holders (h : List (Move α)) : List Nat := ((crew h).head?.map Prod.snd).toList ++ relics h

/-- The crew is that of the members. -/
theorem map_fst_crew (h : List (Move α)) : (crew h).map Prod.fst = roster h := by
  induction h with
  | nil => rfl
  | cons m earlier ih =>
      cases m with
      | join a =>
          by_cases known : a ∈ roster earlier
          · simp [crew, roster, members, known, ih]
          · simp [crew, roster, members, known, ih]
      | leave a =>
          rw [crew, roster, members, ← ih, List.filter_map]
          rfl
      | listen n l => exact ih

/-- Whoever leaves is taken out of the crew, and may be among the relics from then on. -/
theorem subperm_leave (a : Address) (h : List (Move α)) :
    ((crew (leave a :: h)).map Prod.snd ++ relics (leave a :: h)).Subperm
      ((crew h).map Prod.snd ++ relics h) := by
  simp only [crew, relics]
  cases crew h with
  | nil => exact List.Subperm.refl _
  | cons p rest =>
      have kept : ((rest.filter fun q => q.1 != a).map Prod.snd ++ relics h).Sublist
          (rest.map Prod.snd ++ relics h) :=
        (List.filter_sublist.map _).append_right _
      by_cases first : p.1 = a
      · simp only [List.head?_cons, first, bne_self_eq_false, Bool.false_eq_true, not_false_eq_true,
          List.filter_cons_of_neg, Option.filter_some, beq_self_eq_true, if_true, Option.map_some,
          Option.toList_some, List.map_cons, List.cons_append]
        exact List.perm_middle.subperm.trans (kept.cons_cons _).subperm
      · simp only [List.head?_cons, bne_iff_ne, ne_eq, first, not_false_eq_true,
          List.filter_cons_of_pos, Option.filter_some, beq_iff_eq, if_false, Option.map_none,
          Option.toList_none, List.nil_append, List.map_cons, List.cons_append]
        exact (kept.cons_cons _).subperm

/-- All nodes are different that are in the group or have left it as relics. -/
theorem nodup_numbers (h : List (Move α)) :
    ((crew h).map Prod.snd ++ relics h).Nodup ∧
      ∀ n ∈ (crew h).map Prod.snd ++ relics h, n < started h := by
  induction h with
  | nil => simp [crew, relics]
  | cons m earlier ih =>
      obtain ⟨nodup, lt⟩ := ih
      cases m with
      | join a =>
          by_cases known : a ∈ roster earlier
          · simpa only [crew, relics, started, known, if_true] using ⟨nodup, lt⟩
          · have new : started earlier ∉ (crew earlier).map Prod.snd ++ relics earlier :=
              fun mem => Nat.lt_irrefl _ (lt _ mem)
            have perm : ((crew (join a :: earlier)).map Prod.snd ++ relics (join a :: earlier)).Perm
                (started earlier :: ((crew earlier).map Prod.snd ++ relics earlier)) := by
              simp only [crew, relics, known, if_false, List.map_append, List.append_assoc]
              exact List.perm_middle
            refine ⟨perm.nodup_iff.mpr (List.nodup_cons.mpr ⟨new, nodup⟩), fun n mem => ?_⟩
            simp only [started, known, if_false]
            rcases List.mem_cons.mp (perm.subset mem) with rfl | mem
            · exact Nat.lt_succ_self _
            · exact Nat.lt_succ_of_lt (lt n mem)
      | leave a =>
          have sub := subperm_leave a earlier
          obtain ⟨l, perm, sublist⟩ := id sub
          exact ⟨perm.nodup_iff.mp (nodup.sublist sublist), fun n mem => lt n (sub.subset mem)⟩
      | listen n l => exact ⟨nodup, lt⟩

theorem holders_sublist (h : List (Move α)) :
    (holders h).Sublist ((crew h).map Prod.snd ++ relics h) := by
  refine List.Sublist.append_right ?_ _
  cases crew h with
  | nil => exact List.Sublist.refl _
  | cons p rest => exact (List.nil_sublist _).cons_cons p.2

/-- There is no more than one holder as long as no coordinator has left, and if one has left, only
while nobody else is there. -/
theorem one_holder_iff (h : List (Move α)) :
    (∀ i j, i ∈ holders h → j ∈ holders h → i = j) ↔
      (relics h).length + (if roster h = [] then 0 else 1) ≤ 1 := by
  have nodup : (holders h).Nodup := (nodup_numbers h).1.sublist (holders_sublist h)
  have length : (holders h).length = (relics h).length + (if roster h = [] then 0 else 1) := by
    rw [holders, ← map_fst_crew]
    cases crew h <;> simp [Nat.add_comm]
  rw [← length]
  match shape : holders h with
  | [] => simp
  | [n] => simp
  | i :: j :: rest =>
      rw [shape] at nodup
      have apart : i ≠ j := fun same => (List.nodup_cons.mp nodup).1 (same ▸ List.mem_cons_self)
      simp only [List.length_cons]
      constructor
      · intro same
        exact absurd (same i j (by simp) (by simp)) apart
      · intro short
        omega

theorem inj_crew {h : List (Move α)} {p q : Address × Nat} (first : p ∈ crew h)
    (second : q ∈ crew h) : (p.1 = q.1 → p = q) ∧ (p.2 = q.2 → p = q) := by
  have addresses : ((crew h).map Prod.fst).Nodup := map_fst_crew h ▸ nodup_roster h
  have numbers : ((crew h).map Prod.snd).Nodup := (List.nodup_append.mp (nodup_numbers h).1).1
  exact ⟨List.inj_on_of_nodup_map addresses first second,
    List.inj_on_of_nodup_map numbers first second⟩

/-- A node in the group is a holder if it is that of the member that comes first. -/
theorem mem_holders_of_mem_crew {h : List (Move α)} {p : Address × Nat} (mem : p ∈ crew h) :
    p.2 ∈ holders h ↔ (crew h).head? = some p := by
  have present : p.2 ∉ relics h := fun gone =>
    (List.nodup_append.mp (nodup_numbers h).1).2.2 p.2 (List.mem_map_of_mem mem) p.2 gone rfl
  simp only [holders, List.mem_append, present, or_false, Option.mem_toList, Option.map_eq_some_iff]
  constructor
  · rintro ⟨q, first, same⟩
    rw [first, (inj_crew (List.mem_of_mem_head? first) mem).2 same]
  · exact fun first => ⟨p, first, rfl⟩

/-- A node outside of the group is a holder if it is a relic. -/
theorem mem_holders_of_not_mem_crew {h : List (Move α)} {n : Nat}
    (gone : n ∉ (crew h).map Prod.snd) : n ∈ holders h ↔ n ∈ relics h := by
  simp only [holders, List.mem_append, Option.mem_toList, or_iff_right_iff_imp]
  intro first
  obtain ⟨p, here, rfl⟩ := Option.map_eq_some_iff.mp first
  exact absurd (List.mem_map_of_mem (List.mem_of_mem_head? here)) gone

/-- A node outside of the group stays a holder or stays none. -/
theorem mem_holders_cons {m : Move α} {h : List (Move α)} {n : Nat}
    (gone : n ∉ (crew (m :: h)).map Prod.snd) : n ∈ holders (m :: h) ↔ n ∈ holders h := by
  rw [mem_holders_of_not_mem_crew gone]
  cases m with
  | join a =>
      show n ∈ relics h ↔ _
      refine (mem_holders_of_not_mem_crew fun mem => gone ?_).symm
      unfold crew
      split
      · exact mem
      · rw [List.map_append]
        exact List.mem_append_left _ mem
  | leave a =>
      simp only [relics, holders, List.mem_append, Option.mem_toList]
      refine or_congr_left ?_
      cases first : (crew h).head? with
      | none => rfl
      | some p =>
          -- If the first is still there, it is another one.
          by_cases same : p.1 = a
          · simp only [Option.filter_some, same, beq_self_eq_true, if_true]
          · have stays : p ∈ crew (leave a :: h) :=
              List.mem_filter.mpr ⟨List.mem_of_mem_head? first, by simpa using same⟩
            have other : p.2 ≠ n := fun e => gone (e ▸ List.mem_map_of_mem stays)
            simp only [Option.filter_some, beq_iff_eq, same, if_false, Option.map_none, reduceCtorEq,
              Option.map_some, Option.some.injEq, other]
  | listen i l => exact (mem_holders_of_not_mem_crew gone).symm

/-- The nodes that have been started last are in the group. -/
theorem lt_started_of_not_mem_crew {m : Move α} {h : List (Move α)} {n : Nat}
    (gone : n ∉ (crew (m :: h)).map Prod.snd) (lt : n < started (m :: h)) : n < started h := by
  cases m with
  | join a =>
      by_cases known : a ∈ roster h
      · simpa [started, known] using lt
      · have other : n ≠ started h := by
          rintro rfl
          exact gone (by simp [crew, known])
        simp only [started, known, if_false] at lt
        omega
  | leave a => exact lt
  | listen i l => exact lt

end Cluster.Move

/-! ### The nodes of a history -/

namespace Group

variable {α β : Type}

/-- The members, each with its callbacks. -/
def roll (g : Group α β) : List (Address × List α) := g.members.map fun m => (m.address, m.callbacks)

theorem callbacks_eq_roll (g : Group α β) : g.callbacks = g.roll.flatMap Prod.snd := by
  simp [callbacks, roll, List.flatMap_map]

theorem addresses_eq_roll (g : Group α β) : g.addresses = g.roll.map Prod.fst := by
  simp [addresses, roll]

theorem roll_join {g : Group α β} {a : Address} (new : a ∉ g.addresses) :
    (g.join a).2.roll = g.roll ++ [(a, [])] := by
  have holds : g.holds a = false := by simpa [Group.holds] using new
  simp [join, holds, roll]

theorem roll_leave (g : Group α β) (a : Address) :
    (g.leave a).2.roll = g.roll.filter fun p => p.1 != a := by
  unfold leave
  split
  · rw [roll, roll, List.filter_map]
    rfl
  · next absent =>
      refine (List.filter_eq_self.mpr fun p mem => ?_).symm
      have here : p.1 ∈ g.addresses := g.addresses_eq_roll ▸ List.mem_map_of_mem mem
      have other : p.1 ≠ a := fun same => absent (by simpa [holds] using same ▸ here)
      simpa using other

end Group

namespace Cluster

variable {α β : Type}

@[simp] theorem length_nodes_foldl_tell (ns : List Nat) (c : Cluster α β) :
    (ns.foldl tell c).nodes.length = c.nodes.length := by
  induction ns generalizing c with
  | nil => rfl
  | cons n ns ih => rw [List.foldl_cons, ih, tell, List.length_modify]

/-- A node that is started leaves its number with the member. -/
theorem roll_start (c : Cluster α β) (a : Address) : (c.start a).group.roll =
    c.group.roll.map fun p => (p.1, if p.1 = a then p.2 ++ [c.nodes.length] else p.2) := by
  simp only [Group.roll, start, Group.onChange, Group.onEvent, Group.modify, List.map_map]
  refine List.map_congr_left fun m _ => ?_
  by_cases here : m.address = a <;> simp [here]

variable (β) in
/-- Every join by somebody new starts a node, and nothing else does. -/
theorem length_nodes_after (h : List (Move α)) :
    (after h : Cluster α β).nodes.length = Move.started h := by
  induction h with
  | nil => rfl
  | cons m earlier ih =>
      have addresses : (after earlier : Cluster α β).group.addresses = Move.roster earlier :=
        (follows_after earlier).addresses
      cases m with
      | join a =>
          by_cases known : a ∈ Move.roster earlier
          · rw [after, take_join_of_mem (addresses ▸ known), ih, Move.started, if_pos known]
          · rw [after, take_join_of_not_mem (addresses ▸ known), Move.started, if_neg known, ← ih]
            simp [start]
      | leave a => simp [after, take, Move.started, ih]
      | listen n l => simp [after, take, Move.started, ih]

/-- **Each member has the callback of its node and no other.** -/
theorem roll_after (h : List (Move α)) :
    (after h : Cluster α β).group.roll = (Move.crew h).map fun p => (p.1, [p.2]) := by
  induction h with
  | nil => rfl
  | cons m earlier ih =>
      have addresses : (after earlier : Cluster α β).group.addresses = Move.roster earlier :=
        (follows_after earlier).addresses
      cases m with
      | join a =>
          by_cases known : a ∈ Move.roster earlier
          · rw [after, take_join_of_mem (addresses ▸ known), ih, Move.crew, if_pos known]
          · have absent : a ∉ (after earlier : Cluster α β).group.addresses := addresses ▸ known
            have others : ∀ p ∈ Move.crew earlier, p.1 ≠ a := by
              rintro p mem rfl
              exact known (Move.map_fst_crew earlier ▸ List.mem_map_of_mem mem)
            rw [after, take_join_of_not_mem absent, roll_start, group_foldl_tell,
              Group.roll_join absent, ih, Move.crew, if_neg known, length_nodes_foldl_tell,
              length_nodes_after, List.map_append, List.map_append, List.map_map]
            congr 1
            · refine List.map_congr_left fun p mem => ?_
              simp [others p mem]
            · simp
      | leave a =>
          rw [after, take, group_foldl_tell, Group.roll_leave, ih, Move.crew, List.filter_map]
          rfl
      | listen n l => exact ih

variable (β) in
/-- The callbacks of a group are the numbers of the nodes of its members. -/
theorem callbacks_after (h : List (Move α)) :
    (after h : Cluster α β).group.callbacks = (Move.crew h).map Prod.snd := by
  rw [Group.callbacks_eq_roll, roll_after, List.flatMap_map]
  exact List.map_eq_flatMap.symm

variable (β) in
/-- **The node of a member says that it coordinates if the member comes first.** -/
theorem coordinates_of_mem_crew {h : List (Move α)} {p : Address × Nat} (mem : p ∈ Move.crew h) :
    ∃ k, (after h : Cluster α β).nodes[p.2]? = some k ∧ k.node = p.1 ∧
      (k.view.isCoordinator = true ↔ (Move.crew h).head? = some p) := by
  let c : Cluster α β := after h
  have follows : c.Follows h := follows_after h
  have enrolled : (p.1, [p.2]) ∈ c.group.roll := by
    rw [roll_after h]
    exact List.mem_map_of_mem mem
  obtain ⟨o, member, same⟩ := List.mem_map.mp enrolled
  obtain ⟨address, callbacks⟩ := Prod.mk.inj same
  obtain ⟨n, k, one, found, at_o, -, view⟩ := follows.tends o member
  obtain rfl : p.2 = n := by simpa [callbacks] using one
  refine ⟨k, found, at_o.trans address, ?_⟩
  have first : k.view.isCoordinator = (c.group.coordinator? == some p.1) := by
    rw [view, address]
    rfl
  rw [first, coordinator?_eq_head?, follows.addresses, ← Move.map_fst_crew, List.head?_map,
    beq_iff_eq, Option.map_eq_some_iff]
  constructor
  · rintro ⟨q, first, same⟩
    rw [first, (Move.inj_crew (List.mem_of_mem_head? first) mem).1 same]
  · exact fun first => ⟨p, first, rfl⟩

variable (β) in
/-- A node outside of the group is not told of anything. -/
theorem view_of_not_mem_crew {m : Move α} {h : List (Move α)} {n : Nat} (old : n < Move.started h)
    (gone : n ∉ (Move.crew (m :: h)).map Prod.snd) :
    ((after (m :: h) : Cluster α β).nodes[n]?).map Coordinator.view =
      ((after h : Cluster α β).nodes[n]?).map Coordinator.view := by
  have addresses : (after h : Cluster α β).group.addresses = Move.roster h :=
    (follows_after h).addresses
  have numbers : ∀ g : List (Move α), ((Move.crew g).map Prod.snd).Nodup := fun g =>
    (List.nodup_append.mp (Move.nodup_numbers g).1).1
  cases m with
  | join a =>
      by_cases known : a ∈ Move.roster h
      · rw [after, take_join_of_mem (addresses ▸ known)]
      · have absent : a ∉ (after h : Cluster α β).group.addresses := addresses ▸ known
        have callbacks : ((after h : Cluster α β).group.join a).2.callbacks =
            (Move.crew h).map Prod.snd := by
          rw [Group.callbacks_eq_roll, Group.roll_join absent, List.flatMap_append,
            ← Group.callbacks_eq_roll, callbacks_after]
          exact List.append_nil _
        have apart : n ∉ (Move.crew h).map Prod.snd := by
          intro mem
          rw [Move.crew, if_neg known, List.map_append] at gone
          exact gone (List.mem_append_left _ mem)
        rw [after, take_join_of_not_mem absent, callbacks, start,
          List.getElem?_append_left (by simpa [length_nodes_after] using old),
          getElem?_foldl_tell (numbers h), if_neg apart]
  | leave a =>
      by_cases known : a ∈ Move.roster h
      · have callbacks : ((after h : Cluster α β).group.leave a).2.callbacks =
            (Move.crew (.leave a :: h)).map Prod.snd := by
          have left := callbacks_after β (.leave a :: h)
          rwa [after, take_leave_of_mem (addresses ▸ known), group_foldl_tell] at left
        rw [after, take_leave_of_mem (addresses ▸ known), callbacks,
          getElem?_foldl_tell (numbers _), if_neg gone]
      · rw [after, take_leave_of_not_mem (addresses ▸ known)]
  | listen i l =>
      simp only [after, take, List.getElem?_modify]
      cases (after h : Cluster α β).nodes[n]? with
      | none => rfl
      | some k => by_cases here : i = n <;> simp [here, Coordinator.listen]

/-- **A node says that it coordinates exactly if it is a holder.** -/
theorem coordinates_iff {h : List (Move α)} {n : Nat} {k : Coordinator α β}
    (found : (after h : Cluster α β).nodes[n]? = some k) :
    k.view.isCoordinator = true ↔ n ∈ Move.holders h := by
  induction h generalizing k with
  | nil => cases found
  | cons m earlier ih =>
      by_cases present : n ∈ (Move.crew (m :: earlier)).map Prod.snd
      · obtain ⟨p, mem, rfl⟩ := List.mem_map.mp present
        obtain ⟨k', found', -, coordinates⟩ := coordinates_of_mem_crew β mem
        rw [found] at found'
        cases found'
        rw [coordinates, Move.mem_holders_of_mem_crew mem]
      · have lt : n < Move.started (m :: earlier) := by
          rw [← length_nodes_after β]
          exact (List.getElem?_eq_some_iff.mp found).1
        have same := view_of_not_mem_crew β (Move.lt_started_of_not_mem_crew present lt) present
        rw [found] at same
        obtain ⟨k', found', view⟩ := Option.map_eq_some_iff.mp same.symm
        rw [Move.mem_holders_cons present, ← ih found', view]

end Cluster

end RecurringWork
