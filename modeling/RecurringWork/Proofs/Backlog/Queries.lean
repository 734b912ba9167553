import Mathlib.Data.List.Lattice
import Mathlib.Data.List.Nodup
import Mathlib.Order.Bounds.Basic
import RecurringWork.Proofs.Backlog.Dates

/-!
# RecurringWork.Proofs.Backlog.Queries

**What is due, and when the next item will be.** A worker asks the backlog two questions:
which items of its share are due (`Backlog.due`), and when to come back
(`Backlog.nextDue`). The two are computed separately, one by sorting and one as a minimum,
and a worker that gets answers that do not fit together sleeps although there is work, or
comes back again and again although there is none.

`Backlog.Consistent` lists what the answers have to do with the stored items, with each
other and with the answers that the other partitions get. Nothing in it depends on the
order in which the items are kept, only on their having identities of their own
(`Backlog.Distinct`). So the items of a backlog are taken here in any order.
-/

namespace RecurringWork

namespace WorkItem

/-- The item waits, and is due from `t` on. -/
def WaitsFor (i : WorkItem) (t : Int) : Prop := i.state = .new ∧ i.scheduleTime = some t

/-- Work that is due earlier comes first, equally due work by identity. -/
def Precedes (i j : WorkItem) : Prop :=
  ∃ s t, i.scheduleTime = some s ∧ j.scheduleTime = some t ∧ (s < t ∨ s = t ∧ i.id < j.id)

theorem isDue_iff {i : WorkItem} {now : Int} : i.isDue now ↔ ∃ t ≤ now, i.WaitsFor t := by
  cases time : i.scheduleTime <;> simp [isDue, WaitsFor, time, and_comm]

theorem Precedes.ne {i j : WorkItem} (h : i.Precedes j) : i ≠ j := by
  rintro rfl
  obtain ⟨s, t, first, second, less⟩ := h
  rw [first] at second
  cases second
  omega

end WorkItem

/-- A partition of a count holds the identities that leave it as remainder; the only
partition there is holds all of them. -/
theorem Share.holds_iff {partition count : Nat} {key : PartitionKey} {i : WorkItem}
    (pos : 1 ≤ count) :
    Share.holds ⟨partition, count, key⟩ i ↔
      key.selects i ∧ (count = 1 ∨ i.id % count = partition) := by
  simp only [Share.holds, inPartition, Bool.and_eq_true, Bool.or_eq_true, decide_eq_true_eq,
    beq_iff_eq]
  have : count ≤ 1 ↔ count = 1 := by omega
  rw [this, and_comm]

namespace Backlog

/-! ### The order of the items that are due -/

theorem comesBefore_iff {i j : WorkItem} :
    comesBefore i j ↔
      i.scheduleTime.getD Instant.minimum < j.scheduleTime.getD Instant.minimum ∨
        i.scheduleTime.getD Instant.minimum = j.scheduleTime.getD Instant.minimum ∧
          i.id ≤ j.id := by
  simp [comesBefore]

theorem comesBefore_trans (i j k : WorkItem) (first : comesBefore i j) (second : comesBefore j k) :
    comesBefore i k := by
  rw [comesBefore_iff] at *
  omega

theorem comesBefore_total (i j : WorkItem) : comesBefore i j || comesBefore j i := by
  rw [Bool.or_eq_true, comesBefore_iff, comesBefore_iff]
  omega

/-- Items that come before each other have the same identity. -/
theorem id_eq_of_comesBefore {i j : WorkItem} (first : comesBefore i j)
    (second : comesBefore j i) : i.id = j.id := by
  rw [comesBefore_iff] at first second
  omega

/-- The stored items have identities of their own. -/
def Distinct (b : Backlog) : Prop := (b.items.map WorkItem.id).Nodup

theorem Ordered.distinct {b : Backlog} (h : b.Ordered) : b.Distinct :=
  List.pairwise_map.mpr (h.imp fun less => Nat.ne_of_lt less)

variable {b c : Backlog} {now : Int} {share : Share} {i j : WorkItem}

theorem Distinct.eq (h : b.Distinct) (i_mem : i ∈ b.items) (j_mem : j ∈ b.items)
    (same : i.id = j.id) : i = j :=
  List.inj_on_of_nodup_map h i_mem j_mem same

/-- Of items with identities of their own there is only one list in order. -/
theorem Distinct.eq_of_perm (h : b.Distinct) {xs ys : List WorkItem}
    (stored : ∀ i ∈ ys, i ∈ b.items) (perm : xs.Perm ys)
    (first : xs.Pairwise fun i j => comesBefore i j)
    (second : ys.Pairwise fun i j => comesBefore i j) : xs = ys := by
  refine perm.eq_of_pairwise (fun i j i_mem j_mem before after => ?_) first second
  exact h.eq (stored i (perm.subset i_mem)) (stored j j_mem) (id_eq_of_comesBefore before after)

/-! ### What is due -/

theorem due_perm_filter (b : Backlog) (now : Int) (share : Share) :
    (b.due now share none).Perm (b.items.filter fun i => i.isDue now && share.holds i) :=
  List.mergeSort_perm _ _

theorem pairwise_due (b : Backlog) (now : Int) (share : Share) :
    (b.due now share none).Pairwise fun i j => comesBefore i j :=
  List.pairwise_mergeSort comesBefore_trans comesBefore_total _

theorem mem_due_iff :
    i ∈ b.due now share none ↔ i ∈ b.items ∧ (∃ t ≤ now, i.WaitsFor t) ∧ share.holds i := by
  rw [(due_perm_filter b now share).mem_iff, List.mem_filter, Bool.and_eq_true,
    WorkItem.isDue_iff]

/-- Two of the items that are due, in the order in which they are answered, have times and
differ in them or in their identities. -/
theorem Distinct.precedes_due (h : b.Distinct) :
    (b.due now share none).Pairwise WorkItem.Precedes := by
  have distinct : (b.due now share none).Pairwise fun i j => i.id ≠ j.id := by
    have sub : (b.items.filter fun i => i.isDue now && share.holds i).Sublist b.items :=
      List.filter_sublist
    have kept := h.sublist (sub.map WorkItem.id)
    exact List.pairwise_map.mp (((due_perm_filter b now share).map WorkItem.id).nodup_iff.mpr kept)
  refine (distinct.and (pairwise_due b now share)).imp_of_mem fun i_mem j_mem both => ?_
  obtain ⟨-, ⟨s, -, -, i_time⟩, -⟩ := mem_due_iff.mp i_mem
  obtain ⟨-, ⟨t, -, -, j_time⟩, -⟩ := mem_due_iff.mp j_mem
  obtain ⟨apart, before⟩ := both
  rw [comesBefore_iff, i_time, j_time, Option.getD_some, Option.getD_some] at before
  exact ⟨s, t, i_time, j_time, by omega⟩

theorem Distinct.nodup_due (h : b.Distinct) : (b.due now share none).Nodup :=
  h.precedes_due.imp WorkItem.Precedes.ne

/-- What is due does not depend on the order in which the items are kept. -/
theorem Distinct.due_of_perm (h : b.Distinct) (perm : c.items.Perm b.items) (now : Int)
    (share : Share) (limit : Option Nat) : c.due now share limit = b.due now share limit := by
  have all : c.due now share none = b.due now share none := by
    refine h.eq_of_perm (fun i mem => (mem_due_iff.mp mem).1) ?_ (pairwise_due c now share)
      (pairwise_due b now share)
    exact (due_perm_filter c now share).trans
      ((perm.filter _).trans (due_perm_filter b now share).symm)
  cases limit with
  | none => exact all
  | some n => exact congrArg (List.take n) all

/-! ### Partitions -/

/-- Several lists of work as one, in the order in which work is taken up. -/
def mergeAll (lists : List (List WorkItem)) : List WorkItem :=
  lists.foldr (fun xs ys => xs.merge ys comesBefore) []

theorem mergeAll_perm (lists : List (List WorkItem)) : (mergeAll lists).Perm lists.flatten := by
  induction lists with
  | nil => exact .refl _
  | cons xs lists ih => exact (List.merge_perm_append comesBefore).trans (ih.append_left xs)

theorem pairwise_mergeAll {lists : List (List WorkItem)}
    (h : ∀ xs ∈ lists, xs.Pairwise fun i j => comesBefore i j) :
    (mergeAll lists).Pairwise fun i j => comesBefore i j := by
  induction lists with
  | nil => exact .nil
  | cons xs lists ih =>
      obtain ⟨first, rest⟩ := List.forall_mem_cons.mp h
      exact List.pairwise_merge comesBefore_trans comesBefore_total _ _ first (ih rest)

/-- No item is due in two partitions. -/
theorem disjoint_due {key : PartitionKey} {count p q : Nat} (p_lt : p < count) (q_lt : q < count)
    (apart : p ≠ q) :
    (b.due now ⟨p, count, key⟩ none).Disjoint (b.due now ⟨q, count, key⟩ none) := by
  intro i here there
  obtain ⟨-, -, p_holds⟩ := mem_due_iff.mp here
  obtain ⟨-, -, q_holds⟩ := mem_due_iff.mp there
  rw [Share.holds_iff (by omega)] at p_holds q_holds
  omega

/-- An item that is due is due in the partition that its identity says, and in no other. -/
theorem mem_due_all_iff {key : PartitionKey} {count : Nat} (pos : 1 ≤ count) :
    i ∈ b.due now ⟨0, 1, key⟩ none ↔ ∃ p < count, i ∈ b.due now ⟨p, count, key⟩ none := by
  simp only [mem_due_iff, Share.holds_iff pos, Share.holds_iff (Nat.le_refl 1), true_or, and_true]
  refine ⟨fun ⟨stored, due, selected⟩ => ?_, fun ⟨_, _, stored, due, selected, _⟩ =>
    ⟨stored, due, selected⟩⟩
  exact ⟨i.id % count, Nat.mod_lt _ pos, stored, due, selected, .inr rfl⟩

/-- What is due in the partitions together is what is due. -/
theorem Distinct.mergeAll_due (h : b.Distinct) (now : Int) (key : PartitionKey) {count : Nat}
    (pos : 1 ≤ count) :
    mergeAll ((List.range count).map fun p => b.due now ⟨p, count, key⟩ none) =
      b.due now ⟨0, 1, key⟩ none := by
  refine h.eq_of_perm (fun i mem => (mem_due_iff.mp mem).1) ?_ (pairwise_mergeAll ?_)
    (pairwise_due b now _)
  · refine (mergeAll_perm _).trans ?_
    rw [← List.flatMap_def]
    refine (List.perm_ext_iff_of_nodup ?_ h.nodup_due).mpr fun i => ?_
    · refine List.nodup_flatMap.mpr ⟨fun _ _ => h.nodup_due, ?_⟩
      refine List.nodup_range.imp_of_mem fun p_mem q_mem apart => ?_
      exact disjoint_due (List.mem_range.mp p_mem) (List.mem_range.mp q_mem) apart
    · simp [mem_due_all_iff pos]
  · intro xs mem
    obtain ⟨p, -, rfl⟩ := List.mem_map.mp mem
    exact pairwise_due b now _

/-! ### When the next item is due -/

theorem earliest_eq_some_iff {ts : List Int} {d : Int} :
    earliest ts = some d ↔ IsLeast {t | t ∈ ts} d := by
  refine ⟨earliest_eq_some_inv, fun least => ?_⟩
  obtain ⟨e, result, le⟩ := earliest_le least.1
  have : e = d := Int.le_antisymm le (least.2 (earliest_eq_some_inv result).1)
  rw [result, this]

/-- The times for which the waiting items of a share wait. -/
def awaited (b : Backlog) (share : Share) : Set Int :=
  {t | ∃ i ∈ b.items, share.holds i ∧ i.WaitsFor t}

/-- The next item of a share is due at the least of the times for which its items wait. -/
theorem nextDue_eq_some_iff {d : Int} : b.nextDue share = some d ↔ IsLeast (b.awaited share) d := by
  have same : {t | t ∈ (b.items.filter fun i => i.state == .new && share.holds i).filterMap
      WorkItem.scheduleTime} = b.awaited share := by
    ext t
    simp only [awaited, WorkItem.WaitsFor, Set.mem_ofPred_eq, List.mem_filterMap, List.mem_filter,
      Bool.and_eq_true, beq_iff_eq]
    grind
  rw [nextDue, earliest_eq_some_iff, same]

theorem nextDue_le_of_mem {t : Int} (h : t ∈ b.awaited share) :
    ∃ d ≤ t, b.nextDue share = some d := by
  obtain ⟨i, stored, holds, new, time⟩ := h
  have mem : i ∈ b.items.filter fun i => i.state == .new && share.holds i :=
    List.mem_filter.mpr ⟨stored, by simp [new, holds]⟩
  obtain ⟨d, next, le⟩ := earliest_le (List.mem_filterMap.mpr ⟨i, mem, time⟩)
  exact ⟨d, le, next⟩

theorem nextDue_eq_none_iff : b.nextDue share = none ↔ b.awaited share = ∅ := by
  refine ⟨fun none => Set.eq_empty_iff_forall_notMem.mpr fun t mem => ?_, fun empty => ?_⟩
  · obtain ⟨d, -, next⟩ := nextDue_le_of_mem mem
    rw [none] at next
    cases next
  · cases next : b.nextDue share with
    | none => rfl
    | some d =>
        have least := (nextDue_eq_some_iff.mp next).1
        rw [empty] at least
        exact absurd least (Set.notMem_empty d)

/-- When the next item is due does not depend on the order in which the items are kept. -/
theorem nextDue_of_perm (perm : c.items.Perm b.items) (share : Share) :
    c.nextDue share = b.nextDue share := by
  have same : c.awaited share = b.awaited share := by
    ext t
    simp only [awaited, perm.mem_iff]
  cases next : b.nextDue share with
  | none => rwa [nextDue_eq_none_iff, same, ← nextDue_eq_none_iff]
  | some d => rwa [nextDue_eq_some_iff, same, ← nextDue_eq_some_iff]

/-! ### Both queries -/

theorem awaited_of_mem_due (mem : i ∈ b.due now share none) :
    ∃ t ≤ now, i.scheduleTime = some t ∧ t ∈ b.awaited share := by
  obtain ⟨stored, ⟨t, le, waits⟩, holds⟩ := mem_due_iff.mp mem
  exact ⟨t, le, waits.2, i, stored, holds, waits⟩

/-- Something is due exactly if the next item is. -/
theorem nextDue_le_iff : (∃ d ≤ now, b.nextDue share = some d) ↔ b.due now share none ≠ [] := by
  constructor
  · rintro ⟨d, le, next⟩
    obtain ⟨i, stored, holds, waits⟩ := (nextDue_eq_some_iff.mp next).1
    exact List.ne_nil_of_mem (mem_due_iff.mpr ⟨stored, ⟨d, le, waits⟩, holds⟩)
  · intro something
    obtain ⟨i, mem⟩ := List.exists_mem_of_ne_nil _ something
    obtain ⟨t, le, -, awaited⟩ := awaited_of_mem_due mem
    obtain ⟨d, earlier, next⟩ := nextDue_le_of_mem awaited
    exact ⟨d, earlier.trans le, next⟩

/-- The item that is worked first is the next item. -/
theorem Distinct.nextDue_eq_of_cons (h : b.Distinct) {rest : List WorkItem}
    (all : b.due now share none = i :: rest) : b.nextDue share = i.scheduleTime := by
  have ascending : (i :: rest).Pairwise WorkItem.Precedes := all ▸ h.precedes_due
  have mem : i ∈ b.due now share none := all ▸ List.mem_cons_self
  obtain ⟨t, le, time, here⟩ := awaited_of_mem_due mem
  rw [time, nextDue_eq_some_iff]
  refine ⟨here, ?_⟩
  rintro u ⟨j, stored, holds, waits⟩
  -- An item that waits for an earlier time would be due itself, and come after the first.
  by_contra earlier
  have due : j ∈ i :: rest := all ▸ mem_due_iff.mpr ⟨stored, ⟨u, by omega, waits⟩, holds⟩
  rcases List.mem_cons.mp due with rfl | later
  · rw [waits.2] at time
    cases time
    omega
  · obtain ⟨s, v, i_time, j_time, less⟩ := List.rel_of_pairwise_cons ascending later
    rw [time] at i_time
    rw [waits.2] at j_time
    cases i_time
    cases j_time
    omega

/-- If nothing is due, every item of the share waits for a time to come. -/
theorem awaited_eq_of_due_eq_nil (nothing : b.due now share none = []) :
    b.awaited share = {t | now < t ∧ t ∈ b.awaited share} := by
  ext t
  refine ⟨fun mem => ⟨?_, mem⟩, fun mem => mem.2⟩
  obtain ⟨i, stored, holds, waits⟩ := mem
  by_contra past
  have due : i ∈ b.due now share none := mem_due_iff.mpr ⟨stored, ⟨t, by omega, waits⟩, holds⟩
  rw [nothing] at due
  cases due

/-- What the two queries answer at `now` when a slice is divided into `count` partitions. -/
structure Consistent (b : Backlog) (now : Int) (key : PartitionKey) (count : Nat) : Prop where
  /-- What is due is exactly what waits for a time that has come. -/
  mem_iff : ∀ (p : Nat) (i : WorkItem), i ∈ b.due now ⟨p, count, key⟩ none ↔
    i ∈ b.items ∧ (∃ t ≤ now, i.WaitsFor t) ∧ key.selects i ∧ (count = 1 ∨ i.id % count = p)
  ascending : ∀ p : Nat, (b.due now ⟨p, count, key⟩ none).Pairwise WorkItem.Precedes
  limited : ∀ p limit : Nat,
    b.due now ⟨p, count, key⟩ (some limit) = (b.due now ⟨p, count, key⟩ none).take limit
  /-- The partitions have nothing in common and leave nothing out. -/
  disjoint : ∀ p < count, ∀ q < count, p ≠ q →
    (b.due now ⟨p, count, key⟩ none).Disjoint (b.due now ⟨q, count, key⟩ none)
  merged : mergeAll ((List.range count).map fun p => b.due now ⟨p, count, key⟩ none) =
    b.due now ⟨0, 1, key⟩ none
  beyond : 2 ≤ count → ∀ p ≥ count, b.due now ⟨p, count, key⟩ none = []
  /-- The next item is due exactly if there are items that are due, and is the first of them. -/
  next_le_iff : ∀ p : Nat,
    (∃ d ≤ now, b.nextDue ⟨p, count, key⟩ = some d) ↔ b.due now ⟨p, count, key⟩ none ≠ []
  next_first : ∀ (p : Nat) (i : WorkItem) (rest : List WorkItem),
    b.due now ⟨p, count, key⟩ none = i :: rest → b.nextDue ⟨p, count, key⟩ = i.scheduleTime
  /-- Otherwise it is the first that will be, if there is one. -/
  next_later : ∀ p : Nat, b.due now ⟨p, count, key⟩ none = [] →
    (∀ d : Int, b.nextDue ⟨p, count, key⟩ = some d ↔
      IsLeast {t | now < t ∧ t ∈ b.awaited ⟨p, count, key⟩} d) ∧
    (b.nextDue ⟨p, count, key⟩ = none ↔ {t | now < t ∧ t ∈ b.awaited ⟨p, count, key⟩} = ∅)
  /-- Nothing of this depends on the order in which the items are kept. -/
  unordered : ∀ c : Backlog, c.items.Perm b.items → ∀ (p : Nat) (limit : Option Nat),
    c.due now ⟨p, count, key⟩ limit = b.due now ⟨p, count, key⟩ limit ∧
      c.nextDue ⟨p, count, key⟩ = b.nextDue ⟨p, count, key⟩

/-- **What is due is found in full and in order, the partitions of a slice share it out among
them, and when the next item is due is in keeping with it**: for all items, at any time, for
every slice and every number of partitions. -/
theorem Distinct.consistent (distinct : b.Distinct) (now : Int) (key : PartitionKey) {count : Nat}
    (pos : 1 ≤ count) : b.Consistent now key count where
  mem_iff p i := by rw [mem_due_iff, Share.holds_iff pos]
  ascending _ := distinct.precedes_due
  limited _ _ := rfl
  disjoint _ p_lt _ q_lt apart := disjoint_due p_lt q_lt apart
  merged := distinct.mergeAll_due now key pos
  beyond := by
    intro more p large
    refine List.eq_nil_iff_forall_not_mem.mpr fun i mem => ?_
    obtain ⟨-, -, holds⟩ := mem_due_iff.mp mem
    rw [Share.holds_iff pos] at holds
    have : i.id % count < count := Nat.mod_lt _ pos
    omega
  next_le_iff _ := nextDue_le_iff
  next_first _ _ _ all := distinct.nextDue_eq_of_cons all
  next_later _ nothing := by
    rw [← awaited_eq_of_due_eq_nil nothing]
    exact ⟨fun _ => nextDue_eq_some_iff, nextDue_eq_none_iff⟩
  unordered _ perm _ _ := ⟨distinct.due_of_perm perm now _ _, nextDue_of_perm perm _⟩

/-- Three messages that are kept in no order. Two of them are due at 5, one in each of two
partitions. -/
theorem consistent_of_messages :
    let message (id : Nat) (t : Int) : WorkItem :=
      { WorkItem.ofKind (.notification "email" .null) with id, scheduleTime := some t }
    let b : Backlog := { empty 5 with items := [message 3 5, message 6 9, message 2 5] }
    b.Distinct ∧ b.Consistent 5 (.channel "email") 2 ∧
      b.nextDue ⟨0, 2, .channel "email"⟩ = some 5 ∧ b.due 5 ⟨0, 2, .channel "email"⟩ none ≠ [] := by
  intro message b
  have distinct : b.Distinct := show [3, 6, 2].Nodup by decide
  have consistent : b.Consistent 5 (.channel "email") 2 := distinct.consistent 5 _ (by decide)
  have next : b.nextDue ⟨0, 2, .channel "email"⟩ = some 5 := by decide
  exact ⟨distinct, consistent, next, (consistent.next_le_iff 0).mp ⟨5, by decide, next⟩⟩

end Backlog

end RecurringWork
