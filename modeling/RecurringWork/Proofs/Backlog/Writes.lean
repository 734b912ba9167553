import Mathlib.Data.List.Perm.Subperm
import RecurringWork.Backlog.Write

/-!
# RecurringWork.Proofs.Backlog.Writes

**What a write can do to an item that is stored.** A write that stores an item for the
first time stores it under an identity that was handed out for it (`Write.fresh`). To
every other identity a write does one of three things: nothing, change an item that is
new, or delete one that has come to its end. `Backlog.Continues` says this of a single
identity, in the transitive form in which it holds of any number of writes.

Writes wait, staged or about to be carried out, while others go ahead. What has to be
true of them meanwhile is that the identities they are going to store are not stored
and are all different (`Backlog.Sound`). `Sound.settle` is the one place where a write is
carried out.
-/

namespace RecurringWork

/-- The identities under which a write stores an item for the first time. -/
def Write.fresh : Write → List Nat
  | .insert i => [i.id]
  | .replace _ successor => (successor.map WorkItem.id).toList
  | .expire _ _ | .purge _ => []

namespace Backlog

/-! ### What is carried out -/

/-- A write is carried out in full or changes nothing: what can be said of the backlog
after every write that is carried out can be said after every write. -/
theorem settle_induction {motive : Backlog → Prop} (b : Backlog) (w : Write) (unchanged : motive b)
    (carried : ∀ c, b.carryOut w = .ok c → motive c) : motive (b.settle w) := by
  unfold settle
  cases result : b.carryOut w with
  | error e => exact unchanged
  | ok c => exact carried c result

/-- The only items that are replaced are those that are new. -/
theorem succeed_inv {b c : Backlog} {current item : WorkItem} {successor : Option WorkItem}
    (h : b.succeed current item successor = .ok c) :
    current.state = .new ∧ c = successor.elim (b.put item) (b.put item).put := by
  unfold succeed at h
  split at h
  · cases h
  · next live =>
      cases become : current.state.become item.state with
      | error e =>
          rw [become] at h
          cases h
      | ok s =>
          rw [become] at h
          refine ⟨WorkState.isTerminal_eq_false_iff.mp (by simpa using live), ?_⟩
          cases h
          cases successor <;> rfl

/-- A replacement that is carried out finds an item that is new. -/
theorem carryOut_replace_inv {b c : Backlog} {i : WorkItem} {successor : Option WorkItem}
    (h : b.carryOut (.replace i successor) = .ok c) :
    ∃ current, b.get? i.id = some current ∧ current.state = .new ∧
      c = successor.elim (b.put i) (b.put i).put := by
  simp only [carryOut, stored] at h
  cases found : b.get? i.id with
  | none =>
      rw [found] at h
      cases h
  | some current =>
      rw [found] at h
      obtain ⟨new, rfl⟩ := succeed_inv h
      exact ⟨current, rfl, new, rfl⟩

/-! ### One identity -/

/-- What may be stored under an identity after `before` was, if no item is stored there
for the first time: nothing stays nothing, and an item that has come to its end stays
as it is until it is deleted. -/
def Continues : Option WorkItem → Option WorkItem → Prop
  | none, after => after = none
  | some i, after => i.state.isTerminal → after = some i ∨ after = none

theorem Continues.refl : ∀ stored : Option WorkItem, Continues stored stored
  | none => rfl
  | some _ => fun _ => .inl rfl

theorem Continues.trans {a b c : Option WorkItem} (first : Continues a b) (second : Continues b c) :
    Continues a c := by
  cases a with
  | none =>
      cases first
      exact second
  | some i =>
      intro ended
      rcases first ended with rfl | rfl
      · exact second ended
      · exact .inr second

/-- An item that is still new may become anything. -/
theorem Continues.of_new {i : WorkItem} (h : i.state = .new) (after : Option WorkItem) :
    Continues (some i) after := by
  intro ended
  rw [h] at ended
  exact absurd ended (by decide)

@[simp] theorem get?_expireItem_of_ne {b : Backlog} {id other : Nat} (h : id ≠ other) (now : Int) :
    (b.expireItem id now).get? other = b.get? other := by
  unfold expireItem
  split
  · next i found =>
      split
      · have : i.id ≠ other := id_of_get? found ▸ h
        rw [get?_put, if_neg this]
      · rfl
  · rfl

theorem continues_expireItem (b : Backlog) (id : Nat) (now : Int) (other : Nat) :
    Continues (b.get? other) ((b.expireItem id now).get? other) := by
  by_cases h : id = other
  · subst h
    unfold expireItem
    split
    · next i found =>
        split
        · next new =>
            rw [found]
            exact Continues.of_new (by simpa using new) _
        · exact Continues.refl _
    · exact Continues.refl _
  · rw [get?_expireItem_of_ne h]
    exact Continues.refl _

theorem continues_purgeItems {b : Backlog} (ordered : b.Ordered) (ids : List Nat) (id : Nat) :
    Continues (b.get? id) ((b.purgeItems ids).get? id) := by
  rw [purgeItems, ordered.get?_filter]
  cases b.get? id with
  | none => rfl
  | some i =>
      intro _
      rw [Option.filter_some]
      split
      · exact .inl rfl
      · exact .inr rfl

theorem continues_replace {b : Backlog} {current item : WorkItem} {successor : Option WorkItem}
    {id : Nat} (stored : b.get? item.id = some current) (new : current.state = .new)
    (old : id ∉ (successor.map WorkItem.id).toList) :
    Continues (b.get? id) ((successor.elim (b.put item) (b.put item).put).get? id) := by
  by_cases same : item.id = id
  · rw [← same, stored]
    exact Continues.of_new new _
  · cases successor with
    | none =>
        rw [Option.elim_none, get?_put, if_neg same]
        exact Continues.refl _
    | some next =>
        -- The successor is stored elsewhere, under an identity of its own.
        have other : next.id ≠ id := fun e => old (by simp [e])
        rw [Option.elim_some, get?_put, if_neg other, get?_put, if_neg same]
        exact Continues.refl _

/-- **A write continues what is stored under every identity that it does not store for
the first time.** -/
theorem continues_settle {b : Backlog} (ordered : b.Ordered) {w : Write} {id : Nat}
    (old : id ∉ w.fresh) : Continues (b.get? id) ((b.settle w).get? id) := by
  refine settle_induction (motive := fun c => Continues (b.get? id) (c.get? id)) b w
    (Continues.refl _) fun c result => ?_
  cases w with
  | insert i =>
      have other : i.id ≠ id := fun e => old (by simp [Write.fresh, e])
      cases result
      rw [get?_put, if_neg other]
      exact Continues.refl _
  | replace i successor =>
      obtain ⟨current, found, new, rfl⟩ := carryOut_replace_inv result
      exact continues_replace found new old
  | expire other now =>
      cases result
      exact continues_expireItem b other now id
  | purge ids =>
      cases result
      exact continues_purgeItems ordered ids id

/-! ### Identities that are spoken for -/

/-- The identities in `reserved` have been handed out, but nothing is stored under them
yet. -/
structure Sound (b : Backlog) (reserved : List Nat) : Prop where
  ordered : b.Ordered
  stored_lt : ∀ {id : Nat} {i : WorkItem}, b.get? id = some i → id < b.nextId
  reserved_lt : ∀ {id : Nat}, id ∈ reserved → id < b.nextId
  reserved_absent : ∀ {id : Nat}, id ∈ reserved → b.get? id = none
  distinct : reserved.Nodup

theorem sound_empty (maxDeferCount : Nat) : (empty maxDeferCount).Sound [] where
  ordered := ordered_empty maxDeferCount
  stored_lt := fun found => by cases found
  reserved_lt := fun h => by cases h
  reserved_absent := fun h => by cases h
  distinct := List.nodup_nil

/-- Nothing is stored under an identity before it is handed out. -/
theorem Sound.get?_of_nextId_le {b : Backlog} {reserved : List Nat} (h : b.Sound reserved)
    {id : Nat} (beyond : b.nextId ≤ id) : b.get? id = none := by
  cases found : b.get? id with
  | none => rfl
  | some i => exact absurd (h.stored_lt found) (Nat.not_lt.mpr beyond)

/-- It does not matter in which order identities are reserved, and one that is given up
is never used. -/
theorem Sound.subperm {b : Backlog} {reserved fewer : List Nat} (h : b.Sound reserved)
    (sub : fewer.Subperm reserved) : b.Sound fewer where
  ordered := h.ordered
  stored_lt := h.stored_lt
  reserved_lt := fun mem => h.reserved_lt (sub.subset mem)
  reserved_absent := fun mem => h.reserved_absent (sub.subset mem)
  distinct := by
    obtain ⟨l, perm, sublist⟩ := sub
    exact perm.nodup_iff.mp (h.distinct.sublist sublist)

theorem Ordered.expireItem {b : Backlog} (h : b.Ordered) (id : Nat) (now : Int) :
    (b.expireItem id now).Ordered := by
  unfold Backlog.expireItem
  split
  · split
    · exact h.put _
    · exact h
  · exact h

theorem Ordered.purgeItems {b : Backlog} (h : b.Ordered) (ids : List Nat) :
    (b.purgeItems ids).Ordered :=
  h.filter _

theorem Ordered.settle {b : Backlog} (h : b.Ordered) (w : Write) : (b.settle w).Ordered := by
  refine settle_induction b w h fun c result => ?_
  cases w with
  | insert i =>
      cases result
      exact h.put i
  | replace i successor =>
      obtain ⟨-, -, -, rfl⟩ := carryOut_replace_inv result
      cases successor with
      | none => exact h.put i
      | some next => exact (h.put i).put next
  | expire id now =>
      cases result
      exact h.expireItem id now
  | purge ids =>
      cases result
      exact h.purgeItems ids

/-- Writes hand out no identities. -/
@[simp] theorem nextId_settle (b : Backlog) (w : Write) : (b.settle w).nextId = b.nextId := by
  refine settle_induction (motive := fun c => c.nextId = b.nextId) b w rfl fun c result => ?_
  cases w with
  | insert i =>
      cases result
      rfl
  | replace i successor =>
      obtain ⟨-, -, -, rfl⟩ := carryOut_replace_inv result
      cases successor <;> rfl
  | expire id now =>
      cases result
      unfold expireItem
      split
      · split <;> rfl
      · rfl
  | purge ids =>
      cases result
      rfl

/-- **A write uses up the identities that were reserved for it and leaves the others
alone.** -/
theorem Sound.settle {b : Backlog} {reserved : List Nat} {w : Write}
    (h : b.Sound (w.fresh ++ reserved)) : (b.settle w).Sound reserved where
  ordered := h.ordered.settle w
  stored_lt := by
    intro id i found
    rw [nextId_settle]
    -- What is stored now was stored before, unless the write has stored it.
    by_cases mine : id ∈ w.fresh
    · exact h.reserved_lt (List.mem_append_left _ mine)
    · have continued := continues_settle h.ordered mine
      cases before : b.get? id with
      | none =>
          rw [before] at continued
          rw [show (b.settle w).get? id = none from continued] at found
          cases found
      | some j => exact h.stored_lt before
  reserved_lt := by
    intro id mem
    rw [nextId_settle]
    exact h.reserved_lt (List.mem_append_right _ mem)
  reserved_absent := by
    intro id mem
    have other : id ∉ w.fresh := fun mine =>
      (List.nodup_append.mp h.distinct).2.2 id mine id mem rfl
    have continued := continues_settle h.ordered other
    rw [h.reserved_absent (List.mem_append_right _ mem)] at continued
    exact continued
  distinct := (List.nodup_append.mp h.distinct).2.1

end Backlog

end RecurringWork
