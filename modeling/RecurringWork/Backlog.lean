import RecurringWork.Recurrence.Cache
import RecurringWork.Work.Key

/-!
# RecurringWork.Backlog

**The store of work items.** A backlog holds at most one item per identity and hands
identities out in ascending order, none twice (`Backlog.nextId`). It also keeps the
plans of the recurrences it has met.

The items are kept in the order of their identities, so that two backlogs with the
same items are equal. `Backlog.get?` is the view through which the rest is stated:

* `get?_put`, `Ordered.get?_filter` — what a change of the container does to the view;
* `Backlog.due`, `Backlog.nextDue` — what is due, in the order in which it is worked,
  and when the next item will be.
-/

namespace RecurringWork

/-- The store of work items. -/
structure Backlog where
  /-- The stored items, by ascending identity. -/
  items : List WorkItem
  /-- The identity of the next item. -/
  nextId : Nat
  plans : PlanCache
  /-- How often an item may be deferred that is added without saying. -/
  maxDeferCount : Nat
  deriving Repr

/-- The item with its successor, if completing it brought one forth. -/
structure Completion where
  item : WorkItem
  next : Option WorkItem
  deriving Repr

namespace Backlog

/-- A backlog without items. -/
def empty (maxDeferCount : Nat) : Backlog := ⟨[], 1, .empty, maxDeferCount⟩

/-- The stored item of an identity. -/
def get? (b : Backlog) (id : Nat) : Option WorkItem := b.items.find? fun i => i.id == id

/-- The number of stored items. -/
def size (b : Backlog) : Nat := b.items.length

/-- Nothing is stored under the identity. -/
def absent (id : Nat) : Error := .notFound "WorkItem" (toString id)

/-- The stored item of an identity, or the refusal that goes with its absence. -/
def stored (b : Backlog) (id : Nat) : Except Error WorkItem :=
  match b.get? id with
  | some i => .ok i
  | none => .error (absent id)

/-- Put an item in its place, instead of the one of its identity. -/
def insertItem (i : WorkItem) : List WorkItem → List WorkItem
  | [] => [i]
  | j :: rest =>
      if i.id < j.id then i :: j :: rest
      else if i.id = j.id then i :: rest
      else j :: insertItem i rest

/-- The backlog with an item stored under its identity. -/
def put (b : Backlog) (i : WorkItem) : Backlog := { b with items := insertItem i b.items }

theorem find?_insertItem (i : WorkItem) (items : List WorkItem) (id : Nat) :
    (insertItem i items).find? (fun j => j.id == id) =
      if i.id = id then some i else items.find? fun j => j.id == id := by
  induction items with
  | nil => by_cases h : i.id = id <;> simp [insertItem, h]
  | cons j rest ih =>
      unfold insertItem
      split
      · by_cases h : i.id = id <;> simp [h]
      · split
        · next same => by_cases h : i.id = id <;> simp [h, ← same]
        · next other =>
            by_cases h : i.id = id
            · have : j.id ≠ id := fun hj => other (h.trans hj.symm)
              simp [ih, h, this]
            · simp [ih, h, List.find?_cons]

/-- Storing an item changes what is stored under its identity and nothing else. -/
theorem get?_put (b : Backlog) (i : WorkItem) (id : Nat) :
    (b.put i).get? id = if i.id = id then some i else b.get? id :=
  find?_insertItem i b.items id

@[simp] theorem get?_put_self (b : Backlog) (i : WorkItem) : (b.put i).get? i.id = some i := by
  simp [get?_put]

/-- What is found is stored under its own identity. -/
theorem id_of_get? {b : Backlog} {id : Nat} {i : WorkItem} (h : b.get? id = some i) :
    i.id = id := by
  have := List.find?_some h
  simpa using this

/-- The refusal tells what is missing. -/
theorem stored_eq_error {b : Backlog} {id : Nat} {e : Error} (h : b.stored id = .error e) :
    b.get? id = none ∧ e = absent id := by
  unfold stored at h
  split at h <;> simp_all

/-! ### Order -/

/-- The items stand in the order of their identities. -/
def Ordered (b : Backlog) : Prop := b.items.Pairwise fun i j => i.id < j.id

theorem ordered_empty (maxDeferCount : Nat) : (empty maxDeferCount).Ordered := List.Pairwise.nil

/-- What is in the list after an item has been put in its place. -/
theorem mem_insertItem {i j : WorkItem} {items : List WorkItem} (h : j ∈ insertItem i items) :
    j = i ∨ j ∈ items := by
  induction items with
  | nil => simpa [insertItem] using h
  | cons k rest ih =>
      unfold insertItem at h
      split at h
      · exact List.mem_cons.mp h
      · split at h
        · rcases List.mem_cons.mp h with h | h
          · exact .inl h
          · exact .inr (List.mem_cons_of_mem _ h)
        · rcases List.mem_cons.mp h with h | h
          · exact .inr (h ▸ List.mem_cons_self)
          · exact (ih h).imp id (List.mem_cons_of_mem _)

theorem pairwise_insertItem (i : WorkItem) {items : List WorkItem}
    (h : items.Pairwise fun j k => j.id < k.id) :
    (insertItem i items).Pairwise fun j k => j.id < k.id := by
  induction items with
  | nil => exact List.pairwise_singleton _ _
  | cons j rest ih =>
      obtain ⟨first, ordered⟩ := List.pairwise_cons.mp h
      unfold insertItem
      split
      · next before =>
          refine List.pairwise_cons.mpr ⟨fun k hk => ?_, h⟩
          rcases List.mem_cons.mp hk with rfl | hk
          · exact before
          · exact Nat.lt_trans before (first k hk)
      · split
        · next same =>
            exact List.pairwise_cons.mpr ⟨fun k hk => same ▸ first k hk, ordered⟩
        · next after other =>
            refine List.pairwise_cons.mpr ⟨fun k hk => ?_, ih ordered⟩
            rcases mem_insertItem hk with rfl | hk
            · omega
            · exact first k hk

theorem Ordered.put {b : Backlog} (h : b.Ordered) (i : WorkItem) : (b.put i).Ordered :=
  pairwise_insertItem i h

theorem find?_of_mem {i : WorkItem} {items : List WorkItem} (stored : i ∈ items)
    (h : items.Pairwise fun j k => j.id < k.id) :
    items.find? (fun j => j.id == i.id) = some i := by
  induction items with
  | nil => cases stored
  | cons j rest ih =>
      obtain ⟨first, ordered⟩ := List.pairwise_cons.mp h
      rcases List.mem_cons.mp stored with rfl | later
      · simp
      · have : j.id ≠ i.id := Nat.ne_of_lt (first i later)
        rw [List.find?_cons_of_neg (by simpa using this)]
        exact ih later ordered

/-- In an ordered backlog a stored item is the one that its identity finds. -/
theorem Ordered.get?_eq_some_iff {b : Backlog} (h : b.Ordered) {id : Nat} {i : WorkItem} :
    b.get? id = some i ↔ i ∈ b.items ∧ i.id = id := by
  refine ⟨fun found => ⟨List.mem_of_find?_eq_some found, id_of_get? found⟩, ?_⟩
  rintro ⟨stored, rfl⟩
  exact find?_of_mem stored h

/-- Leaving items out of an ordered backlog leaves them out of what is found, and brings
nothing else to light. -/
theorem Ordered.get?_filter {b : Backlog} (h : b.Ordered) (keep : WorkItem → Bool) (id : Nat) :
    ({ b with items := b.items.filter keep } : Backlog).get? id = (b.get? id).filter keep := by
  have ordered : ({ b with items := b.items.filter keep } : Backlog).Ordered := h.filter _
  apply Option.ext
  intro i
  rw [ordered.get?_eq_some_iff, Option.filter_eq_some_iff, h.get?_eq_some_iff, List.mem_filter]
  exact and_right_comm

/-! ### What is due -/

/-- Work is taken up by the time at which it is due, equally due work by identity. -/
def comesBefore (i j : WorkItem) : Bool :=
  let a := i.scheduleTime.getD Instant.minimum
  let b := j.scheduleTime.getD Instant.minimum
  a < b || (a == b && i.id ≤ j.id)

/-- The items of a share that are due, at most `limit` of them if there is a limit. -/
def due (b : Backlog) (now : Int) (share : Share) (limit : Option Nat) : List WorkItem :=
  let all := (b.items.filter fun i => i.isDue now && share.holds i).mergeSort comesBefore
  match limit with
  | some n => all.take n
  | none => all

/-- The earlier of two times, if there is one at all. -/
def earlier (a : Option Int) (t : Int) : Option Int :=
  match a with
  | some s => some (min s t)
  | none => some t

/-- The earliest of some times. -/
def earliest (ts : List Int) : Option Int := ts.foldl earlier none

/-- When the next waiting item of a share is due. -/
def nextDue (b : Backlog) (share : Share) : Option Int :=
  earliest ((b.items.filter fun i => i.state == .new && share.holds i).filterMap
    WorkItem.scheduleTime)

/-- Only waiting items of the share are due. -/
theorem mem_due {b : Backlog} {now : Int} {share : Share} {i : WorkItem}
    (h : i ∈ b.due now share none) : i ∈ b.items ∧ i.isDue now ∧ share.holds i := by
  simpa [due, List.mem_mergeSort, List.mem_filter] using h

end Backlog

end RecurringWork
