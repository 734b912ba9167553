import RecurringWork.Work.Item

/-!
# RecurringWork.Work.Key

**Slices of the backlog.** A `PartitionKey` selects items by what they are, and its
name addresses the actor that works the slice. Independently of that, the nodes of a
cluster divide the items of a slice among themselves by identity (`inPartition`).
-/

namespace RecurringWork

/-- What selects a slice of the backlog. -/
inductive PartitionKey
  /-- Every item. -/
  | all
  /-- The items of one kind. -/
  | kind (tag : WorkTag)
  /-- The messages for one delivery channel. -/
  | channel (name : String)
  deriving DecidableEq, Repr

namespace PartitionKey

def name : PartitionKey → String
  | all => "all"
  | kind tag => "kind:" ++ tag.name
  | channel name => "channel:" ++ name

/-- The item belongs to the slice. -/
def selects : PartitionKey → WorkItem → Bool
  | all, _ => true
  | kind tag, i => i.kind.tag == tag
  | channel name, i =>
      match i.kind with
      | .notification c _ => c == name
      | _ => false

end PartitionKey

/-- Identity `id` belongs to `partition` of `count`. A single partition holds
everything, and so does none. -/
def inPartition (id partition count : Nat) : Bool := count ≤ 1 || id % count == partition

/-- A partition of a slice: what one node works of it. -/
structure Share where
  partition : Nat
  count : Nat
  key : PartitionKey
  deriving DecidableEq, Repr

/-- The item belongs to the share. -/
def Share.holds (s : Share) (i : WorkItem) : Bool :=
  inPartition i.id s.partition s.count && s.key.selects i

/-- The partitions of a count above one are disjoint and leave nothing out. -/
theorem inPartition_iff {id partition count : Nat} (h : 1 < count) :
    inPartition id partition count ↔ id % count = partition := by
  simp only [inPartition, Bool.or_eq_true, decide_eq_true_eq, beq_iff_eq]
  omega

end RecurringWork
