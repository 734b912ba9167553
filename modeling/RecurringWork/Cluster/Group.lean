import RecurringWork.Cluster.Address
import RecurringWork.Error

/-!
# RecurringWork.Cluster.Group

**A group of nodes in one place.** Members are kept in the order in which they
joined; the first of them coordinates the group. Each member has callbacks for
changes of the membership and sinks for the events of others. They belong to the
membership: leaving drops them.

A change tells the callbacks of all members, the one that has just joined included.
An event goes to the sinks of the members it does not exclude. A member that cannot
be reached stays a member, but events do not arrive there (`Group.send`).
-/

namespace RecurringWork

/-- A member of a group, with callbacks `α` and sinks `β`. -/
structure Member (α β : Type) where
  address : Address
  reachable : Bool
  callbacks : List α
  sinks : List β
  deriving Repr

/-- The members in the order in which they joined. -/
structure Group (α β : Type) where
  members : List (Member α β)
  deriving Repr

/-- Where an event goes: the sinks that take it, and how many members it was meant for
and did not reach. -/
structure Delivery (β : Type) where
  sinks : List β
  attempted : Nat
  failed : Nat
  deriving Repr

namespace Group

def empty {α β : Type} : Group α β := ⟨[]⟩

def addresses {α β : Type} (g : Group α β) : List Address := g.members.map Member.address

/-- The member that has been there longest. -/
def coordinator? {α β : Type} (g : Group α β) : Option Address :=
  g.members.head?.map Member.address

/-- The address belongs to a member. -/
def holds {α β : Type} (g : Group α β) (a : Address) : Bool := g.addresses.contains a

/-- The callbacks that a change is told to. -/
def callbacks {α β : Type} (g : Group α β) : List α := g.members.flatMap Member.callbacks

/-- The group with one more member, unless it is one already. The answer holds the
callbacks to be told. -/
def join {α β : Type} (g : Group α β) (a : Address) : List α × Group α β :=
  if g.holds a then ([], g)
  else
    let joined : Group α β := ⟨g.members ++ [⟨a, true, [], []⟩]⟩
    (joined.callbacks, joined)

/-- The group without a member. The answer holds the callbacks to be told, and is
nothing if there was no such member. -/
def leave {α β : Type} (g : Group α β) (a : Address) : Option (List α) × Group α β :=
  if g.holds a then
    let rest : Group α β := ⟨g.members.filter fun m => m.address != a⟩
    (some rest.callbacks, rest)
  else (none, g)

/-- Change a member. -/
def modify {α β : Type} (g : Group α β) (a : Address) (f : Member α β → Member α β) : Group α β :=
  ⟨g.members.map fun m => if m.address = a then f m else m⟩

/-- Decide whether events arrive at a member. -/
def setReachable {α β : Type} (g : Group α β) (a : Address) (reachable : Bool) : Group α β :=
  g.modify a fun m => { m with reachable }

/-- A member wants to be told of changes. -/
def onChange {α β : Type} (g : Group α β) (a : Address) (callback : α) : Group α β :=
  g.modify a fun m => { m with callbacks := m.callbacks ++ [callback] }

/-- A member takes events. -/
def onEvent {α β : Type} (g : Group α β) (a : Address) (sink : β) : Group α β :=
  g.modify a fun m => { m with sinks := m.sinks ++ [sink] }

/-- Where an event goes that excludes some addresses. -/
def send {α β : Type} (g : Group α β) (excluded : List Address) : Delivery β :=
  let meant := g.members.filter fun m => !excluded.contains m.address
  let reached := meant.filter Member.reachable
  ⟨reached.flatMap Member.sinks, meant.length, meant.length - reached.length⟩

@[simp] theorem addresses_modify {α β : Type} (g : Group α β) (a : Address)
    (f : Member α β → Member α β) (keeps : ∀ m, (f m).address = m.address) :
    (g.modify a f).addresses = g.addresses := by
  simp only [addresses, modify, List.map_map]
  refine List.map_congr_left fun m _ => ?_
  by_cases h : m.address = a <;> simp [h, keeps]

/-- Joining puts a new member last. -/
theorem addresses_join {α β : Type} (g : Group α β) (a : Address) :
    (g.join a).2.addresses = if g.holds a then g.addresses else g.addresses ++ [a] := by
  unfold join
  split
  · rfl
  · simp [addresses]

/-- Leaving keeps the order of the others. -/
theorem addresses_leave {α β : Type} (g : Group α β) (a : Address) :
    (g.leave a).2.addresses = g.addresses.filter (· != a) := by
  unfold leave
  split
  · simp only [addresses, List.filter_map]
    rfl
  · next absent =>
      refine (List.filter_eq_self.2 fun b hb => ?_).symm
      have : b ≠ a := fun e => absent (by simpa [holds, e] using hb)
      simp [this]

end Group

/-- How sending an event ended. -/
def Delivery.outcome {β : Type} (d : Delivery β) : Except BroadcastError Unit :=
  if 0 < d.failed then .error (.undelivered d.failed d.attempted) else .ok ()

end RecurringWork
