import RecurringWork.Cluster.Event

/-!
# RecurringWork.Cluster.Dispatcher

**Who hears of an event.** A subscription is for one tag. An event is heard once for
each subscription to one of its tags: tag by tag in the order in which the event
carries them, and within a tag in the order of subscription
(`Dispatcher.audience`). The audience is settled before anybody hears anything, so
what a listener does to the subscriptions is for the next event.
-/

namespace RecurringWork

/-- A listener for the events with a tag. -/
structure Subscription (α : Type) where
  number : Nat
  category : Category
  listener : α
  deriving Repr

/-- The subscriptions of a node. -/
structure Dispatcher (α : Type) where
  subscriptions : List (Subscription α)
  /-- The number of the next subscription. -/
  next : Nat
  deriving Repr

namespace Dispatcher

def empty {α : Type} : Dispatcher α := ⟨[], 0⟩

/-- Subscribe to a tag. The answer is the number of the subscription. -/
def subscribe {α : Type} (d : Dispatcher α) (c : Category) (listener : α) : Nat × Dispatcher α :=
  (d.next, ⟨d.subscriptions ++ [⟨d.next, c, listener⟩], d.next + 1⟩)

/-- Remove a subscription. The answer says whether there was one. -/
def unsubscribe {α : Type} (d : Dispatcher α) (number : Nat) : Bool × Dispatcher α :=
  (d.subscriptions.any fun s => s.number == number,
    { d with subscriptions := d.subscriptions.filter fun s => s.number != number })

/-- The number of subscriptions. -/
def size {α : Type} (d : Dispatcher α) : Nat := d.subscriptions.length

/-- The subscriptions to a tag. -/
def subscribers {α : Type} (d : Dispatcher α) (c : Category) : List (Subscription α) :=
  d.subscriptions.filter fun s => s.category == c

/-- The listeners that hear an event, in order. -/
def audience {α : Type} (d : Dispatcher α) (e : Event) : List α :=
  e.categories.flatMap fun c => (d.subscribers c).map Subscription.listener

/-- Every subscription of an audience is for a tag of the event. -/
theorem mem_audience {α : Type} {d : Dispatcher α} {e : Event} {listener : α} :
    listener ∈ d.audience e ↔
      ∃ s ∈ d.subscriptions, s.category ∈ e.categories ∧ s.listener = listener := by
  simp only [audience, subscribers, List.mem_flatMap, List.mem_map, List.mem_filter, beq_iff_eq]
  constructor
  · rintro ⟨c, hc, s, ⟨hs, rfl⟩, rfl⟩
    exact ⟨s, hs, hc, rfl⟩
  · rintro ⟨s, hs, hc, rfl⟩
    exact ⟨s.category, hc, s, ⟨hs, rfl⟩, rfl⟩

/-- A fresh subscription comes after the others of its tag. -/
theorem subscribers_subscribe {α : Type} (d : Dispatcher α) (c c' : Category) (listener : α) :
    (d.subscribe c listener).2.subscribers c' =
      d.subscribers c' ++ (if c = c' then [⟨d.next, c, listener⟩] else []) := by
  by_cases h : c = c' <;> simp [subscribe, subscribers, List.filter_append, h]

end Dispatcher

end RecurringWork
