import RecurringWork.Cluster.Dispatcher
import RecurringWork.Cluster.View

/-!
# RecurringWork.Cluster.Coordinator

**The published view of a node.** After every change of the membership a node computes
its view anew and publishes it with the next version. Asking for the members may
itself bring about another publication; the view computed meanwhile is then out of
date and is not published (`Coordinator.publish?`).

Views are handed out in the order of their versions. One that is no longer the published
one by then, or not newer than the last that was handed out, is skipped
(`Coordinator.deliver?`). A view that is being handed out is handed to every listener,
whatever is published meanwhile.
-/

namespace RecurringWork

/-- What a node knows of its cluster and whom it tells: listeners `α` for views and
`β` for events. -/
structure Coordinator (α β : Type) where
  node : Address
  /-- The published view. -/
  view : View
  /-- The last version that was handed to the listeners. -/
  delivered : Nat
  viewListeners : List α
  dispatcher : Dispatcher β
  deriving Repr

namespace Coordinator

/-- A node that has not asked for the members yet. -/
def initial {α β : Type} (node : Address) : Coordinator α β :=
  ⟨node, .initial node, 0, [], .empty⟩

/-- Publish the view that follows version `previous`, if that is still the published
one. -/
def publish? {α β : Type} (c : Coordinator α β) (previous : Nat) (members : List Address)
    (isCoordinator : Bool) : Option (Coordinator α β) :=
  if c.view.version = previous then
    some { c with view := .compute c.node members isCoordinator (previous + 1) }
  else none

/-- The listeners that get a view, unless it is superseded. -/
def deliver? {α β : Type} (c : Coordinator α β) (v : View) : Option (List α × Coordinator α β) :=
  if v.version ≤ c.delivered || v.version < c.view.version then none
  else some (c.viewListeners, { c with delivered := v.version })

/-- Publish the view that follows version `previous`, and hand it to the listeners in the
answer. A view that they must not get is published all the same. -/
def republish? {α β : Type} (c : Coordinator α β) (previous : Nat) (members : List Address)
    (isCoordinator : Bool) : Option (List α × Coordinator α β) :=
  (c.publish? previous members isCoordinator).map fun c => (c.deliver? c.view).getD ([], c)

/-- The node after its first look at the members. -/
def start {α β : Type} (node : Address) (members : List Address) (isCoordinator : Bool) :
    Coordinator α β :=
  { (initial node : Coordinator α β) with
    view := .compute node members isCoordinator 1
    delivered := 1 }

/-- One more listener for views. -/
def listen {α β : Type} (c : Coordinator α β) (listener : α) : Coordinator α β :=
  { c with viewListeners := c.viewListeners ++ [listener] }

/-- The first look is a publication like any other. -/
theorem republish?_initial {α β : Type} (node : Address) (members : List Address)
    (isCoordinator : Bool) :
    ((initial node : Coordinator α β).republish? 0 members isCoordinator).map Prod.snd =
      some (start node members isCoordinator) := by
  simp [republish?, publish?, deliver?, initial, start, View.initial, View.compute]

/-- A published view is one version on. -/
theorem version_publish? {α β : Type} {c d : Coordinator α β} {previous : Nat}
    {members : List Address} {isCoordinator : Bool}
    (h : c.publish? previous members isCoordinator = some d) :
    d.view.version = c.view.version + 1 := by
  unfold publish? at h
  split at h
  · next same => cases h; simp [View.compute, same]
  · cases h

/-- Listeners never get a version they had. -/
theorem delivered_lt_deliver? {α β : Type} {c d : Coordinator α β} {v : View} {ls : List α}
    (h : c.deliver? v = some (ls, d)) : c.delivered < d.delivered ∧ d.delivered = v.version := by
  unfold deliver? at h
  split at h
  · cases h
  · next fresh =>
      cases h
      simp only [Bool.or_eq_true, decide_eq_true_eq, not_or] at fresh
      refine ⟨?_, rfl⟩
      show c.delivered < v.version
      omega

end Coordinator

end RecurringWork
