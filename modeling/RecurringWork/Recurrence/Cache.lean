import RecurringWork.Recurrence

/-!
# RecurringWork.Recurrence.Cache

**Plans shared by all work of one recurrence.** The cache builds the plan of a
recurrence on first use and numbers the plans in the order in which they were built,
so that two answers are the same plan exactly if they carry the same number. A
recurrence that cannot be built leaves no trace. Emptying the cache forgets the plans
but not the count.
-/

namespace RecurringWork

/-- A plan with its number. -/
structure CachedPlan where
  number : Nat
  plan : Plan
  deriving DecidableEq, Repr

/-- The plans built so far, by recurrence. -/
structure PlanCache where
  plans : List (Recurrence × CachedPlan)
  /-- The number of the next plan to be built. -/
  built : Nat
  deriving DecidableEq, Repr

namespace PlanCache

def empty : PlanCache := ⟨[], 0⟩

def find? (c : PlanCache) (r : Recurrence) : Option CachedPlan :=
  (c.plans.find? fun p => p.1 == r).map Prod.snd

/-- The plan of a recurrence, kept or built, and the cache that keeps it. -/
def resolve (c : PlanCache) (r : Recurrence) : Except Error (CachedPlan × PlanCache) :=
  match c.find? r with
  | some p => .ok (p, c)
  | none =>
      r.build.map fun plan =>
        (⟨c.built, plan⟩, ⟨c.plans ++ [(r, ⟨c.built, plan⟩)], c.built + 1⟩)

def size (c : PlanCache) : Nat := c.plans.length

def isEmpty (c : PlanCache) : Bool := c.plans.isEmpty

/-- Forget every plan. -/
def clear (c : PlanCache) : PlanCache := { c with plans := [] }

/-- A recurrence that is kept is not built again. -/
theorem resolve_of_find? {c : PlanCache} {r : Recurrence} {p : CachedPlan}
    (h : c.find? r = some p) : c.resolve r = .ok (p, c) := by
  simp [resolve, h]

/-- A recurrence that cannot be built is not kept. -/
theorem resolve_eq_error {c : PlanCache} {r : Recurrence} {e : Error}
    (h : c.resolve r = .error e) : r.build = .error e := by
  unfold resolve at h
  split at h
  · cases h
  · cases hb : r.build with
    | error e' => simp [hb, Except.map] at h; rw [h]
    | ok p => simp [hb, Except.map] at h

end PlanCache

end RecurringWork
