import RecurringWork.Error

/-!
# RecurringWork.Work.State

**The life cycle of a work item.** An item is new until it is processed, given up or
overtaken by its deadline, and then stays as it is. Keeping a state counts as a
change that is always allowed.
-/

namespace RecurringWork

/-- Where a work item is in its life cycle. -/
inductive WorkState
  /-- Waiting to be processed. -/
  | new
  /-- Processed. -/
  | done
  /-- Deferred too often. -/
  | dropped
  /-- Not processed in time. -/
  | deadlineReached
  deriving DecidableEq, Repr, Inhabited

namespace WorkState

def every : List WorkState := [new, done, dropped, deadlineReached]

def name : WorkState → String
  | new => "NEW"
  | done => "DONE"
  | dropped => "DROPPED"
  | deadlineReached => "DEADLINE_REACHED"

def ofName? (s : String) : Option WorkState := every.find? fun w => w.name == s

/-- Nothing more happens to an item in this state. -/
def isTerminal (s : WorkState) : Bool := s != new

/-- The life cycle allows the change. -/
def canBecome (source target : WorkState) : Bool :=
  source == target || (source == new && target.isTerminal)

/-- The refusal of a change. -/
def refusal (source target : WorkState) : Error := .invalidTransition source.name target.name

/-- The state after a change. -/
def become (source target : WorkState) : Except Error WorkState :=
  if source.canBecome target then .ok target else .error (source.refusal target)

@[simp] theorem isTerminal_new : isTerminal new = false := rfl

theorem isTerminal_eq_false_iff {s : WorkState} : s.isTerminal = false ↔ s = new := by
  cases s <;> simp [isTerminal]

theorem ofName?_name (s : WorkState) : ofName? s.name = some s := by cases s <;> decide

/-- Only a new item changes its state. -/
theorem eq_new_of_canBecome {s t : WorkState} (h : s.canBecome t) (ne : s ≠ t) : s = new := by
  simp only [canBecome, Bool.or_eq_true, beq_iff_eq, Bool.and_eq_true] at h
  rcases h with h | h
  · exact absurd h ne
  · exact h.1

end WorkState

end RecurringWork
