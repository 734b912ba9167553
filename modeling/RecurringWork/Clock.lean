import RecurringWork.Time

/-!
# RecurringWork.Clock

**Clocks that move when they are told to.** A clock runs `elapsed` milliseconds after
the start of a simulation. A manual clock shows what it was set to and does not heed
the time that passes; a running clock shows a start and whatever has passed since.
Moved past the last instant, either goes on from the first.
-/

namespace RecurringWork

inductive Clock
  /-- Shows this instant. -/
  | manual (now : Int)
  /-- Shows this instant at the start and moves with time. -/
  | running (start : Int)
  deriving DecidableEq, Repr, Inhabited

namespace Clock

/-- What the clock shows when `elapsed` milliseconds have passed. -/
def read (elapsed : Nat) : Clock → Int
  | manual now => now
  | running start => Instant.wrap (start + elapsed)

def set (elapsed : Nat) (t : Int) : Clock → Clock
  | manual _ => manual t
  | running _ => running (t - elapsed)

/-- The clock moved forward by a number of milliseconds. -/
def move (by_ : Int) : Clock → Clock
  | manual now => manual (Instant.wrap (now + by_))
  | running start => running (start + by_)

/-- The clock moved forward by a duration. -/
def advance (d : Duration) (c : Clock) : Clock := c.move d.toMillis

@[simp] theorem read_manual (elapsed : Nat) (t : Int) : (manual t).read elapsed = t := rfl

end Clock

end RecurringWork
