import RecurringWork.Time

/-!
# RecurringWork.Dispatch.WakeTarget

**When an actor plans to run next**, as far as whoever adds work for it needs to know.
Two values stand apart from all times: `WakeTarget.unplanned`, later than any time,
before the first run; and `WakeTarget.unknown`, earlier than any time, while a run is
in progress and after one that failed. A request for a run moves the target to the
earlier of the two, and is passed on to the actor unless the actor will run by then
anyhow (`WakeTarget.request`).
-/

namespace RecurringWork

/-- The time at which an actor plans to run. -/
structure WakeTarget where
  at_ : Int
  deriving DecidableEq, Repr

namespace WakeTarget

/-- No run is planned. -/
def unplanned : WakeTarget := ⟨Instant.maximum⟩

/-- A run is in progress, or the last one failed. -/
def unknown : WakeTarget := ⟨Instant.minimum⟩

/-- Ask for a run at `t`. The answer says whether the actor has to be woken: it plans
to run later, or its plans are not known. -/
def request (w : WakeTarget) (t : Int) : Bool × WakeTarget :=
  (t < w.at_ || w == unknown, ⟨min w.at_ t⟩)

/-- Nothing makes an unknown target known but the actor itself. -/
theorem request_unknown {t : Int} (h : Instant.minimum ≤ t) :
    unknown.request t = (true, unknown) := by
  simp only [request, unknown, beq_self_eq_true, Bool.or_true, Prod.mk.injEq, mk.injEq, true_and]
  omega

/-- The target after a request is not later than what was requested. -/
theorem at_request_le (w : WakeTarget) (t : Int) : (w.request t).2.at_ ≤ t := by
  simp only [request]; omega

/-- An actor that is not woken plans to run by then. -/
theorem at_le_of_request_eq_false {w : WakeTarget} {t : Int} (h : (w.request t).1 = false) :
    w.at_ ≤ t := by
  simp only [request, Bool.or_eq_false_iff, decide_eq_false_iff_not] at h
  omega

end WakeTarget

end RecurringWork
