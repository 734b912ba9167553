import RecurringWork.Cron.Reader
import RecurringWork.Cron.Search
import RecurringWork.Error

/-!
# RecurringWork.Recurrence

**When recurring work is due next.** A `Recurrence` describes it in words that can be
stored; a `Plan` is the same in a form that can be asked. `Plan.next` answers from
the clock and from the `History` of the work alone, so the same question has the same
answer.

A plan that has ended hands back the time for which the work was last scheduled,
which no further occurrence can have. `History.isEndedBy` recognises that answer.
-/

namespace RecurringWork

/-- A description of when work recurs. -/
inductive Recurrence
  /-- At the times of a cron expression, in a named zone or in universal time. -/
  | cron (expression : String) (zone : Option String)
  /-- So many milliseconds after the work was last completed, and so many after it
  was first added. -/
  | fixedDelay (delay initialDelay : Nat)
  deriving DecidableEq, Repr

/-- A recurrence that can be asked for times. -/
inductive Plan
  | cron (expression : Cron.Expression) (zone : Zone)
  | fixedDelay (delay initialDelay : Duration)
  deriving DecidableEq, Repr

/-- What is known about earlier executions of a piece of work. -/
structure History where
  /-- When the last execution was due. -/
  lastScheduled : Option Int
  /-- When the last execution started. -/
  lastActual : Option Int
  /-- When the last execution finished. -/
  lastCompletion : Option Int
  deriving DecidableEq, Repr

namespace History

/-- The history of work that never ran. -/
def empty : History := ⟨none, none, none⟩

/-- The work was completed after it was last due. -/
def completedSinceScheduled (h : History) : Bool :=
  match h.lastCompletion, h.lastScheduled with
  | some completed, some scheduled => scheduled < completed
  | _, _ => false

/-- The history after an execution that was due at `t` and took `run` milliseconds. -/
def ranAt (t run : Int) : History := ⟨some t, none, some (Instant.clamp (t + run))⟩

/-- `next` is the answer of a plan that has ended. -/
def isEndedBy (h : History) (next : Int) : Bool := h.lastScheduled == some next

end History

namespace Recurrence

/-- The zone of a name, universal time without one. -/
def zone? : Option String → Except Error Zone
  | none => .ok .utc
  | some name =>
      match Zone.ofName? name with
      | some z => .ok z
      | none => .error (.invalidSchedule ("'" ++ name ++ "' is not a valid IANA timezone"))

/-- The plan of a recurrence. The expression is judged before the zone. -/
def build : Recurrence → Except Error Plan
  | .cron expression zone =>
      match Cron.Expression.read? expression with
      | none =>
          .error (.invalidSchedule ("invalid cron expression '" ++ expression ++ "'"))
      | some e => (zone? zone).map (.cron e)
  | .fixedDelay delay initialDelay =>
      .ok (.fixedDelay (.ofMillis delay) (.ofMillis initialDelay))

theorem build_cron {expression : String} {zone : Option String} {e : Cron.Expression} {z : Zone}
    (read : Cron.Expression.read? expression = some e) (known : zone? zone = .ok z) :
    (cron expression zone).build = .ok (.cron e z) := by
  unfold build
  dsimp only
  rw [read, known]
  rfl

end Recurrence

namespace Plan

/-- The next time of a cron plan after `after`. -/
private def cronNext (e : Cron.Expression) (z : Zone) (after : Int) :
    Except Failure (Option Int) :=
  match e.next z after with
  | .at t => .ok (some t)
  | .never => .ok none
  | .beyondCalendar => .error .fault

/-- When work with this history is due next, asked at `now`.

A cron plan counts from the time for which the work was last scheduled, or from `now`
for work that never was. When the expression has no time left, work that was
completed since then has ended; other work is due at once. A fixed delay counts from
the last completion, and for work that was never completed the initial delay counts
from `now`. -/
def next (p : Plan) (now : Int) (h : History) : Except Failure Int :=
  match p with
  | .cron e z =>
      match h.lastScheduled with
      | none => (cronNext e z now).map (·.getD now)
      | some scheduled =>
          (cronNext e z scheduled).map fun found =>
            match found with
            | some t => t
            | none => if h.completedSinceScheduled then scheduled else now
  | .fixedDelay delay initialDelay =>
      match h.lastCompletion with
      | some completed => .ok (Instant.after completed delay)
      | none => .ok (Instant.after now initialDelay)

/-- What a cron plan answers, whether its expression has a time left or not. -/
theorem next_cron {e : Cron.Expression} {z : Zone} {now : Int} {h : History} {found : Option Int}
    (next : e.next z (h.lastScheduled.getD now) = found.elim .never .at) :
    (Plan.cron e z).next now h =
      .ok (found.getD (if h.completedSinceScheduled then h.lastScheduled.getD now else now)) := by
  unfold Plan.next
  obtain ⟨scheduled, actual, completed⟩ := h
  cases scheduled with
  | none =>
      have unscheduled : (⟨none, actual, completed⟩ : History).completedSinceScheduled = false := by
        cases completed <;> rfl
      cases found <;> simp_all [cronNext, Except.map]
  | some scheduled => cases found <;> simp_all [cronNext, Except.map]

/-- A search that would start behind the end of the calendar breaks off. -/
theorem next_cron_of_beyond {e : Cron.Expression} {z : Zone} {now : Int} {h : History}
    (next : e.next z (h.lastScheduled.getD now) = .beyondCalendar) :
    (Plan.cron e z).next now h = .error .fault := by
  unfold Plan.next
  obtain ⟨scheduled, actual, completed⟩ := h
  cases scheduled <;> simp_all [cronNext, Except.map]

/-- A plan refuses nothing: if it has no answer, it breaks off. -/
theorem eq_fault_of_next {p : Plan} {now : Int} {h : History} {f : Failure}
    (failed : p.next now h = .error f) : f = .fault := by
  unfold Plan.next cronNext at failed
  grind [Except.map]

/-- The times of at most `count` executions in a row from a history on, each taking
`run` milliseconds, and whether the plan ended. -/
def occurrencesFrom (p : Plan) (now run : Int) : Nat → History → Except Failure (List Int × Bool)
  | 0, _ => .ok ([], false)
  | count + 1, h => do
      let t ← p.next now h
      if h.isEndedBy t then pure ([], true)
      else
        let (ts, ended) ← occurrencesFrom p now run count (.ranAt t run)
        pure (t :: ts, ended)

/-- The times of at most `count` executions of work that never ran, and whether the
plan ended. -/
def occurrences (p : Plan) (now run : Int) (count : Nat) : Except Failure (List Int × Bool) :=
  p.occurrencesFrom now run count .empty

end Plan

end RecurringWork
