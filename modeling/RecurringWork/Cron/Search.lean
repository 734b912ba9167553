import RecurringWork.Cron
import RecurringWork.Zone

/-!
# RecurringWork.Cron.Search

**The next time of an expression.** The search runs over clock faces in the order of
year, month, day, hour, minute and second, from the face that the zone shows one
second after the given instant, and takes the first one that matches and that the
zone shows at all. Times that a forward jump skips are thereby passed over; of a face
shown twice the first showing counts.

`firstFrom` is one level of that search. A level is *bound* while all levels above it
stand at the bound itself, and then begins there; otherwise it begins at its start.
-/

namespace RecurringWork.Cron

/-- Try the values of a level in order, from `bound` on if there is one. The
continuation is told whether the value is the bound. -/
def firstFrom {β : Type} (values : List Nat) (bound : Option Nat)
    (next : Nat → Bool → Option β) : Option β :=
  match bound with
  | none => values.findSome? fun v => next v false
  -- Behind the bound itself the levels below are no longer bound.
  | some b => (values.dropWhile (· < b)).findSome? fun v => next v (v == b)

/-- The bound of a level below one that is bound itself. -/
def boundIf (bound : Bool) (value : Nat) : Option Nat := if bound then some value else none

/-- The first time of day, from `from_`'s if bound, at which the expression fires on
the date and that the zone shows. -/
def Expression.firstTime? (e : Expression) (z : Zone) (date : Date) (from_ : Civil)
    (bound : Bool) : Option Int :=
  firstFrom e.hours (boundIf bound from_.hour) fun h onHour =>
    firstFrom e.minutes (boundIf onHour from_.minute) fun m onMinute =>
      firstFrom e.seconds (boundIf onMinute from_.second) fun s _ =>
        z.instant? ⟨date, h, m, s⟩

/-- The first second, from the face `from_` on, at which the expression fires. -/
def Expression.firstSecond? (e : Expression) (z : Zone) (from_ : Civil) : Option Int :=
  firstFrom e.years (some from_.date.year.toNat) fun y onYear =>
    firstFrom e.months (boundIf onYear from_.date.month) fun m onMonth =>
      firstFrom e.daysOfMonth (boundIf onMonth from_.date.day) fun d onDay =>
        let date : Date := ⟨y, m, d⟩
        if date.isReal && e.daysOfWeek.contains date.weekday then
          e.firstTime? z date from_ onDay
        else none

/-- What a search finds. -/
inductive Occurrence
  /-- The next time. -/
  | at (t : Int)
  /-- The expression has no time left. -/
  | never
  /-- The search would start behind the end of the calendar. -/
  | beyondCalendar
  deriving DecidableEq, Repr

/-- The first time strictly after `after` at which the expression fires. A search that
starts before the year 0 finds nothing. -/
def Expression.next (e : Expression) (z : Zone) (after : Int) : Occurrence :=
  let t := (Timestamp.ofInstant after).seconds
  if Civil.lastSecond ≤ t then .beyondCalendar
  else
    let from_ := z.civilAt (t + 1)
    -- The year that counts is the one the zone shows, not that of universal time.
    if from_.date.year < 0 then .never
    else
      match e.firstSecond? z from_ with
      | some s => .at (s * 1000)
      | none => .never

end RecurringWork.Cron
