import RecurringWork.Proofs.Cron.Enumeration

/-!
# RecurringWork.Proofs.Cron.Totality

**What a cron plan in universal time answers, whatever it is asked.** A search that starts in a
year from 0 on and before the end of the calendar finds the first second that the expression
has, so a plan ends only if there is none (`Cron.next_utc_of_calendar`). Instants outside of the
calendar are moved to its ends, and there the search is of no use:

* at the last second of the calendar and behind it, the search would start one second further on,
  and the plan breaks off;
* before the year 0 the search finds nothing, and work that was completed has ended, although all
  of the times of its expression are still to come.

`Plan.next_eq_least_or_fallback` says so of every clock and every history;
`Plan.ended_early_or_broken_off` has an instance of either.
-/

namespace RecurringWork

namespace History

/-- The instant from which a cron plan counts. -/
def countsFrom (h : History) (now : Int) : Int := h.lastScheduled.getD now

/-- What a cron plan answers when its expression has no time left: that the work has ended, if it
was completed since it was due, and that it is due at once otherwise. -/
def fallback (h : History) (now : Int) : Int :=
  if h.completedSinceScheduled then h.countsFrom now else now

end History

namespace Cron

open Zone

variable {e : Expression} {z : Zone} {after : Int}

/-- The first whole second after an instant, at which the search starts. -/
def secondAfter (ms : Int) : Int := ms / 1000 + 1

theorem secondAfter_le_iff {ms s : Int} : secondAfter ms ≤ s ↔ ms < s * 1000 := by
  unfold secondAfter
  omega

theorem next_of_beyond (high : Civil.lastSecond ≤ after / 1000) :
    e.next z after = .beyondCalendar := by
  have moved : Civil.lastSecond ≤ (Timestamp.ofInstant after).seconds := by
    have order : Civil.firstSecond < Civil.lastSecond := by decide
    unfold Timestamp.ofInstant
    rw [if_neg (by omega)]
    split
    · exact Int.le_refl _
    · exact high
  unfold Expression.next
  dsimp only
  rw [if_pos moved]

/-- Before the year 0 the search finds nothing. -/
theorem next_utc_of_negative (low : secondAfter after < yearStart 0) :
    e.next .utc after = .never := by
  have moved : (Timestamp.ofInstant after).seconds < yearStart 0 - 1 := by
    have early : Civil.firstSecond < yearStart 0 - 1 := by decide
    have late : yearStart 0 < Civil.lastSecond := by decide
    unfold Timestamp.ofInstant secondAfter at *
    rw [if_neg (show ¬(Civil.lastSecond + 1) * 1000 ≤ after by omega)]
    split
    · exact early
    · dsimp only
      omega
  have within : (Timestamp.ofInstant after).seconds < Civil.lastSecond := by
    have late : yearStart 0 < Civil.lastSecond := by decide
    omega
  have year : (Zone.utc.civilAt ((Timestamp.ofInstant after).seconds + 1)).date.year < 0 := by
    refine Int.not_le.mp fun le => ?_
    have := le_year_iff.mp le
    rw [show Zone.utc.offsetAt _ = 0 from rfl] at this
    omega
  unfold Expression.next
  dsimp only
  rw [if_neg (by omega), if_pos year]

/-- From the year 0 on, and before the end of the calendar, it finds the first second that there
is. -/
theorem next_utc_of_calendar (ranged : e.Ranged) (low : yearStart 0 ≤ secondAfter after)
    (high : after / 1000 < Civil.lastSecond) :
    ∃ found, Least (fun s => e.firesAt s = true ∧ after < s * 1000) found ∧
      e.next .utc after = found.elim .never fun s => .at (s * 1000) := by
  have early : Civil.firstSecond < yearStart 0 - 1 := by decide
  have first : Civil.firstSecond ≤ after / 1000 := by
    unfold secondAfter at low
    omega
  exact next_utc_of_within ranged (seconds_ofInstant_of_mem first high) high (le_year_iff.mpr low)

end Cron

namespace Plan

open Cron Zone

variable {e : Expression}

/-- **What a cron plan without a zone answers**, at any time and with any history. It breaks off
if it counts from the last second of the calendar, or from behind it. From then on back to the
year 0 it answers with the first time that the expression has after the instant from which it
counts, and if it ends, there is none. From before the year 0 it answers as if there were none. -/
theorem next_eq_least_or_fallback {text : String} (read : Expression.read? text = some e)
    (now : Int) (h : History) :
    ∃ p, (Recurrence.cron text none).build = .ok p ∧
      let after := h.countsFrom now
      (p.next now h = .error .fault ↔ Civil.lastSecond ≤ after / 1000) ∧
      (secondAfter after < yearStart 0 → p.next now h = .ok (h.fallback now)) ∧
      (yearStart 0 ≤ secondAfter after → after / 1000 < Civil.lastSecond →
        ∃ found, Least (fun s => e.isMatch (.ofSeconds s) = true ∧ after < s * 1000) found ∧
          p.next now h = .ok (found.elim (h.fallback now) (· * 1000))) ∧
      ∀ t, h.lastScheduled = some t → yearStart 0 ≤ secondAfter t → p.next now h = .ok t →
        ∀ s, t < s * 1000 → e.isMatch (.ofSeconds s) = false := by
  have ranged := ranged_of_read read
  have beyond : Civil.lastSecond ≤ h.countsFrom now / 1000 →
      (Plan.cron e .utc).next now h = .error .fault := fun high =>
    next_cron_of_beyond (next_of_beyond high)
  have before : secondAfter (h.countsFrom now) < yearStart 0 →
      (Plan.cron e .utc).next now h = .ok (h.fallback now) := fun low =>
    @next_cron e .utc now h none (next_utc_of_negative low)
  have within : yearStart 0 ≤ secondAfter (h.countsFrom now) →
      h.countsFrom now / 1000 < Civil.lastSecond →
      ∃ found,
        Least (fun s => e.isMatch (.ofSeconds s) = true ∧ h.countsFrom now < s * 1000) found ∧
        (Plan.cron e .utc).next now h = .ok (found.elim (h.fallback now) (· * 1000)) := by
    intro low high
    obtain ⟨found, least, next⟩ := next_utc_of_calendar ranged low high
    refine ⟨found, least, ?_⟩
    cases found with
    | none => exact @next_cron e .utc now h none next
    | some s => exact @next_cron e .utc now h (some (s * 1000)) next
  refine ⟨_, Recurrence.build_cron read rfl, ⟨fun fault => ?_, beyond⟩, before, within, ?_⟩
  · refine Int.not_lt.mp fun high => ?_
    by_cases low : secondAfter (h.countsFrom now) < yearStart 0
    · cases (before low).symm.trans fault
    · obtain ⟨found, -, answer⟩ := within (Int.not_lt.mp low) high
      cases answer.symm.trans fault
  · intro t last low ended s later
    have start : h.countsFrom now = t := by
      unfold History.countsFrom
      rw [last]
      rfl
    rw [start] at beyond within
    by_cases high : t / 1000 < Civil.lastSecond
    · obtain ⟨found, least, answer⟩ := within low high
      cases found with
      | none => exact Bool.eq_false_iff.mpr fun fires => least s ⟨fires, later⟩
      | some u =>
          -- A time that was found is later than the last one.
          cases ended.symm.trans answer
          exact absurd least.1.2 (Int.lt_irrefl _)
    · cases (beyond (Int.not_lt.mp high)).symm.trans ended

/-- Work that was last due in 1970 and is to be done at New Year's Day of 2020. -/
theorem next_of_newYear :
    ∃ p, (Recurrence.cron "0 0 0 1 1 * 2020" none).build = .ok p ∧
      p.next 0 ⟨some 0, none, none⟩ = .ok 1577836800000 := by
  have read : Expression.read? "0 0 0 1 1 * 2020" = some newYear := by decide
  obtain ⟨p, built, -, -, within, -⟩ := next_eq_least_or_fallback read 0 ⟨some 0, none, none⟩
  obtain ⟨found, least, answer⟩ := within (by decide) (by decide)
  refine ⟨p, built, ?_⟩
  cases found with
  | none => exact absurd ⟨firesAt_newYear.mpr rfl, by decide⟩ (least 1577836800)
  | some s => rw [answer, firesAt_newYear.mp least.1.1]; rfl

/-- **A plan that counts from before the year 0 ends early, and one that counts from behind the
calendar breaks off.** All of the times of this expression lie in 2020. -/
theorem ended_early_or_broken_off :
    ∃ p, (Recurrence.cron "0 0 0 1 1 * 2020" none).build = .ok p ∧
      p.next 0 ⟨some (-100000000000000), none, some (-99999999999999)⟩ =
        .ok (-100000000000000) ∧
      newYear.isMatch (.ofSeconds 1577836800) = true ∧
      Expression.read? "0 0 0 1 1 * 2020" = some newYear ∧
      p.next 0 ⟨some Instant.maximum, none, none⟩ = .error .fault :=
  ⟨.cron newYear .utc, Recurrence.build_cron (by decide) rfl, rfl, by decide, by decide, rfl⟩

end Plan

end RecurringWork
