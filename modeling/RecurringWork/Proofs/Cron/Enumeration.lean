import RecurringWork.Proofs.Cron.Search
import RecurringWork.Recurrence

/-!
# RecurringWork.Proofs.Cron.Enumeration

**A cron plan in universal time goes through its times one by one.** The times of an
expression after an instant are the whole seconds after it in which the expression fires;
as years end with 2100, they are a list (`Cron.exists_lists`). The next time is the head of
that list, and what comes after it is the tail (`Cron.next_of_lists`, `Lists.tail`). So the
loop that asks for the next time, and goes on from there as long as the plan has not ended,
walks down the list and ends behind its last element (`Plan.occurrencesFrom_of_lists`).

Work that has no time at all is due once, at the time at which it is asked for
(`Cron.enumeration`).
-/

namespace RecurringWork

namespace Cron

variable {e : Expression}

/-- The times of an expression after an instant, in order. -/
structure Lists (e : Expression) (after : Int) (times : List Int) : Prop where
  increasing : times.Pairwise (· < ·)
  mem_iff : ∀ t, t ∈ times ↔ after < t ∧ ∃ s, t = s * 1000 ∧ e.firesAt s = true

/-- What comes after the first time are the times after that. -/
theorem Lists.tail {after t : Int} {times : List Int} (h : Lists e after (t :: times)) :
    Lists e t times := by
  obtain ⟨first, increasing⟩ := List.pairwise_cons.mp h.increasing
  have earlier := ((h.mem_iff t).mp List.mem_cons_self).1
  refine ⟨increasing, fun u => ⟨fun mem => ?_, fun later => ?_⟩⟩
  · exact ⟨first u mem, ((h.mem_iff u).mp (List.mem_cons_of_mem t mem)).2⟩
  · have mem := (h.mem_iff u).mpr ⟨by omega, later.2⟩
    refine (List.mem_cons.mp mem).resolve_left fun same => ?_
    omega

/-- An expression fires in the years of its field only. -/
theorem year_of_firesAt (ranged : e.Ranged) {s : Int} (fires : e.firesAt s = true) :
    0 ≤ yearAt (s * 1000) ∧ yearAt (s * 1000) ≤ 2100 := by
  have second : s * 1000 / 1000 = s := by omega
  obtain ⟨-, low, year, -⟩ := isMatch_iff.mp fires
  have high : (Civil.ofSeconds s).date.year.toNat ≤ 2100 := (mem_of_sublist ranged.years year).2
  unfold yearAt
  rw [second]
  omega

/-- **The next time is the first of the list.** -/
theorem next_of_lists (ranged : e.Ranged) {after : Int} (low : 0 ≤ yearAt after)
    (high : yearAt after ≤ 2100) {times : List Int} (h : Lists e after times) :
    e.next .utc after = times.head?.elim .never .at := by
  obtain ⟨found, least, next⟩ := next_utc ranged low high
  rw [next]
  cases found with
  | none =>
      cases times with
      | nil => rfl
      | cons t rest =>
          obtain ⟨later, s, rfl, fires⟩ := (h.mem_iff t).mp List.mem_cons_self
          exact absurd ⟨fires, later⟩ (least s)
  | some s =>
      obtain ⟨⟨fires, later⟩, least⟩ := least
      have mem := (h.mem_iff (s * 1000)).mpr ⟨later, s, rfl, fires⟩
      cases times with
      | nil => cases mem
      | cons t rest =>
          obtain ⟨behind, u, rfl, fires'⟩ := (h.mem_iff t).mp List.mem_cons_self
          -- The head is the least of the list, and the second found is the least of all.
          have le := least u ⟨fires', behind⟩
          rcases List.mem_cons.mp mem with same | mem
          · exact congrArg Occurrence.at same
          · have := (List.pairwise_cons.mp h.increasing).1 _ mem
            omega

/-- The first second of the year 2101. -/
def endOfYears : Int := Civil.toSeconds ⟨⟨2101, 1, 1⟩, 0, 0, 0⟩

theorem lt_endOfYears {s : Int} (high : (Civil.ofSeconds s).date.year ≤ 2100) :
    s < endOfYears := by
  have before : (Civil.ofSeconds s).Before ⟨⟨2101, 1, 1⟩, 0, 0, 0⟩ :=
    .date (.year (show (Civil.ofSeconds s).date.year < 2101 by omega))
  have := before.toSeconds_lt (Civil.real_ofSeconds s) ⟨by decide, by decide, by decide, by decide⟩
  rwa [Civil.toSeconds_ofSeconds] at this

/-- **There are finitely many times.** -/
theorem exists_lists (ranged : e.Ranged) (after : Int) : ∃ times, Lists e after times := by
  let start := after / 1000 + 1
  let seconds := (List.range (endOfYears - start).toNat).map fun k : Nat => start + (k : Int)
  refine ⟨(seconds.filter e.firesAt).map (· * 1000), ?_, fun t => ?_⟩
  · rw [List.pairwise_map]
    refine List.Pairwise.imp (R := (· < ·)) (fun lt => by omega) (List.Pairwise.filter _ ?_)
    rw [List.pairwise_map]
    exact List.pairwise_lt_range.imp fun lt => by omega
  · have mem : ∀ s, s ∈ seconds ↔ start ≤ s ∧ s < endOfYears := by
      intro s
      simp only [seconds, List.mem_map, List.mem_range]
      constructor
      · rintro ⟨k, lt, rfl⟩
        omega
      · exact fun h => ⟨(s - start).toNat, by omega, by omega⟩
    simp only [List.mem_map, List.mem_filter, mem]
    constructor
    · rintro ⟨s, ⟨⟨low, -⟩, fires⟩, rfl⟩
      exact ⟨by omega, s, rfl, fires⟩
    · rintro ⟨later, s, rfl, fires⟩
      refine ⟨s, ⟨⟨by omega, lt_endOfYears ?_⟩, fires⟩, rfl⟩
      have := (year_of_firesAt ranged fires).2
      have second : s * 1000 / 1000 = s := by omega
      unfold yearAt at this
      rwa [second] at this

end Cron

namespace Plan

open Cron

variable {e : Expression}

/-- Work that was completed some time after it was due has been completed since. -/
theorem completedSinceScheduled_ranAt {t run : Int} (positive : 1 ≤ run) (high : yearAt t ≤ 2100) :
    (History.ranAt t run).completedSinceScheduled = true := by
  have bounded : t / 1000 < 4133980800 := lt_endOfYears high
  have later : t < Instant.clamp (t + run) := by
    simp only [Instant.clamp, Instant.minimum, Instant.maximum]
    omega
  simpa [History.completedSinceScheduled, History.ranAt] using later

/-- What a cron plan in universal time answers for work that ran. -/
theorem next_ranAt (ranged : e.Ranged) {now t run : Int} (positive : 1 ≤ run)
    (low : 0 ≤ yearAt t) (high : yearAt t ≤ 2100) {times : List Int} (h : Lists e t times) :
    (Plan.cron e .utc).next now (.ranAt t run) = .ok (times.head?.getD t) := by
  have next : e.next .utc ((History.ranAt t run).lastScheduled.getD now) =
      times.head?.elim .never .at := next_of_lists ranged low high h
  rw [next_cron next, completedSinceScheduled_ranAt positive high]
  rfl

/-- **The loop walks down the list of times and ends behind the last.** -/
theorem occurrencesFrom_of_lists (ranged : e.Ranged) (now : Int) {t run : Int}
    (positive : 1 ≤ run) (low : 0 ≤ yearAt t) (high : yearAt t ≤ 2100) {times : List Int}
    (h : Lists e t times) (count : Nat) :
    (Plan.cron e .utc).occurrencesFrom now run count (.ranAt t run) =
      .ok (times.take count, decide (times.length < count)) := by
  induction count generalizing t times with
  | zero => simp [occurrencesFrom]
  | succ count ih =>
      unfold occurrencesFrom
      rw [next_ranAt ranged positive low high h]
      cases times with
      | nil => simp [History.isEndedBy, History.ranAt, bind, Except.bind, pure, Except.pure]
      | cons u rest =>
          obtain ⟨later, s, rfl, fires⟩ := (h.mem_iff u).mp List.mem_cons_self
          obtain ⟨low', high'⟩ := year_of_firesAt ranged fires
          have goesOn : (History.ranAt t run).isEndedBy (s * 1000) = false := by
            simp only [History.isEndedBy, History.ranAt, beq_eq_false_iff_ne, ne_eq,
              Option.some.injEq]
            omega
          have rest := ih low' high' h.tail
          simp [goesOn, rest, bind, Except.bind, pure, Except.pure]

end Plan

namespace Cron

/-- **A cron expression without a zone enumerates its times.** There is a list of the whole
seconds after `now`, in increasing order, in which the expression fires in universal time.
Work that runs on it, completed some time after each occurrence, occurs at these times, one
after the other, and the plan ends behind the last of them. If there is none, it occurs once, at
`now`. -/
theorem enumeration {text : String} {e : Expression} (read : Expression.read? text = some e)
    {now run : Int} (low : 0 ≤ yearAt now) (high : yearAt now ≤ 2100) (positive : 1 ≤ run) :
    ∃ times : List Int, times.Pairwise (· < ·) ∧
      (∀ t, t ∈ times ↔ now < t ∧ ∃ s, t = s * 1000 ∧ e.isMatch (.ofSeconds s) = true) ∧
      ∃ p, (Recurrence.cron text none).build = .ok p ∧
        ∀ count, p.occurrences now run count =
          let recorded := if times = [] then [now] else times
          .ok (recorded.take count, decide (recorded.length < count)) := by
  have ranged := ranged_of_read read
  obtain ⟨times, lists⟩ := exists_lists ranged now
  refine ⟨times, lists.increasing, lists.mem_iff, .cron e .utc, ?_, fun count => ?_⟩
  · simp only [Recurrence.build, read]
    rfl
  · have first : (Plan.cron e .utc).next now .empty = .ok (times.head?.getD now) :=
      Plan.next_cron (next_of_lists ranged low high lists)
    cases count with
    | zero => simp [Plan.occurrences, Plan.occurrencesFrom]
    | succ count =>
        unfold Plan.occurrences Plan.occurrencesFrom
        rw [first]
        cases times with
        | nil =>
            have rest := Plan.occurrencesFrom_of_lists ranged now positive low high lists count
            simp [History.isEndedBy, History.empty, rest, bind, Except.bind, pure, Except.pure]
        | cons t later =>
            obtain ⟨-, s, rfl, fires⟩ := (lists.mem_iff t).mp List.mem_cons_self
            obtain ⟨low', high'⟩ := year_of_firesAt ranged fires
            have rest :=
              Plan.occurrencesFrom_of_lists ranged now positive low' high' lists.tail count
            simp [History.isEndedBy, History.empty, rest, bind, Except.bind, pure, Except.pure]

/-- Midnight of the first day of 2020, on whatever weekday. -/
def newYear : Expression := ⟨[0], [0], [0], [1], [1], [1, 2, 3, 4, 5, 6, 7], [2020]⟩

theorem firesAt_newYear {s : Int} : newYear.firesAt s = true ↔ s = 1577836800 := by
  constructor
  · intro fires
    obtain ⟨-, low, year, month, day, -, hour, minute, second⟩ := isMatch_iff.mp fires
    simp only [newYear, List.mem_singleton] at year month day hour minute second
    have face : Civil.ofSeconds s = ⟨⟨2020, 1, 1⟩, 0, 0, 0⟩ := by
      generalize Civil.ofSeconds s = c at *
      obtain ⟨⟨y, m, d⟩, h, mi, s⟩ := c
      dsimp only at low year month day hour minute second
      simp only [Civil.mk.injEq, Date.mk.injEq]
      exact ⟨⟨by omega, month, day⟩, hour, minute, second⟩
    have seconds := Civil.toSeconds_ofSeconds s
    rw [face] at seconds
    exact seconds.symm
  · rintro rfl
    decide

/-- An expression with a single time has one occurrence before it. -/
theorem enumeration_of_newYear :
    ∃ p, (Recurrence.cron "0 0 0 1 1 * 2020" none).build = .ok p ∧
      p.occurrences 0 1 3 = .ok ([1577836800000], true) := by
  have read : Expression.read? "0 0 0 1 1 * 2020" = some newYear := by decide
  obtain ⟨times, increasing, mem, p, built, occurs⟩ :=
    @enumeration _ _ read 0 1 (by decide) (by decide) (by decide)
  have only : ∀ t, t ∈ times ↔ t = 1577836800000 := by
    intro t
    rw [mem]
    constructor
    · rintro ⟨-, s, rfl, fires⟩
      rw [firesAt_newYear.mp fires]
      rfl
    · rintro rfl
      exact ⟨by decide, 1577836800, rfl, firesAt_newYear.mpr rfl⟩
  have one : times = [1577836800000] := by
    cases times with
    | nil => exact absurd ((only _).mpr rfl) (List.not_mem_nil)
    | cons t rest =>
        obtain ⟨first, -⟩ := List.pairwise_cons.mp increasing
        have head := (only t).mp List.mem_cons_self
        cases rest with
        | nil => rw [head]
        | cons u later =>
            have next := (only u).mp (List.mem_cons_of_mem t List.mem_cons_self)
            have lt := first u List.mem_cons_self
            omega
  refine ⟨p, built, ?_⟩
  rw [occurs 3, one]
  rfl

end Cron

end RecurringWork
