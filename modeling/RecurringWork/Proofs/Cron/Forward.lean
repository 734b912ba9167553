import RecurringWork.Proofs.Cron.Totality

/-!
# RecurringWork.Proofs.Cron.Forward

**Cron time moves forward unless clocks are set back.** The search compares what the clocks of a
zone show, and answers with the first instant at which they show the least face that it finds.
While clocks go on, that is the earliest time (`Cron.moves_forward`). Where they are set back two
things go wrong, in the hour that they show again:

* a face that the expression has in that hour was shown before, and the search answers with that
  earlier instant (`Expression.HasFired`);
* times of that hour that are still to come show less than the clocks do now, and if the
  expression has no others, the search passes over them and finds none
  (`Expression.FiresBehind`).

`Cron.moves_back` has an instance of either. That there is no third way rests on
`Zone.Steady.shown_before`: clocks that are set back show only what they showed before.
-/

namespace RecurringWork.Cron

open Zone

/-- The expression fires in a second, by the clocks of a zone. -/
def Expression.firesIn (e : Expression) (z : Zone) (t : Int) : Bool := e.isMatch (z.civilAt t)

/-- Clocks have been set back: before the second `i` the expression fired at a time that they show
then or are to show again. -/
def Expression.HasFired (e : Expression) (z : Zone) (i : Int) : Prop :=
  ∃ u < i, e.firesIn z u = true ∧ z.shown i ≤ z.shown u

/-- Whatever times the expression has are earlier than what the clocks show in the second `i`. -/
def Expression.FiresBehind (e : Expression) (z : Zone) (i : Int) : Prop :=
  ∀ v, e.firesIn z v = true → z.shown v < z.shown i

variable {e : Expression} {z : Zone}

/-- **What the search finds, by the clocks of a zone.** -/
theorem next_zone (ranged : e.Ranged) (steady : z.Steady) {after : Int} (low : 1 ≤ yearAt after)
    (high : yearAt after ≤ 2100) :
    ∃ found, e.next z after = found.elim .never (fun u => .at (u * 1000)) ∧
      (found = none → e.FiresBehind z (secondAfter after)) ∧
      ∀ u, found = some u → e.firesIn z u = true ∧ ¬e.FiresBehind z (secondAfter after) ∧
        (after < u * 1000 ↔ ¬e.HasFired z (secondAfter after)) := by
  obtain ⟨seconds, within⟩ := seconds_ofInstant (Int.le_trans (by decide) low) high
  have year : 0 ≤ (z.civilAt (secondAfter after)).date.year := by
    have first : yearStart 1 ≤ after / 1000 := le_year_iff.mp low
    have day : yearStart 0 + Civil.secondsPerDay ≤ yearStart 1 := by decide
    obtain ⟨near, -⟩ := steady.near (secondAfter after)
    have second : after / 1000 < secondAfter after := Int.lt_succ _
    exact le_year_iff.mpr (by omega)
  obtain ⟨found, least, next⟩ := next_of_within ranged seconds within year
  have bound : (z.civilAt (secondAfter after)).toSeconds = z.shown (secondAfter after) :=
    z.toSeconds_civilAt _
  refine ⟨found, next, ?_, ?_⟩
  · rintro rfl v fires
    exact Int.not_le.mp fun le =>
      least (z.shown v) ⟨fires, z.isSome_instant?_shown v, bound ▸ le⟩
  · rintro u rfl
    obtain ⟨t, denotes, ⟨fires, -, behind⟩, least⟩ := least
    obtain ⟨shows, first⟩ := instant?_eq_some_iff.mp denotes
    rw [Civil.toSeconds_ofSeconds] at shows first
    subst shows
    have behind : z.shown (secondAfter after) ≤ z.shown u := bound ▸ behind
    refine ⟨fires, fun all => absurd (all u fires) (Int.not_lt.mpr behind), ?_⟩
    constructor
    · -- The face found is not behind one from which the clocks were set back, so it was shown too.
      rintro later ⟨v, earlier, fires', le⟩
      have before := least (z.shown v) ⟨fires', z.isSome_instant?_shown v, bound ▸ le⟩
      obtain ⟨w, notLater, same⟩ := steady.shown_before earlier behind before
      have := first w same
      have := secondAfter_le_iff.mpr later
      omega
    · intro unfired
      refine secondAfter_le_iff.mp (Int.not_lt.mp fun back => ?_)
      exact unfired ⟨u, back, fires, behind⟩

/-- The zone of a plan is steady, named or not. -/
theorem steady_of_zone? {name : Option String} (known : Recurrence.zone? name = .ok z) :
    z.Steady := by
  cases name with
  | none =>
      cases known
      exact steady_fixed (by decide)
  | some name =>
      unfold Recurrence.zone? at known
      dsimp only at known
      cases named : Zone.ofName? name with
      | none =>
          rw [named] at known
          cases known
      | some found =>
          rw [named] at known
          cases known
          exact steady_of_ofName named

/-- **A cron plan moves forward unless clocks are set back.** Let it count from some instant of the
years from 1 to 2100. If all of the times that its expression has are shown earlier than the
second after that, it answers as if there were none. Otherwise it answers with one of them, which
is later than that instant unless the expression fired before at a time that clocks show then or
are to show again. So it moves forward if there is a later time and the clocks go on, that is, if
they showed less before that second and show more after it. -/
theorem moves_forward {text : String} (read : Expression.read? text = some e)
    {name : Option String} (known : Recurrence.zone? name = .ok z) {now : Int} {h : History}
    (low : 1 ≤ yearAt (h.countsFrom now)) (high : yearAt (h.countsFrom now) ≤ 2100) :
    ∃ p t, (Recurrence.cron text name).build = .ok p ∧ p.next now h = .ok t ∧
      let after := h.countsFrom now
      let i := secondAfter after
      (e.FiresBehind z i → t = h.fallback now) ∧
      (¬e.FiresBehind z i → (∃ u, t = u * 1000 ∧ e.firesIn z u = true) ∧
        (after < t ↔ ¬e.HasFired z i)) ∧
      ((∀ u < i, z.shown u < z.shown i) → (∀ v > i, z.shown i < z.shown v) →
        (∃ v, after < v * 1000 ∧ e.firesIn z v = true) → after < t) := by
  obtain ⟨found, next, behind, finds⟩ :=
    next_zone (ranged_of_read read) (steady_of_zone? known) low high
  -- What the clocks show goes on past the second, so a later time is not shown behind it.
  have ahead : (∀ v > secondAfter (h.countsFrom now),
        z.shown (secondAfter (h.countsFrom now)) < z.shown v) →
      (∃ v, h.countsFrom now < v * 1000 ∧ e.firesIn z v = true) →
      ¬e.FiresBehind z (secondAfter (h.countsFrom now)) := by
    rintro goesOn ⟨v, later, fires⟩ all
    have lt := all v fires
    rcases Int.lt_or_eq_of_le (secondAfter_le_iff.mpr later) with past | same
    · exact absurd (goesOn v past) (Int.not_lt.mpr (Int.le_of_lt lt))
    · exact absurd (same ▸ lt) (Int.lt_irrefl _)
  cases found with
  | none =>
      refine ⟨_, _, Recurrence.build_cron read known, @Plan.next_cron e z now h none next,
        fun _ => rfl, fun left => absurd (behind rfl) left, fun _ goesOn later => ?_⟩
      exact absurd (behind rfl) (ahead goesOn later)
  | some u =>
      obtain ⟨fires, left, forward⟩ := finds u rfl
      refine ⟨_, _, Recurrence.build_cron read known,
        @Plan.next_cron e z now h (some (u * 1000)) next, fun all => absurd all left,
        fun _ => ⟨⟨u, rfl, fires⟩, forward⟩, fun cameOn _ _ => forward.mpr ?_⟩
      rintro ⟨v, earlier, -, le⟩
      exact absurd (cameOn v earlier) (Int.not_lt.mpr le)

/-- The clocks of New York. -/
def newYork : Zone :=
  .yearly (-5 * 3600) (-4 * 3600) ⟨3, .second, 7 * 3600⟩ ⟨11, .first, 6 * 3600⟩

/-- Half past two in the night. -/
def nightly : Expression :=
  ⟨[0], [30], [2], Field.dayOfMonth.range, Field.month.range, Field.dayOfWeek.range,
    Field.year.range⟩

/-- In the last second before the clocks of New York are set forward, half past two of that night
is left out, and the next night's is answered. -/
theorem moves_forward_of_nightly :
    ∃ p t, (Recurrence.cron "0 30 2 * * *" (some "America/New_York")).build = .ok p ∧
      p.next 0 ⟨some 1710053999000, none, none⟩ = .ok t ∧ 1710053999000 < t := by
  have read : Expression.read? "0 30 2 * * *" = some nightly := by decide
  have known : Recurrence.zone? (some "America/New_York") = .ok newYork := rfl
  obtain ⟨p, t, built, answer, -, finds, -⟩ :=
    @moves_forward nightly newYork _ read _ known 0 ⟨some 1710053999000, none, none⟩
      (by decide) (by decide)
  have left : ¬nightly.FiresBehind newYork 1710054000 := fun all =>
    absurd (all 1710138600 (by decide)) (by decide)
  have unfired : ¬nightly.HasFired newYork 1710054000 := by
    rintro ⟨u, earlier, -, le⟩
    -- No clock is further ahead than in summer, when it is four hours behind.
    have mem := newYork.mem_offsets u
    have summer : newYork.shown 1710054000 = 1710054000 - 4 * 3600 := by decide
    have offsets : newYork.offsets = [-4 * 3600, -5 * 3600] := by decide
    simp only [offsets, List.mem_cons, List.not_mem_nil, or_false] at mem
    rw [summer, shown] at le
    omega
  exact ⟨p, t, built, answer, (finds left).2.mpr unfired⟩

/-- Half past every hour. -/
def halfPast : Expression :=
  ⟨[0], [30], Field.hour.range, Field.dayOfMonth.range, Field.month.range,
    Field.dayOfWeek.range, Field.year.range⟩

/-- Ten past one on the fifth of November 2023. -/
def tenPastOne : Expression := ⟨[0], [10], [1], [5], [11], Field.dayOfWeek.range, [2023]⟩

/-- **In the hour that the clocks of New York show again, a plan goes back, or ends.** At a quarter
past one, the second time, half past one is answered as it was shown the first time. At a quarter
past one, the first time, a plan for ten past one has ended, although that is to be shown
again. -/
theorem moves_back :
    (∃ p, Expression.read? "0 30 * * * *" = some halfPast ∧
      (Recurrence.cron "0 30 * * * *" (some "America/New_York")).build = .ok p ∧
      p.next 0 ⟨some 1699164900000, none, none⟩ = .ok 1699162200000 ∧
      halfPast.firesIn newYork 1699165800 = true) ∧
    ∃ p, Expression.read? "0 10 1 5 11 * 2023" = some tenPastOne ∧
      (Recurrence.cron "0 10 1 5 11 * 2023" (some "America/New_York")).build = .ok p ∧
      p.next 0 ⟨some 1699161300000, none, some 1699161300001⟩ = .ok 1699161300000 ∧
      tenPastOne.firesIn newYork 1699164600 = true :=
  ⟨⟨.cron halfPast newYork, by decide, Recurrence.build_cron (by decide) rfl, rfl, by decide⟩,
    ⟨.cron tenPastOne newYork, by decide, Recurrence.build_cron (by decide) rfl, rfl, by decide⟩⟩

end RecurringWork.Cron
