import RecurringWork.Proofs.Backlog.Plans
import RecurringWork.Proofs.Backlog.Succession

/-!
# RecurringWork.Proofs.Backlog.Repetition

**A job with a fixed delay goes on, unless it is completed at the wrong instant.** Such a
job has no end, and completing it outside of any transaction never fails
(`Ledger.Reachable.repeats`). But a plan says that it has ended by giving the time for which
the work was last scheduled, and a fixed delay can give this time without meaning it: the
completion and the delay after it can add up to the very time at which the job was due. Then
there is no next occurrence.

That cannot happen to a job that is completed after the time at which it was due. It happens
to one without any delay that is completed at once (`Ledger.ends_of_completed_at_once`), and to
one that is completed early by exactly its delay.
-/

namespace RecurringWork

/-! ### After a delay -/

namespace Instant

/-- Counting on from an instant ends at the last one. -/
theorem after_ofMillis {now : Int} {delay : Nat} (lowest : minimum ≤ now)
    (short : 0 ≤ now ∨ (delay : Int) ≤ maximum) :
    after now (.ofMillis delay) = min (now + delay) maximum := by
  simp only [after, Duration.toMillis, Duration.wholeMillis_ofMillis, clamp, minimum, maximum]
    at *
  omega

theorem le_after {now : Int} (highest : now ≤ maximum) (d : Duration) : now ≤ after now d := by
  have : 0 ≤ d.toMillis := by simp only [Duration.toMillis, maximum]; omega
  simp only [after, clamp, minimum, maximum] at *
  omega

/-- Only no delay at all leads back to the same instant, before the last one. -/
theorem after_ofMillis_eq_self_iff {now : Int} {delay : Nat} (lowest : minimum ≤ now)
    (before : now < maximum) : after now (.ofMillis delay) = now ↔ delay = 0 := by
  simp only [after, Duration.toMillis, Duration.wholeMillis_ofMillis, clamp, minimum, maximum]
    at *
  omega

end Instant

/-! ### One completion -/

/-- A job that is completed at `now` has a fixed delay: it is due again after it, unless that
is when it was due. -/
theorem WorkItem.dueAgain_of_fixedDelay {i : WorkItem} {name : String} {delay initialDelay : Nat}
    (job : i.kind = .job name (.fixedDelay delay initialDelay)) (now : Int) :
    i.dueAgain now = .ok (if i.scheduleTime = some (Instant.after now (.ofMillis delay)) then none
      else some (Instant.after now (.ofMillis delay))) := by
  simp only [dueAgain, job, WorkKind.trigger?, Recurrence.build, Plan.next, history, Except.map,
    History.isEndedBy, beq_iff_eq]

namespace Backlog

/-- Complete an item outside of any transaction. -/
def finish (b : Backlog) (now : Int) (id : Nat) : Except Failure Completion × Backlog :=
  match b.complete now id with
  | (.error f, b) => (.error f, b)
  | (.ok d, b) =>
      let (answer, b, _) := b.record (none : Option (Scope Write Unit)) d
      (answer.mapError .error, b)

/-- A single write is recorded by carrying it out. -/
theorem record_singleton {α : Type} {b c : Backlog} {w : Write} (carried : b.carryOut w = .ok c)
    (answer : α) : b.record (none : Option (Scope Write Unit)) ⟨answer, [w]⟩ =
      (.ok answer, c, none) := by
  simp [record, carried]

/-- **A waiting item is completed at once, together with its next occurrence.** Nothing else is
changed. -/
theorem finish_of_new {b : Backlog} {reserved : List Nat} (sound : b.Sound reserved)
    (h : b.plans.Faithful) {id : Nat} {i : WorkItem} (stored : b.get? id = some i)
    (new : i.state = .new) {now : Int} {due : Option Int} {next : Option WorkItem}
    (again : (completed now i).dueAgain now = .ok due)
    (following : due.map (fun due => successor b.nextId now due (completed now i)) = next) :
    (b.finish now id).1 = .ok ⟨completed now i, next⟩ ∧
      ∀ other, (b.finish now id).2.get? other =
        if other = id then some (completed now i) else if other = b.nextId then next
        else b.get? other := by
  have answer := complete_of_new h stored new now
  have drafts := drafted_complete b now id
  rw [again] at answer
  simp only [Except.map, following] at answer
  cases result : b.complete now id with
  | mk r c =>
      rw [result] at answer drafts
      cases answer
      have same : (completed now i).id = id := (id_completed now i).trans (id_of_get? stored)
      have waits : c.HasNew (completed now i).id := by
        rw [same]
        exact ⟨i, by rw [drafts.get?, stored], new⟩
      have finished : b.finish now id = (.ok ⟨completed now i, next⟩,
          next.elim (c.put (completed now i)) (c.put (completed now i)).put) := by
        simp only [finish, result, record_singleton (carryOut_replace_of_new waits),
          Except.mapError]
      have apart : id ≠ b.nextId := Nat.ne_of_lt (sound.stored_lt stored)
      have free : b.get? b.nextId = none := sound.get?_of_nextId_le (Nat.le_refl _)
      refine ⟨by rw [finished], fun other => ?_⟩
      rw [finished]
      subst following
      cases due with
      | none =>
          simp only [Option.map_none, Option.elim_none, get?_put, same, drafts.get?]
          grind
      | some due =>
          simp only [Option.map_some, Option.elim_some, get?_put, same, drafts.get?, successor]
          grind

end Backlog

namespace Ledger

variable {β : Type}

/-- **A job with a fixed delay is completed in any case, and it has a next occurrence unless
this would be due when the job was due itself.** The next occurrence waits to be completed in
its turn. It is due when the delay has passed since the completion, or at the last instant if
that is sooner. A job that is completed later than it was due is never without one, and one
that is completed just when it is due only if there is no delay. -/
theorem Reachable.repeats {l : Ledger β} (h : l.Reachable) {id : Nat} {i : WorkItem}
    {name : String} {delay initialDelay : Nat} (stored : l.backlog.get? id = some i)
    (new : i.state = .new) (job : i.kind = .job name (.fixedDelay delay initialDelay))
    (now : Int) :
    let due := Instant.after now (.ofMillis delay)
    let done := Backlog.completed now i
    let next := if i.scheduleTime = some due then none
      else some (Backlog.successor l.backlog.nextId now due done)
    (l.backlog.finish now id).1 = .ok ⟨done, next⟩ ∧
      (∀ other, (l.backlog.finish now id).2.get? other =
        if other = id then some done else if other = l.backlog.nextId then next
        else l.backlog.get? other) ∧
      (∀ n ∈ next, n.state = .new ∧ n.kind = i.kind ∧ n.scheduleTime = some due) ∧
      (Instant.minimum ≤ now → 0 ≤ now ∨ (delay : Int) ≤ Instant.maximum →
        due = min (now + delay) Instant.maximum) ∧
      (∀ t < now, now ≤ Instant.maximum → i.scheduleTime = some t → next.isSome) ∧
      (Instant.minimum ≤ now → now < Instant.maximum → i.scheduleTime = some now →
        (next = none ↔ delay = 0)) := by
  intro due done next
  have again : done.dueAgain now =
      .ok (if i.scheduleTime = some due then none else some due) :=
    WorkItem.dueAgain_of_fixedDelay job now
  have following : (if i.scheduleTime = some due then none else some due).map
      (fun due => Backlog.successor l.backlog.nextId now due done) = next := by
    simp only [next]
    split <;> rfl
  obtain ⟨answer, after⟩ :=
    Backlog.finish_of_new h.sound h.faithful stored new again following
  refine ⟨answer, after, ?_, Instant.after_ofMillis, ?_, ?_⟩
  · intro n mem
    simp only [next] at mem
    split at mem
    · cases mem
    · cases mem
      exact ⟨rfl, rfl, rfl⟩
  · intro t late highest scheduled
    have beyond : now ≤ due := Instant.le_after highest _
    have other : i.scheduleTime ≠ some due := by
      rw [scheduled]
      simp only [ne_eq, Option.some.injEq]
      omega
    simp [next, other]
  · intro lowest before scheduled
    have ended : next = none ↔ now = due := by simp [next, scheduled]
    rw [ended, eq_comm, Instant.after_ofMillis_eq_self_iff lowest before]

/-- A job that is due at 0 and repeated after a minute is completed at 1. It is due again
a minute later. -/
theorem repeats_of_oneJob :
    ∃ i, Lineage.oneJob.get? 1 = some i ∧
      (Lineage.oneJob.finish 1 1).1 = .ok ⟨Backlog.completed 1 i,
        some (Backlog.successor 2 1 60001 (Backlog.completed 1 i))⟩ := by
  have reachable : (⟨Lineage.oneJob, [], []⟩ : Ledger Unit).Reachable := ⟨5, steps_perform _ _ _ _ _⟩
  have stored : Lineage.oneJob.get? 1 = some _ := rfl
  obtain ⟨answer, -⟩ := reachable.repeats stored rfl rfl 1
  exact ⟨_, stored, answer⟩

/-- A job that is due at 1000 and repeated without any delay is completed at 1000. It is done,
and there is no next occurrence of it. -/
theorem ends_of_completed_at_once :
    let add := Operation.add (.ofKind (.job "digest" (.fixedDelay 0 0)))
    let b := add.perform 1000 (.empty 5)
    (⟨b, [], []⟩ : Ledger Unit).Reachable ∧ b.HasNew 1 ∧
      (∃ done, (b.finish 1000 1).1 = .ok ⟨done, none⟩) ∧
      (b.finish 1000 1).2.size = 1 ∧ ¬(b.finish 1000 1).2.HasNew 1 := by
  intro add b
  refine ⟨⟨5, steps_perform _ _ _ _ _⟩, ⟨_, rfl, rfl⟩, ⟨_, rfl⟩, rfl, ?_⟩
  rintro ⟨i, found, new⟩
  cases found
  cases new

end Ledger

end RecurringWork
