import RecurringWork.Proofs.Backlog.Repetition
import RecurringWork.Proofs.Dispatch.Snapshots
import RecurringWork.Settings

/-!
# RecurringWork.Proofs.Dispatch.Postponement

**How far a deferred item is put off.** When the verdict on an item is that its time has not come,
or that processing it has failed, the item is stored to be due again after the delay that the
settings give. Settings are not looked at for how long this delay is, and any number of milliseconds
will do.

The instants end somewhere, and everywhere else counting beyond the last one stops there: the wake
target of a worker, the end of a fixed delay and the pause until an item is due all do so. Putting
an item off does not. As long as the clock leaves room for the delay, the item is put off to the
instant that the others would count to, which is not before the clock
(`Shift.deferral_of_settings`). Otherwise the run breaks off, nothing is written, and the item is
due as it was, so that the next run meets it again (`Shift.broken_off_by_delay`).
-/

namespace RecurringWork

namespace Shift

variable {β : Type}

/-- **A deferred item is put off by the delay, if there is an instant so late.** It is not due before
the clock then, but when a worker would be that plans to pause for so long. If it still waits, it is
stored so, at once or when the transaction around the run commits; otherwise nothing is written, and
in both cases the run goes on. If there is no such instant the run breaks off, and nothing is
written. -/
theorem deferral_of_settings (settings : Settings) (s : Shift β) (full : Bool) (i : WorkItem)
    (rest : List WorkItem) {v : Verdict} (defers : v ≠ .completed) (since : 0 ≤ s.clock) :
    let b := s.ledger.backlog
    let delay := min (settings.deferDelay : Int) Instant.maximum
    let retry := min (s.clock + settings.deferDelay) Instant.maximum
    let after := s.judged settings.pace full i rest v
    WakeTarget.after s.clock settings.pace.deferDelay = ⟨retry⟩ ∧
    (s.clock + delay ≤ Instant.maximum → s.clock ≤ retry ∧
      after.progress = some (.working full rest) ∧
      (¬b.HasNew i.id → after.ledger = s.ledger ∧ after.scope = s.scope) ∧
      (b.HasNew i.id → ∃ j, j.id = i.id ∧ j.scheduleTime = some retry ∧
        (s.scope = none → after.ledger.backlog = b.put j ∧ after.scope = none) ∧
        ∀ around, s.scope = some around →
          after.ledger = s.ledger ∧ after.scope = some (around.stage [.replace j none]))) ∧
    (Instant.maximum < s.clock + delay →
      after.progress = none ∧ after.ledger = s.ledger ∧ after.scope = s.scope) := by
  intro b delay retry after
  have length : settings.pace.deferDelay.toMillis = delay := by
    simp only [Settings.pace, Duration.toMillis, Duration.wholeMillis_ofMillis, delay]
  have planned : Instant.after s.clock settings.pace.deferDelay = retry :=
    Instant.after_ofMillis (by simp only [Instant.minimum]; omega) (.inl since)
  refine ⟨congrArg WakeTarget.mk planned, fun room => ?_, fun beyond => ?_⟩
  · have within : s.clock + settings.pace.deferDelay.toMillis ≤ Instant.maximum := length ▸ room
    have positive : 0 ≤ Instant.maximum := by decide
    have counted : s.clock + settings.pace.deferDelay.toMillis = retry := by
      rw [length]
      omega
    refine ⟨by omega, ?_⟩
    by_cases waits : b.HasNew i.id
    · obtain ⟨current, stored, new⟩ := waits
      let j := ({ i with scheduleTime := some retry } : WorkItem).deferred.inPlaceOf current s.clock
      have concluded := Pace.conclude_of_new defers within stored new
      rw [counted] at concluded
      have same : after = _ := judged_eq concluded
      rw [same]
      refine ⟨rfl, fun gone => absurd ⟨current, stored, new⟩ gone, fun _ => ⟨j, rfl, rfl, ?_, ?_⟩⟩
      · intro alone
        rw [alone]
        exact ⟨Backlog.record_replace_of_new (b := b) (i := j) ⟨current, stored, new⟩ β,
          Backlog.scope_record _ _⟩
      · intro around inside
        rw [inside]
        exact ⟨rfl, rfl⟩
    · have concluded : settings.pace.conclude b s.clock i v = (.ok [], b) :=
        Pace.conclude_of_not_hasNew defers within waits
      have same : after = _ := judged_eq concluded
      rw [same, Backlog.record_nil]
      exact ⟨rfl, fun _ => ⟨rfl, rfl⟩, fun new => absurd new waits⟩
  · have concluded := Pace.conclude_of_beyond (b := b) (i := i) defers (length.symm ▸ beyond)
    have same : after = _ := judged_of_error concluded
    rw [same]
    exact ⟨rfl, rfl, rfl⟩

/-- A message is due at 1000. -/
def dueMessage : Ledger Unit :=
  let message : WorkItem := { WorkItem.ofKind (.notification "email" .null) with
    scheduleTime := some 1000 }
  ⟨(Operation.add message).perform 1000 (.empty 5), [], []⟩

/-- The message as it is handed out at 1000, whatever the delay. -/
def handedMessage : Shift Unit :=
  let i := (Backlog.empty 5).admitted 1000 1000 (.ofKind (.notification "email" .null))
  ⟨dueMessage, none, .unknown, 1000, some (.working false [i]), true, [i], []⟩

theorem steps_dueMessage (delay : Nat) :
    Steps ({ Settings.standard with deferDelay := delay } : Settings).pace ⟨0, 1, .all⟩
      (opening dueMessage none .unplanned 1000) handedMessage := by
  let pace := ({ Settings.standard with deferDelay := delay } : Settings).pace
  let i := (Backlog.empty 5).admitted 1000 1000 (.ofKind (.notification "email" .null))
  have batch : pace.batch (dueMessage.expired 1000).backlog 1000 ⟨0, 1, .all⟩ = [i] :=
    Pace.batch_of_filter rfl (List.pairwise_singleton _ _) (Nat.le_max_right 100 1)
  exact (steps_of_batch batch).hands

/-- The message is deferred at 1000 by five seconds. -/
theorem deferral_of_dueMessage :
    Steps Settings.standard.pace ⟨0, 1, .all⟩ (opening dueMessage none .unplanned 1000)
        handedMessage ∧
      ∃ j, (handedMessage.judged Settings.standard.pace false
          ((Backlog.empty 5).admitted 1000 1000 (.ofKind (.notification "email" .null))) []
          .deferred).ledger.backlog = handedMessage.ledger.backlog.put j ∧
        j.scheduleTime = some 6000 := by
  obtain ⟨-, within, -⟩ := deferral_of_settings .standard handedMessage false
    ((Backlog.empty 5).admitted 1000 1000 (.ofKind (.notification "email" .null))) []
    (v := .deferred) (by decide) (by decide)
  obtain ⟨-, -, -, stored⟩ := within (by decide)
  obtain ⟨j, -, due, alone, -⟩ := stored ⟨_, rfl, rfl⟩
  exact ⟨steps_dueMessage 5000, j, (alone rfl).1, due⟩

/-- The delay is the longest that the settings can hold, and they are accepted. The message is
deferred at 1000. The run breaks off, and the message is due as it was. -/
theorem broken_off_by_delay :
    let settings : Settings := { Settings.standard with deferDelay := 18446744073709551615 }
    settings.validate = .ok settings ∧ dueMessage.Reachable ∧
      ∃ (s : Shift Unit) (i : WorkItem),
        Steps settings.pace ⟨0, 1, .all⟩ (opening dueMessage none .unplanned 1000) s ∧
        s.progress = some (.working false [i]) ∧ s.busy = true ∧ s.clock = 1000 ∧
        (s.judged settings.pace false i [] .deferred).progress = none ∧
        (s.judged settings.pace false i [] .deferred).ledger = s.ledger ∧
        ∃ j, s.ledger.backlog.get? i.id = some j ∧ j.state = .new ∧ j.scheduleTime = some 1000 := by
  intro settings
  let i := (Backlog.empty 5).admitted 1000 1000 (.ofKind (.notification "email" .null))
  have concluded : settings.pace.conclude handedMessage.ledger.backlog handedMessage.clock i
      .deferred = (.error .fault, handedMessage.ledger.backlog) :=
    Pace.conclude_of_beyond (by decide) (by decide)
  have broken : handedMessage.judged settings.pace false i [] .deferred = _ :=
    judged_of_error concluded
  exact ⟨rfl, ⟨5, Ledger.steps_perform _ _ _ _ _⟩, handedMessage, i, steps_dueMessage _, rfl, rfl,
    rfl, by rw [broken], by rw [broken]; rfl, _, rfl, rfl, rfl⟩

end Shift

end RecurringWork
