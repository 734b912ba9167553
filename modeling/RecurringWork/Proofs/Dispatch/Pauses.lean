import Mathlib.Order.Interval.Set.Basic
import RecurringWork.Proofs.Dispatch.Shift

/-!
# RecurringWork.Proofs.Dispatch.Pauses

**A run never oversleeps.** It hands out what was due when it looked for work, in order and up
to its limit, and then it pauses. If there may be more to do it does not pause at all. Otherwise
it pauses as long as it can (`Pace.isGreatest_pause`): no longer than its idle interval, and not
beyond the time for which an item waits, of all those that are stored when everything has been
processed.

A pause until an item is due is a difference of two instants, and saturates as such. This shows
only before the epoch: `Shift.short_before_epoch`.
-/

namespace RecurringWork

/-- The longest pause until something is due. -/
def Duration.farthest : Duration := .ofMillis Instant.maximum.toNat

/-- Whoever waits so long at `now` does not miss what is due, unless it has been missed already. -/
theorem le_delayUntil_iff {due now : Int} {n : Nat} :
    n ≤ (delayUntil due now).nanos ↔
      (n = 0 ∨ now * Duration.nanosPerMilli + n ≤ due * Duration.nanosPerMilli) ∧
        n ≤ Duration.farthest.nanos := by
  simp only [delayUntil, Duration.farthest, Duration.ofMillis, Duration.nanosPerMilli,
    Instant.clamp, Instant.minimum, Instant.maximum]
  omega

namespace Pace

variable {pace : Pace} {b : Backlog} {now : Int} {share : Share}

/-- So many nanoseconds are not more than the idle interval, and no waiting item of the share is
due before they are over, unless they are none. -/
def Affords (pace : Pace) (b : Backlog) (now : Int) (share : Share) (n : Nat) : Prop :=
  n ≤ pace.idle.nanos ∧ (n = 0 ∨ ∀ t ∈ b.awaited share,
    now * Duration.nanosPerMilli + n ≤ t * Duration.nanosPerMilli)

/-- **A pause that does not follow on a full batch is as long as it may be**, and as far as can be
said by how much one instant is later than another. -/
theorem isGreatest_pause (pace : Pace) (b : Backlog) (now : Int) (share : Share) :
    IsGreatest {n | pace.Affords b now share n ∧
      ((b.awaited share).Nonempty → n ≤ Duration.farthest.nanos)}
      (pace.pause b now share false).nanos := by
  have all : {n | pace.Affords b now share n ∧
      ((b.awaited share).Nonempty → n ≤ Duration.farthest.nanos)} =
      Set.Iic (pace.pause b now share false).nanos := by
    ext n
    unfold Affords pause
    cases next : b.nextDue share with
    | none =>
        have nothing := Backlog.nextDue_eq_none_iff.mp next
        simp [nothing]
    | some d =>
        obtain ⟨here, least⟩ := Backlog.nextDue_eq_some_iff.mp next
        have some_ : (b.awaited share).Nonempty := ⟨d, here⟩
        have first : (∀ t ∈ b.awaited share,
            now * Duration.nanosPerMilli + n ≤ t * Duration.nanosPerMilli) ↔
              now * Duration.nanosPerMilli + n ≤ d * Duration.nanosPerMilli := by
          refine ⟨fun all => all d here, fun le t mem => ?_⟩
          have : d ≤ t := least mem
          simp only [Duration.nanosPerMilli] at le ⊢
          omega
        simp only [Set.mem_ofPred_eq, Set.mem_Iic, first, some_, forall_const,
          Bool.false_eq_true, if_false, Duration.nanos_shorter, Nat.le_min, le_delayUntil_iff]
        rw [and_assoc, and_comm]
  rw [all]
  exact isGreatest_Iic

/-- From the epoch on it is as long as it may be. -/
theorem isGreatest_pause_of_nonneg (nonneg : 0 ≤ now)
    (within : ∀ t ∈ b.awaited share, t ≤ Instant.maximum) :
    IsGreatest {n | pace.Affords b now share n} (pace.pause b now share false).nanos := by
  have all : {n | pace.Affords b now share n ∧
      ((b.awaited share).Nonempty → n ≤ Duration.farthest.nanos)} =
      {n | pace.Affords b now share n} := by
    ext n
    refine ⟨fun both => both.1, fun affords => ⟨affords, fun ⟨t, mem⟩ => ?_⟩⟩
    obtain ⟨-, rfl | before⟩ := affords
    · exact Nat.zero_le _
    · have early := before t mem
      have late := within t mem
      simp only [Duration.farthest, Duration.ofMillis, Duration.nanosPerMilli, Instant.maximum]
        at early late ⊢
      omega
  exact all ▸ isGreatest_pause pace b now share

/-- If the idle interval is one of whole milliseconds then every pause is. -/
theorem pause_whole (whole : pace.idle.nanos % Duration.nanosPerMilli = 0) (full : Bool) :
    pace.pause b now share full = .ofMillis (pace.pause b now share full).wholeMillis := by
  have shorter : ∀ d : Duration, d.nanos % Duration.nanosPerMilli = 0 →
      d = .ofMillis d.wholeMillis := by
    intro d mod
    obtain ⟨n⟩ := d
    simp only [Duration.ofMillis, Duration.wholeMillis, Duration.nanosPerMilli] at mod ⊢
    rw [Nat.div_mul_cancel (Nat.dvd_of_mod_eq_zero mod)]
  refine shorter _ ?_
  unfold pause
  split
  · rfl
  · split
    · simp only [Duration.nanos_shorter, delayUntil, Duration.ofMillis, Duration.nanosPerMilli]
        at whole ⊢
      omega
    · exact whole

end Pace

namespace Shift

variable {β : Type} {pace : Pace} {share : Share}

/-- What can be said of a run that is over, and has begun as `start`. -/
structure Rests (pace : Pace) (share : Share) (start s : Shift β) (pause : Duration) : Prop where
  /-- It has handed out what was due, up to its limit. -/
  handed : ∃ due : List WorkItem, (∀ i, i ∈ due ↔ i ∈ start.sighted.1.items ∧
      (∃ t ≤ start.clock, i.WaitsFor t) ∧ share.holds i) ∧
    due.Pairwise WorkItem.Precedes ∧ s.handed = due.take pace.limit
  full : pace.limit ≤ s.handed.length → pause = .zero
  longest : s.handed.length < pace.limit →
    IsGreatest {n | pace.Affords s.ledger.backlog s.clock share n ∧
      ((s.ledger.backlog.awaited share).Nonempty → n ≤ Duration.farthest.nanos)} pause.nanos
  whole : pause = .ofMillis pause.wholeMillis
  target : s.target.at_ = Instant.clamp (s.clock + min (pause.wholeMillis : Int) Instant.maximum)
  /-- From the epoch on nothing saturates but the wake target. -/
  usual : 0 ≤ s.clock → (∀ t ∈ s.ledger.backlog.awaited share, t ≤ Instant.maximum) →
    (s.handed.length < pace.limit →
      IsGreatest {n | pace.Affords s.ledger.backlog s.clock share n} pause.nanos) ∧
    s.target.at_ = min (s.clock + pause.wholeMillis) Instant.maximum

theorem ordered_sighted {s : Shift β} (ordered : s.ledger.backlog.Ordered) :
    s.sighted.1.Ordered := by
  cases around : s.scope with
  | none =>
      rw [sighted_of_alone around]
      show (Operation.expire.perform _ _).Ordered
      rw [Backlog.perform_eq_commit]
      exact ordered.commit _
  | some scope =>
      unfold sighted
      rw [around]
      exact ordered

/-- **A run never oversleeps.** While it is in progress its wake target is unknown, and stays so if
it breaks off. If it comes to its end then it has handed out what was due when it looked for work,
and pauses for as long as it can. -/
theorem Steps.unknown_until_rests {l : Ledger β} {scope : Option (Scope Write β)}
    {target : WakeTarget} {clock : Int} {s : Shift β} (ordered : l.backlog.Ordered)
    (whole : pace.idle.nanos % Duration.nanosPerMilli = 0)
    (run : Steps pace share (opening l scope target clock) s) :
    (s.progress ≠ some .begun → (∀ pause, s.progress ≠ some (.settled pause)) →
      s.target = .unknown) ∧
    ∀ pause, s.progress = some (.settled pause) →
      Rests pace share (opening l scope target clock) s pause := by
  rcases run.of_opening with early | after
  · cases early with
    | begun => exact ⟨fun begun => absurd rfl begun, fun pause settled => by cases settled⟩
    | marked | expired => exact ⟨fun _ _ => rfl, fun pause settled => by cases settled⟩
  · have course := after.course
    generalize taken : (opening l scope target clock).batch pace share = batch at course
    cases course with
    | idle _ | busy _ | planned | broken =>
        exact ⟨fun _ _ => rfl, fun pause settled => by cases settled⟩
    | @settled l' scope' clock' touched =>
        refine ⟨fun _ going => absurd rfl (going _), fun pause settled => ?_⟩
        cases settled
        have batch_eq : batch =
            ((opening l scope target clock).sighted.1.due clock share none).take pace.limit :=
          taken.symm
        refine ⟨⟨_, fun i => Backlog.mem_due_iff, ?_, batch_eq⟩, fun full => ?_, fun few => ?_,
          Pace.pause_whole whole _, rfl, fun nonneg within => ⟨fun few => ?_, ?_⟩⟩
        · exact (ordered_sighted ordered).distinct.precedes_due
        · show pace.pause _ _ _ (pace.isFull batch) = _
          rw [Pace.isFull, decide_eq_true full]
          rfl
        · rw [Pace.isFull, decide_eq_false (Nat.not_le.mpr few)]
          exact Pace.isGreatest_pause _ _ _ _
        · rw [Pace.isFull, decide_eq_false (Nat.not_le.mpr few)]
          exact Pace.isGreatest_pause_of_nonneg nonneg within
        · have late : 0 ≤ clock' := nonneg
          show Instant.clamp (clock' + min _ Instant.maximum) = min (clock' + _) Instant.maximum
          simp only [Instant.clamp, Instant.minimum, Instant.maximum]
          omega

/-- A message is due at 1000 and another one at 3000. The processor takes half a second over the
first, and the run pauses until the second is due. -/
theorem rests_of_twoMessages :
    let message (t : Int) : WorkItem := { WorkItem.ofKind (.notification "email" .null) with
      scheduleTime := some t }
    let one := (Operation.add (message 1000)).perform 1000 (.empty 5)
    let l : Ledger Unit := ⟨(Operation.add (message 3000)).perform 1000 one, [], []⟩
    let start : Shift Unit := opening l none .unplanned 1000
    ∃ s, Steps .standard ⟨0, 1, .all⟩ start s ∧ s.progress = some (.settled (.ofMillis 1500)) ∧
      s.target = ⟨3000⟩ ∧ Rests .standard ⟨0, 1, .all⟩ start s (.ofMillis 1500) := by
  intro message one l start
  let share : Share := ⟨0, 1, .all⟩
  let stored := (Backlog.empty 5).admitted 1000 1000 (message 1000)
  let done := Backlog.completed 1500 stored
  let b := Operation.expire.perform 1000 l.backlog
  have batch : Pace.standard.batch b 1000 share = [stored] :=
    Pace.batch_of_filter rfl (List.pairwise_singleton _ _) (by decide)
  have concluded : Pace.standard.conclude b 1500 stored .completed =
      (.ok [.replace done none], b) := rfl
  have recorded : (b.record (none : Option (Scope Write Unit)) ⟨(), [.replace done none]⟩).2.1 =
      b.put done := rfl
  have pause : Pace.standard.pause (b.put done) 1500 share false = .ofMillis 1500 := rfl
  have looks : Steps .standard share start ⟨⟨b, [], []⟩, none, .unknown, 1000,
      some (.working (Pace.standard.isFull [stored]) [stored]), false, [], []⟩ :=
    steps_of_batch batch
  have judges := (looks.hands.waits 1500).judges concluded recorded
  have ends := judges.settles pause
  have ordered : l.backlog.Ordered := ((Backlog.ordered_empty 5).put _).put _
  exact ⟨_, ends, rfl, rfl, (ends.unknown_until_rests ordered rfl).2 _ rfl⟩

/-- Before the epoch a message waits for the last instant, or nothing waits at all, and the idle
interval is longer than that is away. In the first case the run pauses for one millisecond less
than it could, and in the second it plans to run a millisecond before its pause will be over or
time ends. -/
theorem short_before_epoch :
    let pace : Pace := ⟨100, .ofSeconds 9223372036854776, .ofSeconds 5⟩
    let share : Share := ⟨0, 1, .all⟩
    let message : WorkItem := { WorkItem.ofKind (.notification "email" .null) with
      scheduleTime := some Instant.maximum }
    let l : Ledger Unit := ⟨(Operation.add message).perform (-1) (.empty 5), [], []⟩
    (∃ (s : Shift Unit) (pause : Duration), Steps pace share (opening l none .unplanned (-1)) s ∧
      s.progress = some (.settled pause) ∧ s.handed.length < pace.limit ∧
      ¬IsGreatest {n | pace.Affords s.ledger.backlog s.clock share n} pause.nanos) ∧
    ∃ (s : Shift Unit) (pause : Duration),
      Steps pace share (opening (.empty 5) none .unplanned (-1)) s ∧
      s.progress = some (.settled pause) ∧
      s.target.at_ ≠ Instant.clamp (s.clock + pause.wholeMillis) := by
  intro pace share message l
  constructor
  · let b := (l.expired (-1)).backlog
    have batch : pace.batch b (-1) share = [] := Pace.batch_of_filter rfl .nil (by decide)
    have next : b.nextDue share = some Instant.maximum := rfl
    have pause : pace.pause b (-1) share false = .farthest := by
      rw [Pace.pause, if_neg Bool.false_ne_true, next]
      decide
    have looks : Steps pace share (opening l none .unplanned (-1)) _ := steps_of_batch batch
    refine ⟨_, _, looks.settles pause, rfl, by decide, fun longest => ?_⟩
    have more : pace.Affords b (-1) share 9223372036854775808000000 := by
      refine ⟨by decide, .inr fun t mem => ?_⟩
      have least : Instant.maximum ≤ t := (Backlog.nextDue_eq_some_iff.mp next).2 mem
      simp only [Instant.maximum, Duration.nanosPerMilli] at least ⊢
      omega
    have bound : 9223372036854775808000000 ≤ Duration.farthest.nanos := longest.2 more
    exact absurd bound (by decide)
  · have batch : pace.batch ((Ledger.empty 5 : Ledger Unit).expired (-1)).backlog (-1) share = [] :=
      Pace.batch_of_filter rfl .nil (by decide)
    have pause : pace.pause (.empty 5) (-1) share false = pace.idle := rfl
    have looks : Steps pace share (opening (.empty 5) none .unplanned (-1)) _ :=
      steps_of_batch batch
    exact ⟨_, _, looks.settles pause, rfl, by decide⟩

end Shift

end RecurringWork
