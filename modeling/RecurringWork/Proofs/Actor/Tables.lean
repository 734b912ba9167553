import RecurringWork.Actor.System

/-!
# RecurringWork.Proofs.Actor.Tables

**An actor system as three tables**: its entries (`ActorSystem.entry?`), its managers
(`ActorSystem.manager?`) and its jobs (`ActorSystem.job?`). Every operation is made of
changes of single rows. The lemmas here say which row each of them changes, so that
nothing else has to look into the lists behind the tables.
-/

namespace RecurringWork.ActorSystem

/-- The job of a scheduler. -/
def job? (s : ActorSystem) (r : JobRef) : Option (Job Duty) :=
  (s.scheduler r.scheduler).job? r.number

/-- No scheduler has a number beyond that of its jobs. -/
def Numbered (s : ActorSystem) : Prop := ∀ k, (s.scheduler k).Numbered

/-- A scheduler exists and accepts jobs. -/
structure Live (s : ActorSystem) (k : Nat) : Prop where
  known : k < s.schedulers.length
  open_ : (s.scheduler k).stopped = false

/-! ### Single rows -/

@[simp] theorem entry?_alert (s : ActorSystem) (jobs : List JobRef) (n : Nat) :
    entry? (s.alert jobs) n = s.entry? n := rfl

@[simp] theorem manager?_alert (s : ActorSystem) (jobs : List JobRef) (n : Nat) :
    (s.alert jobs).manager? n = s.manager? n := rfl

@[simp] theorem scheduler_alert (s : ActorSystem) (jobs : List JobRef) (n : Nat) :
    (s.alert jobs).scheduler n = s.scheduler n := rfl

@[simp] theorem entry?_modifyScheduler (s : ActorSystem) (k : Nat)
    (f : Scheduler Duty → Scheduler Duty) (n : Nat) :
    entry? (s.modifyScheduler k f) n = s.entry? n := rfl

@[simp] theorem manager?_modifyScheduler (s : ActorSystem) (k : Nat)
    (f : Scheduler Duty → Scheduler Duty) (n : Nat) :
    (s.modifyScheduler k f).manager? n = s.manager? n := rfl

@[simp] theorem entry?_modifyManager (s : ActorSystem) (m : Nat) (f : Manager → Manager) (n : Nat) :
    entry? (s.modifyManager m f) n = s.entry? n := rfl

@[simp] theorem scheduler_modifyManager (s : ActorSystem) (m : Nat) (f : Manager → Manager)
    (k : Nat) : (s.modifyManager m f).scheduler k = s.scheduler k := rfl

@[simp] theorem manager?_modifyEntry (s : ActorSystem) (n : Nat) (f : Entry → Entry) (m : Nat) :
    (s.modifyEntry n f).manager? m = s.manager? m := rfl

@[simp] theorem scheduler_modifyEntry (s : ActorSystem) (n : Nat) (f : Entry → Entry) (k : Nat) :
    (s.modifyEntry n f).scheduler k = s.scheduler k := rfl

theorem entry?_modifyEntry (s : ActorSystem) (n : Nat) (f : Entry → Entry) (m : Nat) :
    entry? (s.modifyEntry n f) m = if n = m then (s.entry? m).map f else s.entry? m := by
  unfold entry?
  show (s.entries.modify n f)[m]? = _
  rw [List.getElem?_modify]
  by_cases h : n = m <;> simp [h]

theorem manager?_modifyManager (s : ActorSystem) (n : Nat) (f : Manager → Manager) (m : Nat) :
    (s.modifyManager n f).manager? m = if n = m then (s.manager? m).map f else s.manager? m := by
  show (s.managers.modify n f)[m]? = _
  rw [List.getElem?_modify]
  by_cases h : n = m
  · rw [if_pos h]
    simp [manager?, h]
  · rw [if_neg h]
    simp [manager?, h]

theorem scheduler_modifyScheduler (s : ActorSystem) (k : Nat) (f : Scheduler Duty → Scheduler Duty)
    (n : Nat) : (s.modifyScheduler k f).scheduler n =
      if k = n ∧ n < s.schedulers.length then f (s.scheduler n) else s.scheduler n := by
  show (s.schedulers.modify k f).getD n .empty = _
  rw [List.getD_eq_getElem?_getD, List.getElem?_modify, scheduler, List.getD_eq_getElem?_getD]
  by_cases known : n < s.schedulers.length
  · rw [List.getElem?_eq_getElem known]
    by_cases h : k = n
    · simp [h, known]
    · simp [h]
  · rw [List.getElem?_eq_none (by omega)]
    simp [known]

/-- Only what becomes of the scheduler itself matters. -/
theorem modifyScheduler_congr {s : ActorSystem} {k : Nat} {f g : Scheduler Duty → Scheduler Duty}
    (h : f (s.scheduler k) = g (s.scheduler k)) : s.modifyScheduler k f = s.modifyScheduler k g := by
  have same : s.schedulers.modify k f = s.schedulers.modify k g := by
    refine List.ext_getElem? fun n => ?_
    rw [List.getElem?_modify, List.getElem?_modify]
    by_cases here : k = n
    · subst here
      by_cases known : k < s.schedulers.length
      · rw [scheduler, List.getD_eq_getElem?_getD, List.getElem?_eq_getElem known] at h
        rw [List.getElem?_eq_getElem known]
        simpa using h
      · rw [List.getElem?_eq_none (by omega)]
        rfl
    · simp [here]
  rw [modifyScheduler, modifyScheduler, same]

theorem modifyScheduler_self (s : ActorSystem) (k : Nat) :
    (s.modifyScheduler k fun _ => s.scheduler k) = s := by
  have congr : (s.modifyScheduler k fun _ => s.scheduler k) = s.modifyScheduler k id :=
    modifyScheduler_congr rfl
  rw [congr, modifyScheduler, List.modify_id]

/-- A scheduler that does not exist has no jobs. -/
theorem scheduler_of_le {s : ActorSystem} {k : Nat} (h : s.schedulers.length ≤ k) :
    s.scheduler k = .empty := by
  rw [scheduler, List.getD_eq_getElem?_getD, List.getElem?_eq_none h]
  rfl

theorem Numbered.modifyScheduler {s : ActorSystem} (h : s.Numbered) {k : Nat}
    {f : Scheduler Duty → Scheduler Duty} (keeps : (f (s.scheduler k)).Numbered) :
    (s.modifyScheduler k f).Numbered := by
  intro n
  rw [scheduler_modifyScheduler]
  split
  · next same => exact same.1 ▸ keeps
  · exact h n

theorem Live.modifyScheduler {s : ActorSystem} {k : Nat} (live : s.Live k) (n : Nat)
    {f : Scheduler Duty → Scheduler Duty} (keeps : ∀ c, (f c).stopped = c.stopped) :
    (s.modifyScheduler n f).Live k where
  known := by
    rw [ActorSystem.modifyScheduler, List.length_modify]
    exact live.known
  open_ := by
    rw [scheduler_modifyScheduler]
    split
    · rw [keeps]
      exact live.open_
    · exact live.open_

theorem Live.cancelJob {s : ActorSystem} {k : Nat} (live : s.Live k) (r : JobRef) :
    (s.cancelJob r).Live k := by
  have cancelled := live.modifyScheduler r.scheduler (f := fun c => c.cancel r.number) fun _ => rfl
  exact ⟨cancelled.known, cancelled.open_⟩

/-! ### Jobs -/

/-- What changes a job of a scheduler changes that job of the system. -/
theorem job?_modifyScheduler_modify {s : ActorSystem} {r : JobRef} {f : Job Duty → Job Duty}
    (keeps : ∀ j, (f j).number = j.number) (q : JobRef) :
    (s.modifyScheduler r.scheduler fun c => c.modify r.number f).job? q =
      if q = r then (s.job? q).map f else s.job? q := by
  obtain ⟨k, n⟩ := q
  obtain ⟨k', n'⟩ := r
  simp only [job?, scheduler_modifyScheduler, JobRef.mk.injEq]
  by_cases same : k' = k
  · subst same
    by_cases known : k' < s.schedulers.length
    · rw [if_pos ⟨rfl, known⟩]
      by_cases number : n = n'
      · subst number
        rw [if_pos ⟨rfl, rfl⟩, Scheduler.job?_modify_self keeps]
      · rw [if_neg (fun h => number h.2), Scheduler.job?_modify_of_ne (Ne.symm number) keeps]
    · -- A scheduler that does not exist has no jobs that could change.
      rw [if_neg (fun h => known h.2), scheduler_of_le (Nat.le_of_not_lt known)]
      exact (ite_self _).symm
  · rw [if_neg (fun h => same h.1), if_neg (fun h => same h.1.symm)]

theorem job?_cancelJob (s : ActorSystem) (r q : JobRef) :
    (s.cancelJob r).job? q =
      if q = r then (s.job? q).map fun j => { j with cancelled := true } else s.job? q :=
  @job?_modifyScheduler_modify s r (fun j => { j with cancelled := true }) (fun _ => rfl) q

theorem job?_finishJob (s : ActorSystem) (r q : JobRef) :
    (s.finishJob r).job? q =
      if q = r then (s.job? q).map fun j => { j with phase := .ended } else s.job? q :=
  @job?_modifyScheduler_modify s r (fun j => { j with phase := .ended }) (fun _ => rfl) q

theorem job?_stopScheduler (s : ActorSystem) (k : Nat) (q : JobRef) :
    (s.stopScheduler k).job? q = s.job? q := by
  show ((s.modifyScheduler k Scheduler.stop).scheduler q.scheduler).job? q.number = _
  rw [scheduler_modifyScheduler]
  split <;> rfl

theorem Numbered.cancelJob {s : ActorSystem} (h : s.Numbered) (r : JobRef) :
    (s.cancelJob r).Numbered :=
  Numbered.modifyScheduler h ((h r.scheduler).modify fun _ => rfl)

theorem Numbered.stopScheduler {s : ActorSystem} (h : s.Numbered) (k : Nat) :
    (s.stopScheduler k).Numbered :=
  Numbered.modifyScheduler h (h k)

/-! ### Scheduling and attending to a job -/

theorem job?_schedule_of_live {s : ActorSystem} {k : Nat} (live : s.Live k) (now : Nat)
    (duty : Duty) (delay : Duration) (q : JobRef) :
    (s.schedule now k duty delay).2.job? q =
      if q = ⟨k, (s.scheduler k).jobs.length + 1⟩ then
        some ⟨(s.scheduler k).jobs.length + 1, duty, now + delay.timer, false, .waiting⟩
      else s.job? q := by
  obtain ⟨k', n⟩ := q
  show ((s.modifyScheduler k fun _ => ((s.scheduler k).schedule now duty delay).2).scheduler
    k').job? n = _
  simp only [scheduler_modifyScheduler, JobRef.mk.injEq]
  by_cases same : k = k'
  · subst same
    rw [if_pos ⟨rfl, live.known⟩, Scheduler.job?_schedule live.open_]
    simp [job?]
  · rw [if_neg (fun h => same h.1), if_neg (fun h => same h.1.symm)]
    rfl

/-- Schedulers stay as live as they are when they accept a job. -/
theorem stopped_schedule (s : ActorSystem) (now k : Nat) (duty : Duty) (delay : Duration)
    (n : Nat) : ((s.schedule now k duty delay).2.scheduler n).stopped = (s.scheduler n).stopped := by
  show ((s.modifyScheduler k fun _ => ((s.scheduler k).schedule now duty delay).2).scheduler
    n).stopped = _
  rw [scheduler_modifyScheduler]
  split
  · next same =>
      rw [← same.1, Scheduler.schedule]
      split <;> rfl
  · rfl

/-- A scheduler that does not exist or is stopped does not accept the job. -/
theorem job?_schedule_of_not_live {s : ActorSystem} {k : Nat} (dead : ¬ s.Live k) (now : Nat)
    (duty : Duty) (delay : Duration) (q : JobRef) :
    (s.schedule now k duty delay).2.job? q = s.job? q := by
  show ((s.modifyScheduler k fun _ => ((s.scheduler k).schedule now duty delay).2).scheduler
    q.scheduler).job? q.number = _
  rw [scheduler_modifyScheduler]
  split
  · next same =>
      obtain ⟨rfl, known⟩ := same
      have stopped : (s.scheduler q.scheduler).stopped = true := by
        cases h : (s.scheduler q.scheduler).stopped with
        | true => rfl
        | false => exact absurd ⟨known, h⟩ dead
      rw [Scheduler.schedule_of_stopped stopped]
      rfl
  · rfl

theorem Numbered.schedule {s : ActorSystem} (h : s.Numbered) (now k : Nat) (duty : Duty)
    (delay : Duration) : (s.schedule now k duty delay).2.Numbered :=
  Numbered.modifyScheduler h ((h k).schedule now duty delay)

/-- A job that begins was waiting, and has started now. Nothing else changes. -/
theorem attend_begin_inv {s t : ActorSystem} {now : Nat} {r : JobRef} {duty : Duty}
    (h : s.attend now r = (.begin duty, t)) :
    (∃ j, s.job? r = some j ∧ j.phase = .waiting ∧ j.duty = duty ∧ j.due ≤ now ∧
        j.cancelled = false) ∧
      t = s.modifyScheduler r.scheduler fun c =>
        c.modify r.number fun j => { j with phase := .started } := by
  unfold attend at h
  generalize result : (s.scheduler r.scheduler).attend now r.number = a at h
  obtain ⟨attention, changed⟩ := a
  cases h
  obtain ⟨j, found, waits, does, due, kept, rfl⟩ := Scheduler.attend_begin_inv result
  refine ⟨⟨j, found, waits, does, due, kept⟩, ?_⟩
  exact modifyScheduler_congr rfl

theorem attend_of_due {s : ActorSystem} {now : Nat} {r : JobRef} {j : Job Duty}
    (found : s.job? r = some j) (waits : j.phase = .waiting) (live : j.cancelled = false)
    (open_ : (s.scheduler r.scheduler).stopped = false) (due : j.due ≤ now) :
    ∃ t, s.attend now r = (.begin j.duty, t) := by
  unfold attend
  rw [Scheduler.attend_of_due found waits live open_ due]
  exact ⟨_, rfl⟩

theorem job?_attend_begin {s t : ActorSystem} {now : Nat} {r : JobRef} {duty : Duty}
    (h : s.attend now r = (.begin duty, t)) (q : JobRef) :
    t.job? q = if q = r then (s.job? q).map fun j => { j with phase := .started } else s.job? q := by
  obtain ⟨-, rfl⟩ := attend_begin_inv h
  exact @job?_modifyScheduler_modify s r (fun j => { j with phase := .started }) (fun _ => rfl) q

/-- A job that is over has ended now, because it was cancelled before it started or its scheduler
was stopped, or nothing changes. -/
theorem attend_over_inv {s t : ActorSystem} {now : Nat} {r : JobRef}
    (h : s.attend now r = (.over, t)) : t = s ∨
      (∃ j, s.job? r = some j ∧ j.phase = .waiting ∧
        (j.cancelled = true ∨ (s.scheduler r.scheduler).stopped = true)) ∧ t = s.finishJob r := by
  unfold attend at h
  generalize result : (s.scheduler r.scheduler).attend now r.number = a at h
  obtain ⟨attention, changed⟩ := a
  cases h
  rcases Scheduler.attend_over_inv result with rfl | ⟨j, found, waits, dead, rfl⟩
  · exact .inl (modifyScheduler_self s r.scheduler)
  · rw [Scheduler.isCancelled, found, Bool.or_eq_true] at dead
    exact .inr ⟨⟨j, found, waits, dead.symm⟩, modifyScheduler_congr rfl⟩

/-! ### Entries -/

/-- A firing is scheduled for an entry that is not cancelled, or nothing happens. -/
theorem scheduleEntry_cases (s : ActorSystem) (now m n : Nat) (delay : Duration) :
    s.scheduleEntry now m n delay = s ∨
      ∃ e k, s.entry? n = some e ∧ e.cancelled = false ∧ s.manager? m = some k ∧
        s.scheduleEntry now m n delay =
          (s.schedule now k.scheduler (.firing m n) delay).2.modifyEntry n fun e =>
            { e with latest := some (s.schedule now k.scheduler (.firing m n) delay).1 } := by
  unfold scheduleEntry
  split
  · next e k found manages =>
      split
      · exact .inl rfl
      · next live => exact .inr ⟨e, k, found, by simpa using live, manages, rfl⟩
  · exact .inl rfl

/-- An entry that exists is cancelled, with the firing that was scheduled last. -/
theorem cancelEntry_cases (s : ActorSystem) (n : Nat) :
    s.cancelEntry n = s ∧ s.entry? n = none ∨
      ∃ e, s.entry? n = some e ∧
        (s.cancelEntry n = s.modifyEntry n Entry.cancel ∨
          ∃ r, s.cancelEntry n = (s.modifyEntry n Entry.cancel).cancelJob r) := by
  unfold cancelEntry
  split
  · next none => exact .inl ⟨rfl, none⟩
  · next e found =>
      refine .inr ⟨e, found, ?_⟩
      dsimp only
      split
      · next r _ => exact .inr ⟨r, rfl⟩
      · exact .inl rfl

/-- A cancelled entry stays one, and nothing is done to the others. -/
theorem entry?_cancelEntry (s : ActorSystem) (n m : Nat) :
    entry? (s.cancelEntry n) m = if n = m then (s.entry? m).map Entry.cancel else s.entry? m := by
  rcases s.cancelEntry_cases n with ⟨same, none⟩ | ⟨e, -, same | ⟨r, same⟩⟩
  · rw [same]
    split
    · next h => rw [← h, none]; rfl
    · rfl
  · rw [same]
    exact entry?_modifyEntry s n Entry.cancel m
  · rw [same]
    exact entry?_modifyEntry s n Entry.cancel m

theorem manager?_cancelEntry (s : ActorSystem) (n m : Nat) :
    (s.cancelEntry n).manager? m = s.manager? m := by
  rcases s.cancelEntry_cases n with ⟨same, -⟩ | ⟨e, -, same | ⟨r, same⟩⟩
  · rw [same]
  · rw [same]
    rfl
  · rw [same]
    rfl

theorem manager?_scheduleEntry (s : ActorSystem) (now m n : Nat) (delay : Duration) (k : Nat) :
    (s.scheduleEntry now m n delay).manager? k = s.manager? k := by
  rcases s.scheduleEntry_cases now m n delay with same | ⟨e, k, -, -, -, same⟩
  · rw [same]
  · rw [same]
    rfl

/-- Scheduling a firing changes the entry only in what was scheduled last. -/
theorem entry?_scheduleEntry (s : ActorSystem) (now m n : Nat) (delay : Duration) (k : Nat) :
    entry? (s.scheduleEntry now m n delay) k = s.entry? k ∨
      ∃ e r, s.entry? k = some e ∧
        entry? (s.scheduleEntry now m n delay) k = some { e with latest := some r } := by
  rcases s.scheduleEntry_cases now m n delay with same | ⟨e, c, found, -, -, same⟩
  · exact .inl (by rw [same])
  · rw [same, entry?_modifyEntry]
    by_cases here : n = k
    · subst here
      rw [if_pos rfl]
      exact .inr ⟨e, _, found, congrArg (Option.map _) found⟩
    · rw [if_neg here]
      exact .inl rfl

/-- What scheduling a firing comes to where nothing stands in its way. -/
theorem scheduleEntry_of_live {s : ActorSystem} {m n : Nat} {e : Entry} {k : Manager}
    (found : s.entry? n = some e) (alive : e.cancelled = false) (manages : s.manager? m = some k)
    (now : Nat) (delay : Duration) : s.scheduleEntry now m n delay =
      (s.schedule now k.scheduler (.firing m n) delay).2.modifyEntry n fun e =>
        { e with latest := some (s.schedule now k.scheduler (.firing m n) delay).1 } := by
  rw [scheduleEntry, found, manages]
  simp [alive]

theorem stopped_scheduleEntry (s : ActorSystem) (now m n : Nat) (delay : Duration) (k : Nat) :
    ((s.scheduleEntry now m n delay).scheduler k).stopped = (s.scheduler k).stopped := by
  rcases s.scheduleEntry_cases now m n delay with same | ⟨e, c, -, -, -, same⟩
  · rw [same]
  · rw [same, scheduler_modifyEntry, stopped_schedule]

/-! ### Jobs and entries together -/

@[simp] theorem job?_modifyEntry (s : ActorSystem) (n : Nat) (f : Entry → Entry) (q : JobRef) :
    (s.modifyEntry n f).job? q = s.job? q := rfl

@[simp] theorem job?_modifyManager (s : ActorSystem) (m : Nat) (f : Manager → Manager)
    (q : JobRef) : (s.modifyManager m f).job? q = s.job? q := rfl

@[simp] theorem job?_alert (s : ActorSystem) (jobs : List JobRef) (q : JobRef) :
    (s.alert jobs).job? q = s.job? q := rfl

/-- Cancelling an entry cancels at most one job, which does not start it or end it. -/
theorem job?_cancelEntry (s : ActorSystem) (n : Nat) (q : JobRef) :
    (s.cancelEntry n).job? q = s.job? q ∨
      (s.cancelEntry n).job? q = (s.job? q).map fun j => { j with cancelled := true } := by
  rcases s.cancelEntry_cases n with ⟨same, -⟩ | ⟨e, -, same | ⟨r, same⟩⟩
  · exact .inl (by rw [same])
  · exact .inl (by rw [same]; rfl)
  · rw [same, job?_cancelJob]
    split
    · exact .inr rfl
    · exact .inl rfl

/-- Scheduling a firing of an entry adds at most that firing to the jobs. -/
theorem job?_scheduleEntry {s : ActorSystem} (h : s.Numbered) (now m n : Nat) (delay : Duration)
    (q : JobRef) : (s.scheduleEntry now m n delay).job? q = s.job? q ∨
      s.job? q = none ∧ ∃ j, (s.scheduleEntry now m n delay).job? q = some j ∧
        j.duty = .firing m n ∧ j.phase = .waiting := by
  rcases s.scheduleEntry_cases now m n delay with same | ⟨e, k, -, -, -, same⟩
  · exact .inl (by rw [same])
  · rw [same, job?_modifyEntry]
    by_cases live : s.Live k.scheduler
    · rw [job?_schedule_of_live live]
      split
      · next new =>
          refine .inr ⟨?_, _, rfl, rfl, rfl⟩
          rw [new, job?]
          exact (h k.scheduler).job?_eq_none (Nat.lt_succ_self _)
      · exact .inl rfl
    · exact .inl (job?_schedule_of_not_live live _ _ _ q)

theorem Numbered.scheduleEntry {s : ActorSystem} (h : s.Numbered) (now m n : Nat)
    (delay : Duration) : (s.scheduleEntry now m n delay).Numbered := by
  rcases s.scheduleEntry_cases now m n delay with same | ⟨e, k, -, -, -, same⟩
  · rw [same]
    exact h
  · rw [same]
    exact h.schedule now k.scheduler (.firing m n) delay

theorem Numbered.cancelEntry {s : ActorSystem} (h : s.Numbered) (n : Nat) :
    (s.cancelEntry n).Numbered := by
  rcases s.cancelEntry_cases n with ⟨same, -⟩ | ⟨e, -, same | ⟨r, same⟩⟩
  · rw [same]
    exact h
  · rw [same]
    exact h
  · rw [same]
    exact Numbered.cancelJob (s := s.modifyEntry n Entry.cancel) h r

/-- A firing that is scheduled waits for its time. -/
theorem job?_scheduleEntry_of_live {s : ActorSystem} {m n : Nat} {e : Entry} {k : Manager}
    (found : s.entry? n = some e) (alive : e.cancelled = false) (manages : s.manager? m = some k)
    (live : s.Live k.scheduler) (now : Nat) (delay : Duration) (q : JobRef) :
    (s.scheduleEntry now m n delay).job? q =
      if q = ⟨k.scheduler, (s.scheduler k.scheduler).jobs.length + 1⟩ then
        some ⟨(s.scheduler k.scheduler).jobs.length + 1, .firing m n, now + delay.timer, false,
          .waiting⟩
      else s.job? q := by
  rw [scheduleEntry_of_live found alive manages, job?_modifyEntry, job?_schedule_of_live live]

/-! ### Moves -/

theorem move_of_found {s : ActorSystem} {n : Nat} {e : Entry} (found : s.entry? n = some e)
    (f : Entry → Move) : s.move n f =
      ((f e).arrival, (s.modifyEntry n fun _ => (f e).entry).alert (f e).handed.toList) := by
  rw [move, found]

theorem leave_of_found {s : ActorSystem} {n : Nat} {e : Entry} (found : s.entry? n = some e) :
    s.leave n = (s.modifyEntry n fun _ => e.leave.2).alert e.leave.1.toList := by
  rw [leave, found]

end RecurringWork.ActorSystem
