import Mathlib.Data.List.Nodup
import RecurringWork.Proofs.Actor.Tables

/-!
# RecurringWork.Proofs.Scheduler.Orderly

**What the tables of schedulers keep by themselves.** Jobs have numbers of their own, and a job
that waits on a stopped scheduler has been alerted, namely to end (`ActorSystem.Orderly`). A
stopped scheduler stays stopped, and no job comes to wait on it (`ActorSystem.Fades`). Both are
shown for each thing that can be done with a job or a scheduler.
-/

namespace RecurringWork

namespace Scheduler

variable {α : Type} {s : Scheduler α} {n : Nat}

/-- No two jobs have one number. -/
def Distinct (s : Scheduler α) : Prop := (s.jobs.map Job.number).Nodup

theorem map_number_modify {f : Job α → Job α} (keeps : ∀ j, (f j).number = j.number) :
    (s.modify n f).jobs.map Job.number = s.jobs.map Job.number := by
  unfold modify
  dsimp only
  induction s.jobs with
  | nil => rfl
  | cons j rest ih =>
      unfold modifyFirst
      split
      · rw [List.map_cons, List.map_cons, keeps]
      · rw [List.map_cons, List.map_cons, ih]

theorem Distinct.modify (h : s.Distinct) {f : Job α → Job α}
    (keeps : ∀ j, (f j).number = j.number) : (s.modify n f).Distinct := by
  unfold Distinct
  rw [map_number_modify keeps]
  exact h

theorem Distinct.schedule (h : s.Distinct) (numbered : s.Numbered) (now : Nat) (duty : α)
    (delay : Duration) : (s.schedule now duty delay).2.Distinct := by
  unfold Scheduler.schedule
  split
  · exact h
  · refine List.nodup_cons.mpr ⟨fun mem => ?_, h⟩
    obtain ⟨j, here, number⟩ := List.mem_map.mp mem
    have number : j.number = s.jobs.length + 1 := number
    have bound := numbered j here
    omega

/-- A job is found under its number. -/
theorem Distinct.job?_of_mem (h : s.Distinct) {j : Job α} (mem : j ∈ s.jobs) :
    s.job? j.number = some j := by
  have some_ : (s.job? j.number).isSome := List.find?_isSome.mpr ⟨j, mem, by simp⟩
  obtain ⟨i, found⟩ := Option.isSome_iff_exists.mp some_
  have number : i.number = j.number := by simpa using List.find?_some found
  rw [found, List.inj_on_of_nodup_map h (List.mem_of_find?_eq_some found) mem number]

/-- Whatever a stopped scheduler is asked about does not wait any more. -/
theorem phase_attend_of_stopped (closed : s.stopped) (now : Nat) {j : Job α}
    (found : (s.attend now n).2.job? n = some j) : j.phase ≠ .waiting := by
  unfold attend at found
  split at found
  · next none =>
      rw [none] at found
      cases found
  · next i here =>
      split at found
      · next settled =>
          rw [here] at found
          cases found
          simpa using settled
      · have dead : s.isCancelled n = true := by simp [isCancelled, closed]
        rw [if_pos dead] at found
        have ended := job?_modify_self (s := s) (n := n)
          (f := fun j => { j with phase := .ended }) fun _ => rfl
        rw [here] at ended
        obtain rfl := Option.some.inj (found.symm.trans ended)
        exact JobPhase.noConfusion

theorem stopped_attend (s : Scheduler α) (now n : Nat) :
    (s.attend now n).2.stopped = s.stopped := by
  unfold attend
  repeat' split
  all_goals rfl

/-- What there is to do for a job depends on the job, and on whether its scheduler is stopped. -/
theorem attend_congr {t : Scheduler α} (job : t.job? n = s.job? n) (stopped : t.stopped = s.stopped)
    (now : Nat) : (t.attend now n).1 = (s.attend now n).1 := by
  have dead : t.isCancelled n = s.isCancelled n := by rw [isCancelled, isCancelled, job, stopped]
  unfold attend
  rw [job, dead]
  repeat' split
  all_goals rfl

end Scheduler

namespace ActorSystem

variable {s t u : ActorSystem} {r q : JobRef} {j : Job Duty} {k : Nat}

/-- Change a job. -/
def modifyJob (s : ActorSystem) (r : JobRef) (f : Job Duty → Job Duty) : ActorSystem :=
  s.modifyScheduler r.scheduler fun c => c.modify r.number f

/-- A job has been attended to. -/
def heard (s : ActorSystem) (r : JobRef) : ActorSystem :=
  { s with alerts := s.alerts.filter fun q => q ≠ r }

/-- Jobs have numbers of their own, and one that waits on a stopped scheduler has been alerted. -/
structure Orderly (s : ActorSystem) : Prop where
  numbered : s.Numbered
  distinct : ∀ k, (s.scheduler k).Distinct
  alerted : ∀ {r j}, s.job? r = some j → j.phase = .waiting →
    (s.scheduler r.scheduler).stopped = true → r ∈ s.alerts

/-- No job comes to wait on a scheduler that is stopped, and none is opened again. -/
structure Fades (s t : ActorSystem) : Prop where
  stopped : ∀ {k}, (s.scheduler k).stopped = true → (t.scheduler k).stopped = true
  waiting : ∀ {r j}, t.job? r = some j → j.phase = .waiting →
    (s.scheduler r.scheduler).stopped = true → ∃ i, s.job? r = some i ∧ i.phase = .waiting

theorem Fades.refl (s : ActorSystem) : s.Fades s := ⟨id, fun found waits _ => ⟨_, found, waits⟩⟩

/-! ### Changes of single jobs -/

theorem stopped_modifyJob (s : ActorSystem) (r : JobRef) (f : Job Duty → Job Duty) (k : Nat) :
    ((s.modifyJob r f).scheduler k).stopped = (s.scheduler k).stopped := by
  rw [modifyJob, scheduler_modifyScheduler]
  split <;> rfl

theorem job?_modifyJob {f : Job Duty → Job Duty} (keeps : ∀ j, (f j).number = j.number) :
    (s.modifyJob r f).job? q = if q = r then (s.job? q).map f else s.job? q :=
  job?_modifyScheduler_modify keeps q

/-- A job that waits after a change has waited before it, if nothing is made to wait. -/
theorem waiting_of_modifyJob {f : Job Duty → Job Duty} (keeps : ∀ j, (f j).number = j.number)
    (settles : ∀ j, (f j).phase = .waiting → j.phase = .waiting)
    (found : (s.modifyJob r f).job? q = some j) (waits : j.phase = .waiting) :
    ∃ i, s.job? q = some i ∧ i.phase = .waiting := by
  rw [job?_modifyJob keeps] at found
  split at found
  · obtain ⟨i, here, rfl⟩ := Option.map_eq_some_iff.mp found
    exact ⟨i, here, settles i waits⟩
  · exact ⟨j, found, waits⟩

theorem fades_modifyJob {f : Job Duty → Job Duty} (keeps : ∀ j, (f j).number = j.number)
    (settles : ∀ j, (f j).phase = .waiting → j.phase = .waiting) : s.Fades (s.modifyJob r f) where
  stopped := fun {k} closed => (stopped_modifyJob s r f k).trans closed
  waiting := fun found waits _ => waiting_of_modifyJob keeps settles found waits

theorem Orderly.modifyJob (h : s.Orderly) {f : Job Duty → Job Duty}
    (keeps : ∀ j, (f j).number = j.number)
    (settles : ∀ j, (f j).phase = .waiting → j.phase = .waiting) :
    (s.modifyJob r f).Orderly where
  numbered := Numbered.modifyScheduler h.numbered ((h.numbered r.scheduler).modify keeps)
  distinct := by
    intro k
    rw [ActorSystem.modifyJob, scheduler_modifyScheduler]
    split
    · exact (h.distinct k).modify keeps
    · exact h.distinct k
  alerted := by
    intro q j found waits closed
    rw [stopped_modifyJob] at closed
    obtain ⟨i, before, waited⟩ := waiting_of_modifyJob keeps settles found waits
    exact h.alerted before waited closed

/-! ### Alerts -/

theorem Orderly.alert (h : s.Orderly) (jobs : List JobRef) : (s.alert jobs).Orderly :=
  ⟨h.numbered, h.distinct, fun found waits closed =>
    List.mem_append_left jobs (h.alerted found waits closed)⟩

theorem Orderly.hear (h : s.Orderly) (settled : ∀ {j}, s.job? r = some j → j.phase = .waiting →
    (s.scheduler r.scheduler).stopped = false) : (s.heard r).Orderly where
  numbered := h.numbered
  distinct := h.distinct
  alerted := by
    intro q j found waits closed
    refine List.mem_filter.mpr ⟨h.alerted found waits closed, decide_eq_true ?_⟩
    rintro rfl
    have open_ : (s.scheduler q.scheduler).stopped = false := settled found waits
    have closed : (s.scheduler q.scheduler).stopped = true := closed
    rw [open_] at closed
    cases closed

/-! ### What is done with jobs and schedulers -/

theorem Orderly.cancelJob (h : s.Orderly) (r : JobRef) : (s.cancelJob r).Orderly :=
  Orderly.alert (h.modifyJob (f := fun j => { j with cancelled := true }) (fun _ => rfl)
    fun _ => id) _

theorem Orderly.finishJob (h : s.Orderly) (r : JobRef) : (s.finishJob r).Orderly :=
  h.modifyJob (f := fun j => { j with phase := .ended }) (fun _ => rfl) nofun

theorem fades_cancelJob (s : ActorSystem) (r : JobRef) : s.Fades (s.cancelJob r) := by
  have fades : s.Fades (s.modifyJob r fun j => { j with cancelled := true }) :=
    fades_modifyJob (fun _ => rfl) fun _ => id
  exact ⟨fades.stopped, fades.waiting⟩

theorem fades_finishJob (s : ActorSystem) (r : JobRef) : s.Fades (s.finishJob r) :=
  fades_modifyJob (f := fun j => { j with phase := .ended }) (fun _ => rfl) nofun

/-- A stopped scheduler refuses a job, and nothing changes. -/
theorem schedule_of_stopped (closed : (s.scheduler k).stopped = true) (now : Nat) (duty : Duty)
    (delay : Duration) : s.schedule now k duty delay = (⟨k, 0⟩, s) := by
  unfold schedule
  rw [Scheduler.schedule_of_stopped closed]
  dsimp only
  rw [if_pos rfl, modifyScheduler_self, alert, List.append_nil]

/-- A job is accepted under the next number. -/
theorem schedule_of_open (open_ : (s.scheduler k).stopped = false) (now : Nat) (duty : Duty)
    (delay : Duration) :
    (s.schedule now k duty delay).1 = ⟨k, (s.scheduler k).jobs.length + 1⟩ := by
  unfold schedule Scheduler.schedule
  rw [open_]
  rfl

theorem Orderly.schedule (h : s.Orderly) (known : k < s.schedulers.length) (now : Nat) (duty : Duty)
    (delay : Duration) :
    (s.schedule now k duty delay).2.Orderly ∧ s.Fades (s.schedule now k duty delay).2 := by
  cases closed : (s.scheduler k).stopped with
  | true =>
      rw [schedule_of_stopped closed]
      exact ⟨h, .refl s⟩
  | false =>
      have live : s.Live k := ⟨known, closed⟩
      have jobs := job?_schedule_of_live live now duty delay
      have stopped := s.stopped_schedule now k duty delay
      -- The job that is new waits on a scheduler that is open.
      have before : ∀ {q j}, (s.schedule now k duty delay).2.job? q = some j →
          (s.scheduler q.scheduler).stopped = true → s.job? q = some j := by
        intro q j found closed'
        rw [jobs] at found
        split at found
        · next new =>
            subst new
            rw [closed] at closed'
            cases closed'
        · exact found
      refine ⟨⟨h.numbered.schedule now k duty delay, fun n => ?_, fun found waits closed' => ?_⟩,
        fun {n} closed' => (stopped n).trans closed', fun found waits closed' =>
          ⟨_, before found closed', waits⟩⟩
      · show ((s.modifyScheduler k fun _ => ((s.scheduler k).schedule now duty
          delay).2).scheduler n).Distinct
        rw [scheduler_modifyScheduler]
        split
        · exact (h.distinct k).schedule (h.numbered k) now duty delay
        · exact h.distinct n
      · rw [stopped] at closed'
        exact List.mem_append_left _ (h.alerted (before found closed') waits closed')

theorem stopped_stopScheduler (s : ActorSystem) (k n : Nat) :
    ((s.stopScheduler k).scheduler n).stopped =
      if k = n ∧ n < s.schedulers.length then true else (s.scheduler n).stopped := by
  show ((s.modifyScheduler k Scheduler.stop).scheduler n).stopped = _
  rw [scheduler_modifyScheduler]
  split <;> rfl

theorem Orderly.stopScheduler (h : s.Orderly) (k : Nat) : (s.stopScheduler k).Orderly where
  numbered := h.numbered.stopScheduler k
  distinct := by
    intro n
    show ((s.modifyScheduler k Scheduler.stop).scheduler n).Distinct
    rw [scheduler_modifyScheduler]
    split <;> exact h.distinct n
  alerted := by
    intro r j found waits closed
    rw [job?_stopScheduler] at found
    rw [stopped_stopScheduler] at closed
    by_cases here : k = r.scheduler
    · -- Every job that waits on the scheduler is alerted now.
      subst here
      refine List.mem_append_right _ (List.mem_map.mpr ⟨j, ?_, ?_⟩)
      · refine List.mem_reverse.mpr (List.mem_filter.mpr ⟨List.mem_of_find?_eq_some found, ?_⟩)
        rw [waits]
        rfl
      · have number : j.number = r.number := by simpa using List.find?_some found
        rw [number]
    · rw [if_neg fun both => here both.1] at closed
      exact List.mem_append_left _ (h.alerted found waits closed)

theorem fades_stopScheduler (s : ActorSystem) (k : Nat) : s.Fades (s.stopScheduler k) where
  stopped := by
    intro n closed
    rw [stopped_stopScheduler]
    split
    · rfl
    · exact closed
  waiting := by
    intro r j found waits _
    rw [job?_stopScheduler] at found
    exact ⟨j, found, waits⟩

/-- To attend to a job is to start it, to end it or to leave it. -/
theorem attend_cases (s : ActorSystem) (now : Nat) (r : JobRef) :
    (∃ duty, (s.attend now r).1 = .begin duty ∧
      (s.attend now r).2 = s.modifyJob r fun j => { j with phase := .started }) ∨
    ((∀ duty, (s.attend now r).1 ≠ .begin duty) ∧
      (∃ j, s.job? r = some j ∧ j.phase = .waiting ∧
        (j.cancelled = true ∨ (s.scheduler r.scheduler).stopped = true)) ∧
      (s.attend now r).2 = s.finishJob r) ∨
    (∀ duty, (s.attend now r).1 ≠ .begin duty) ∧ (s.attend now r).2 = s := by
  match attention : (s.attend now r).1 with
  | .begin duty => exact .inl ⟨duty, rfl, (attend_begin_inv (Prod.ext attention rfl)).2⟩
  | .over =>
      rcases attend_over_inv (t := (s.attend now r).2) (Prod.ext attention rfl) with
        same | ⟨lapses, ended⟩
      · exact .inr (.inr ⟨nofun, same⟩)
      · exact .inr (.inl ⟨nofun, lapses, ended⟩)
  | .rest due =>
      refine .inr (.inr ⟨nofun, ?_⟩)
      have kept : ((s.scheduler r.scheduler).attend now r.number).2 = s.scheduler r.scheduler := by
        have rests : ((s.scheduler r.scheduler).attend now r.number).1 = .rest due := attention
        unfold Scheduler.attend at rests ⊢
        repeat' split
        all_goals simp_all
      show (s.modifyScheduler r.scheduler fun _ =>
        ((s.scheduler r.scheduler).attend now r.number).2) = s
      rw [kept, modifyScheduler_self]

/-- What has been attended to on a stopped scheduler does not wait any more. -/
theorem phase_attend_of_stopped {now : Nat}
    (closed : ((s.attend now r).2.scheduler r.scheduler).stopped = true)
    (found : (s.attend now r).2.job? r = some j) : j.phase ≠ .waiting := by
  have attended : (s.attend now r).2.scheduler r.scheduler =
      if r.scheduler < s.schedulers.length then
        ((s.scheduler r.scheduler).attend now r.number).2
      else s.scheduler r.scheduler := by
    show (s.modifyScheduler r.scheduler fun _ =>
      ((s.scheduler r.scheduler).attend now r.number).2).scheduler r.scheduler = _
    rw [scheduler_modifyScheduler]
    simp
  rw [job?, attended] at found
  rw [attended] at closed
  split at found
  · next known =>
      rw [if_pos known, Scheduler.stopped_attend] at closed
      exact Scheduler.phase_attend_of_stopped closed now found
  · next unknown =>
      rw [scheduler_of_le (Nat.le_of_not_lt unknown)] at found
      cases found

theorem Orderly.attend (h : s.Orderly) (now : Nat) (r : JobRef) :
    ((s.attend now r).2.heard r).Orderly ∧ s.Fades ((s.attend now r).2.heard r) := by
  have attended : (s.attend now r).2.Orderly ∧ s.Fades (s.attend now r).2 := by
    rcases s.attend_cases now r with ⟨duty, -, same⟩ | ⟨-, -, same⟩ | ⟨-, same⟩
    · rw [same]
      exact ⟨h.modifyJob (fun _ => rfl) nofun, fades_modifyJob (fun _ => rfl) nofun⟩
    · rw [same]
      exact ⟨h.finishJob r, s.fades_finishJob r⟩
    · rw [same]
      exact ⟨h, .refl s⟩
  refine ⟨attended.1.hear fun {j} found waits => ?_, attended.2.stopped, attended.2.waiting⟩
  cases closed : ((s.attend now r).2.scheduler r.scheduler).stopped with
  | false => rfl
  | true => exact absurd waits (phase_attend_of_stopped closed found)

end ActorSystem

end RecurringWork
