import RecurringWork.Time

/-!
# RecurringWork.Scheduler

**Jobs that start after a delay.** A scheduler numbers the jobs it accepts from 1 on.
A job waits until it is due, then starts, and some time later ends. While it waits it
can be cancelled, alone or together with all others by stopping the scheduler; then
it ends without having started. Once it has started, nothing here touches it any
more. A stopped scheduler accepts no jobs.

Time is counted in milliseconds from any start. The scheduler does not move it:
whoever does asks it, job by job, what there is to do (`Scheduler.attend`).
-/

namespace RecurringWork

/-- Where a job is. -/
inductive JobPhase
  /-- It has not started. -/
  | waiting
  /-- It has started and not ended. -/
  | started
  /-- It will not do anything any more. -/
  | ended
  deriving DecidableEq, Repr

/-- Work handed to a scheduler. -/
structure Job (α : Type) where
  number : Nat
  duty : α
  /-- The time from which on it may start. -/
  due : Nat
  /-- It was cancelled by itself. -/
  cancelled : Bool
  phase : JobPhase
  deriving Repr

/-- Starts jobs after their delays. -/
structure Scheduler (α : Type) where
  /-- The jobs accepted so far, the latest first. -/
  jobs : List (Job α)
  stopped : Bool
  deriving Repr

/-- What there is to do for a job. -/
inductive Attention (α : Type)
  /-- It starts now. -/
  | begin (duty : α)
  /-- It waits until it is due. -/
  | rest (due : Nat)
  /-- It was cancelled, or has started before. -/
  | over
  deriving Repr

namespace Scheduler

def empty {α : Type} : Scheduler α := ⟨[], false⟩

/-- The job of a number. No job has the number 0. -/
def job? {α : Type} (s : Scheduler α) (n : Nat) : Option (Job α) :=
  s.jobs.find? fun j => j.number == n

/-- Accept a job, unless the scheduler is stopped. The answer is its number, 0 if it is
refused. -/
def schedule {α : Type} (s : Scheduler α) (now : Nat) (duty : α) (delay : Duration) :
    Nat × Scheduler α :=
  if s.stopped then (0, s)
  else
    let number := s.jobs.length + 1
    (number, { s with jobs := ⟨number, duty, now + delay.timer, false, .waiting⟩ :: s.jobs })

/-- The job of a number will not start. -/
def isCancelled {α : Type} (s : Scheduler α) (n : Nat) : Bool :=
  s.stopped || (s.job? n).all Job.cancelled

/-- Change the first of some jobs that has a number. -/
def modifyFirst {α : Type} (n : Nat) (f : Job α → Job α) : List (Job α) → List (Job α)
  | [] => []
  | j :: rest => if j.number = n then f j :: rest else j :: modifyFirst n f rest

/-- Change the job of a number. -/
def modify {α : Type} (s : Scheduler α) (n : Nat) (f : Job α → Job α) : Scheduler α :=
  { s with jobs := modifyFirst n f s.jobs }

def cancel {α : Type} (s : Scheduler α) (n : Nat) : Scheduler α :=
  s.modify n fun j => { j with cancelled := true }

/-- Cancel all jobs and accept no more. -/
def stop {α : Type} (s : Scheduler α) : Scheduler α := { s with stopped := true }

/-- The jobs that wait, the earliest first. -/
def waiting {α : Type} (s : Scheduler α) : List (Job α) :=
  (s.jobs.filter fun j => j.phase == .waiting).reverse

/-- The number of jobs that have not ended. -/
def active {α : Type} (s : Scheduler α) : Nat := (s.jobs.filter fun j => j.phase != .ended).length

/-- Nothing runs and nothing will. -/
def isDrained {α : Type} (s : Scheduler α) : Bool := s.stopped && s.active == 0

/-- The job of a number has ended. -/
def finish {α : Type} (s : Scheduler α) (n : Nat) : Scheduler α :=
  s.modify n fun j => { j with phase := .ended }

/-- What there is to do for a job. A cancellation comes before the start, even if the
job is due. -/
def attend {α : Type} (s : Scheduler α) (now n : Nat) : Attention α × Scheduler α :=
  match s.job? n with
  | none => (.over, s)
  | some j =>
      if j.phase != .waiting then (.over, s)
      -- Whoever cancels in time is certain that the job does not start.
      else if s.isCancelled n then (.over, s.finish n)
      else if j.due ≤ now then (.begin j.duty, s.modify n fun j => { j with phase := .started })
      else (.rest j.due, s)

/-- A stopped scheduler accepts nothing. -/
theorem schedule_of_stopped {α : Type} {s : Scheduler α} (h : s.stopped) (now : Nat) (duty : α)
    (delay : Duration) : s.schedule now duty delay = (0, s) := by
  simp [schedule, h]

@[simp] theorem stopped_modify {α : Type} (s : Scheduler α) (n : Nat) (f : Job α → Job α) :
    (s.modify n f).stopped = s.stopped := rfl

/-- Changing a job keeps the others. -/
theorem job?_modify_of_ne {α : Type} {s : Scheduler α} {n m : Nat} {f : Job α → Job α}
    (h : n ≠ m) (keeps : ∀ j, (f j).number = j.number) :
    (s.modify n f).job? m = s.job? m := by
  simp only [job?, modify]
  induction s.jobs with
  | nil => rfl
  | cons j rest ih =>
      unfold modifyFirst
      split
      · next hn =>
          have hm : j.number ≠ m := fun e => h (hn.symm.trans e)
          simp [keeps, hm]
      · simp only [List.find?_cons, ih]

/-- Changing a job changes what is found under its number. -/
theorem job?_modify_self {α : Type} {s : Scheduler α} {n : Nat} {f : Job α → Job α}
    (keeps : ∀ j, (f j).number = j.number) : (s.modify n f).job? n = (s.job? n).map f := by
  simp only [job?, modify]
  induction s.jobs with
  | nil => rfl
  | cons j rest ih =>
      unfold modifyFirst
      split
      · next hn => simp [keeps, hn]
      · next hn =>
          rw [List.find?_cons_of_neg (by simpa using hn), List.find?_cons_of_neg (by simpa using hn)]
          exact ih

/-- No number is beyond the number of jobs. -/
def Numbered {α : Type} (s : Scheduler α) : Prop := ∀ j ∈ s.jobs, j.number ≤ s.jobs.length

theorem numbered_empty {α : Type} : (empty : Scheduler α).Numbered := fun _ h => by cases h

theorem length_modifyFirst {α : Type} (n : Nat) (f : Job α → Job α) (jobs : List (Job α)) :
    (modifyFirst n f jobs).length = jobs.length := by
  induction jobs with
  | nil => rfl
  | cons j rest ih =>
      unfold modifyFirst
      split
      · rfl
      · rw [List.length_cons, List.length_cons, ih]

theorem mem_modifyFirst {α : Type} {n : Nat} {f : Job α → Job α} {jobs : List (Job α)} {j : Job α}
    (h : j ∈ modifyFirst n f jobs) : j ∈ jobs ∨ ∃ i ∈ jobs, j = f i := by
  induction jobs with
  | nil => cases h
  | cons i rest ih =>
      unfold modifyFirst at h
      split at h
      · rcases List.mem_cons.mp h with rfl | h
        · exact .inr ⟨i, List.mem_cons_self, rfl⟩
        · exact .inl (List.mem_cons_of_mem _ h)
      · rcases List.mem_cons.mp h with rfl | h
        · exact .inl List.mem_cons_self
        · rcases ih h with old | ⟨k, mem, eq⟩
          · exact .inl (List.mem_cons_of_mem _ old)
          · exact .inr ⟨k, List.mem_cons_of_mem _ mem, eq⟩

theorem Numbered.modify {α : Type} {s : Scheduler α} (h : s.Numbered) {n : Nat}
    {f : Job α → Job α} (keeps : ∀ j, (f j).number = j.number) : (s.modify n f).Numbered := by
  intro j mem
  show j.number ≤ (modifyFirst n f s.jobs).length
  rw [length_modifyFirst]
  rcases mem_modifyFirst mem with old | ⟨i, source, rfl⟩
  · exact h j old
  · rw [keeps]
    exact h i source

theorem Numbered.schedule {α : Type} {s : Scheduler α} (h : s.Numbered) (now : Nat) (duty : α)
    (delay : Duration) : (s.schedule now duty delay).2.Numbered := by
  unfold Scheduler.schedule
  split
  · exact h
  · intro j mem
    show j.number ≤ s.jobs.length + 1
    rcases List.mem_cons.mp mem with rfl | mem
    · exact Nat.le_refl _
    · exact Nat.le_succ_of_le (h j mem)

/-- A job that is accepted is found under its number, and the others as before. -/
theorem job?_schedule {α : Type} {s : Scheduler α} (open_ : s.stopped = false) (now : Nat)
    (duty : α) (delay : Duration) (n : Nat) :
    (s.schedule now duty delay).2.job? n =
      if n = s.jobs.length + 1 then
        some ⟨s.jobs.length + 1, duty, now + delay.timer, false, .waiting⟩
      else s.job? n := by
  unfold Scheduler.schedule
  rw [open_]
  simp only [Bool.false_eq_true, if_false, job?, List.find?_cons]
  by_cases h : n = s.jobs.length + 1
  · rw [if_pos h]
    simp [h]
  · rw [if_neg h]
    have : (s.jobs.length + 1 == n) = false := by simpa using fun e => h e.symm
    rw [this]

theorem Numbered.job?_eq_none {α : Type} {s : Scheduler α} (h : s.Numbered) {n : Nat}
    (beyond : s.jobs.length < n) : s.job? n = none := by
  unfold job?
  rw [List.find?_eq_none]
  intro j mem
  have := h j mem
  simp only [beq_iff_eq]
  omega

/-- What there is to do for a job that begins. -/
theorem attend_begin_inv {α : Type} {s t : Scheduler α} {now n : Nat} {duty : α}
    (h : s.attend now n = (.begin duty, t)) :
    ∃ j, s.job? n = some j ∧ j.phase = .waiting ∧ j.duty = duty ∧ j.due ≤ now ∧
      j.cancelled = false ∧ t = s.modify n fun j => { j with phase := .started } := by
  unfold attend at h
  split at h
  · cases h
  · next j found =>
      split at h
      · cases h
      · next waits =>
          split at h
          · cases h
          · next kept =>
              split at h
              · next due =>
                  cases h
                  rw [isCancelled, found, Bool.or_eq_true, not_or] at kept
                  exact ⟨j, found, by simpa using waits, rfl, due, by simpa using kept.2, rfl⟩
              · cases h

/-- A job that is due begins, unless it was cancelled. -/
theorem attend_of_due {α : Type} {s : Scheduler α} {now n : Nat} {j : Job α}
    (found : s.job? n = some j) (waits : j.phase = .waiting) (live : j.cancelled = false)
    (open_ : s.stopped = false) (due : j.due ≤ now) :
    s.attend now n = (.begin j.duty, s.modify n fun j => { j with phase := .started }) := by
  have kept : s.isCancelled n = false := by
    rw [isCancelled, open_, found]
    exact live
  unfold attend
  rw [found, kept]
  simp [waits, due]

/-- Nothing begins any more once the scheduler is stopped. -/
theorem attend_of_stopped {α : Type} {s : Scheduler α} (h : s.stopped) (now n : Nat) :
    (s.attend now n).1 = .over := by
  unfold attend
  split
  · rfl
  · split
    · rfl
    · simp [isCancelled, h]

/-- A job for which there is nothing to do ends, if it has not started before. -/
theorem attend_over_inv {α : Type} {s t : Scheduler α} {now n : Nat}
    (h : s.attend now n = (.over, t)) : t = s ∨
      ∃ j, s.job? n = some j ∧ j.phase = .waiting ∧ s.isCancelled n = true ∧ t = s.finish n := by
  unfold attend at h
  split at h
  · cases h
    exact .inl rfl
  · next j found =>
      split at h
      · cases h
        exact .inl rfl
      · next waits =>
          split at h
          · next dead =>
              cases h
              exact .inr ⟨j, found, by simpa using waits, dead, rfl⟩
          · split at h
            · cases h
            · cases h

end Scheduler

/-- What is reported of a scheduler that was stopped. -/
structure Drain where
  /-- Everything that had started ended in time. -/
  complete : Bool
  /-- The number of jobs that had not. -/
  running : Nat
  deriving DecidableEq, Repr

namespace Scheduler

/-- The report on a scheduler, as things are. -/
def drain {α : Type} (s : Scheduler α) : Drain :=
  if s.isDrained then ⟨true, 0⟩ else ⟨false, s.active⟩

end Scheduler

end RecurringWork
