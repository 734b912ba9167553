import Mathlib.Logic.Relation
import RecurringWork.Proofs.Scheduler.Orderly

/-!
# RecurringWork.Proofs.Scheduler.Timetable

**Schedulers in use, in every order.** A `Timetable` is a system of schedulers with the time, with
those who wait for a stopped scheduler to be drained, and with a chronicle. Jobs are scheduled and
cancelled, schedulers are stopped, time passes, jobs are attended to, and those that have started
end, each at any moment.

Seen by itself, a job has a *life* (`Life`): it is accepted, may be cancelled, starts and ends, and
its scheduler may be stopped meanwhile. What the chronicle has of a job and what the tables have of
it are together a life, whatever happens to the others (`Timetable.Reachable.recorded`). So what is
true of lives is true of every job of every timetable.

Nothing is assumed about when jobs are attended to. What is reported of a stopped scheduler depends
on it: jobs that have been cancelled and not attended to since have not ended. `Timetable.Prompt`
says that time does not pass anybody by, neither them nor those who wait for the report.
-/

namespace RecurringWork

/-- What can happen to jobs and schedulers. -/
inductive Occurrence
  /-- A job was handed to a scheduler. If it was refused, its number is 0. -/
  | scheduled (job : JobRef) (delay : Duration)
  /-- A job was cancelled by itself. -/
  | cancelled (job : JobRef)
  | stopped (scheduler : Nat)
  | started (job : JobRef)
  | ended (job : JobRef)
  deriving DecidableEq

namespace Occurrence

/-- The job to which it happened. -/
def job? : Occurrence → Option JobRef
  | scheduled r _ | cancelled r | started r | ended r => some r
  | stopped _ => none

/-- It happened to the job or to its scheduler. -/
def concerns (r : JobRef) (o : Occurrence) : Bool := o.job? = some r ∨ o = .stopped r.scheduler

variable {r : JobRef} {o : Occurrence}

theorem concerns_of_job? (job : o.job? = some r) : o.concerns r :=
  decide_eq_true (.inl job)

/-- What happens to a job does not concern another one. -/
theorem concerns_of_ne (job : o.job? = some r) {q : JobRef} (other : q ≠ r) :
    o.concerns q = false := by
  refine decide_eq_false ?_
  rintro (same | stop)
  · exact other (Option.some.inj (same.symm.trans job))
  · rw [stop] at job
    cases job

theorem concerns_stopped (r : JobRef) (k : Nat) :
    (stopped k).concerns r = decide (k = r.scheduler) := by
  simp [concerns, job?]

end Occurrence

/-- What has happened and when, the latest first. -/
abbrev Chronicle := List (Nat × Occurrence)

/-- What has happened at any time. -/
def happened (c : Chronicle) : List Occurrence := c.map Prod.snd

/-- What concerns a job. -/
def own (r : JobRef) (c : Chronicle) : Chronicle := c.filter fun e => e.2.concerns r

section Chronicle

variable {r : JobRef} {c : Chronicle} {o : Occurrence} {at_ : Nat}

@[simp] theorem happened_cons (e : Nat × Occurrence) (c : Chronicle) :
    happened (e :: c) = e.2 :: happened c := rfl

theorem happened_own (r : JobRef) (c : Chronicle) :
    happened (own r c) = (happened c).filter (Occurrence.concerns r) := by
  rw [happened, happened, List.filter_map]
  rfl

theorem mem_happened_own (concerns : o.concerns r) :
    o ∈ happened (own r c) ↔ o ∈ happened c := by
  rw [happened_own, List.mem_filter]
  exact and_iff_left concerns

theorem count_happened_own (concerns : o.concerns r) :
    (happened (own r c)).count o = (happened c).count o := by
  rw [happened_own, List.count_filter concerns]

theorem mem_own (concerns : o.concerns r) : (at_, o) ∈ own r c ↔ (at_, o) ∈ c := by
  rw [own, List.mem_filter]
  exact and_iff_left concerns

theorem own_cons_of_concerns (concerns : o.concerns r) :
    own r ((at_, o) :: c) = (at_, o) :: own r c :=
  List.filter_cons_of_pos concerns

theorem own_cons_of_not (elsewhere : o.concerns r = false) : own r ((at_, o) :: c) = own r c :=
  List.filter_cons_of_neg (by simp [elsewhere])

end Chronicle

/-! ### The life of a job -/

/-- What can happen to a job, and what the tables have of it then. -/
inductive Life (r : JobRef) : Chronicle → Option (Job Duty) → Prop
  | unknown : Life r [] none
  /-- Its scheduler is stopped, which does nothing to the job yet. -/
  | closed {c : Chronicle} {j : Option (Job Duty)} (at_ : Nat) : Life r c j →
      Life r ((at_, .stopped r.scheduler) :: c) j
  | accepted (at_ : Nat) (duty : Duty) (delay : Duration) : r.number ≠ 0 →
      Life r [(at_, .scheduled r delay)]
        (some ⟨r.number, duty, at_ + delay.timer, false, .waiting⟩)
  /-- It is refused. There is one number for all that are. -/
  | refused {c : Chronicle} (at_ : Nat) (delay : Duration) : r.number = 0 →
      .stopped r.scheduler ∈ happened c → Life r c none →
      Life r ((at_, .scheduled r delay) :: c) none
  /-- One that was refused is cancelled. -/
  | declined {c : Chronicle} (at_ : Nat) : r.number = 0 → Life r c none →
      Life r ((at_, .cancelled r) :: c) none
  | cancelled {c : Chronicle} {j : Job Duty} (at_ : Nat) : Life r c (some j) →
      Life r ((at_, .cancelled r) :: c) (some { j with cancelled := true })
  | started {c : Chronicle} {j : Job Duty} (at_ : Nat) : j.phase = .waiting → j.cancelled = false →
      .stopped r.scheduler ∉ happened c → j.due ≤ at_ → Life r c (some j) →
      Life r ((at_, .started r) :: c) (some { j with phase := .started })
  /-- It ends without having started. -/
  | lapsed {c : Chronicle} {j : Job Duty} : j.phase = .waiting →
      (j.cancelled = true ∨ .stopped r.scheduler ∈ happened c) → Life r c (some j) →
      Life r c (some { j with phase := .ended })
  | ended {c : Chronicle} {j : Job Duty} (at_ : Nat) : j.phase = .started → Life r c (some j) →
      Life r ((at_, .ended r) :: c) (some { j with phase := .ended })

/-- The job was scheduled then, with this delay, and at no other time. -/
structure Planned (r : JobRef) (c : Chronicle) (since : Nat) (delay : Duration) : Prop where
  here : (since, .scheduled r delay) ∈ c
  once : ∀ e ∈ c, ∀ d, e.2 = .scheduled r d → e = (since, .scheduled r delay)

/-- What the chronicle tells of a job that the tables have. -/
structure Attested (r : JobRef) (c : Chronicle) (j : Job Duty) : Prop where
  numbered : r.number ≠ 0
  planned : ∃ since delay, Planned r c since delay ∧ j.due = since + delay.timer
  cancelled : .cancelled r ∈ happened c ↔ j.cancelled = true
  starts : (happened c).count (.started r) ≤ 1
  waiting : j.phase = .waiting → .started r ∉ happened c
  ended : .ended r ∈ happened c → j.phase = .ended
  running : j.phase = .started ↔ .started r ∈ happened c ∧ .ended r ∉ happened c
  lapsed : j.phase = .ended → .started r ∈ happened c ∨ .cancelled r ∈ happened c ∨
    .stopped r.scheduler ∈ happened c

/-- What the chronicle tells of a job that the tables do not have. -/
structure Unattested (r : JobRef) (c : Chronicle) : Prop where
  idle : .started r ∉ happened c
  refused : ∀ since delay, (since, .scheduled r delay) ∈ c →
    r.number = 0 ∧ .stopped r.scheduler ∈ happened c
  blank : r.number ≠ 0 → .stopped r.scheduler ∉ happened c → c = []

section Life

variable {r : JobRef} {c : Chronicle} {j : Job Duty} {at_ since : Nat} {delay : Duration}

theorem Planned.cons (h : Planned r c since delay) {o : Occurrence}
    (other : ∀ d, o ≠ .scheduled r d) : Planned r ((at_, o) :: c) since delay where
  here := List.mem_cons_of_mem _ h.here
  once := by
    intro e mem d same
    rcases List.mem_cons.mp mem with rfl | old
    · exact absurd same (other d)
    · exact h.once e old d same

/-- What happens to a job that has been accepted leaves its plan as it is. -/
theorem Attested.planned_cons (h : Attested r c j) {o : Occurrence}
    (other : ∀ d, o ≠ .scheduled r d) :
    ∃ since delay, Planned r ((at_, o) :: c) since delay ∧ j.due = since + delay.timer := by
  obtain ⟨since, delay, planned, due⟩ := h.planned
  exact ⟨since, delay, planned.cons other, due⟩

theorem Attested.closed (h : Attested r c j) : Attested r ((at_, .stopped r.scheduler) :: c) j where
  numbered := h.numbered
  planned := h.planned_cons nofun
  cancelled := by simpa using h.cancelled
  starts := by simpa using h.starts
  waiting := by simpa using h.waiting
  ended := by simpa using h.ended
  running := by simpa using h.running
  lapsed := by simp

theorem Attested.accept (duty : Duty) (numbered : r.number ≠ 0) :
    Attested r [(at_, .scheduled r delay)]
      ⟨r.number, duty, at_ + delay.timer, false, .waiting⟩ where
  numbered := numbered
  planned := ⟨at_, delay, ⟨by simp, by simp⟩, rfl⟩
  cancelled := by simp [happened]
  starts := by simp [happened]
  waiting := by simp [happened]
  ended := by simp [happened]
  running := by simp [happened]
  lapsed := nofun

theorem Attested.cancel (h : Attested r c j) :
    Attested r ((at_, .cancelled r) :: c) { j with cancelled := true } where
  numbered := h.numbered
  planned := h.planned_cons nofun
  cancelled := by simp
  starts := by simpa using h.starts
  waiting := by simpa using h.waiting
  ended := by simpa using h.ended
  running := by simpa using h.running
  lapsed := by simp

theorem Attested.start (h : Attested r c j) (waits : j.phase = .waiting) :
    Attested r ((at_, .started r) :: c) { j with phase := .started } where
  numbered := h.numbered
  planned := h.planned_cons nofun
  cancelled := by simpa using h.cancelled
  starts := by simp [List.count_eq_zero.mpr (h.waiting waits)]
  waiting := nofun
  ended := by
    intro mem
    have old : .ended r ∈ happened c := by simpa using mem
    rw [h.ended old] at waits
    cases waits
  running := by
    have lives : .ended r ∉ happened c := fun mem => by
      rw [h.ended mem] at waits
      cases waits
    simpa using lives
  lapsed := by simp

theorem Attested.lapse (h : Attested r c j) (waits : j.phase = .waiting)
    (dead : j.cancelled = true ∨ .stopped r.scheduler ∈ happened c) :
    Attested r c { j with phase := .ended } where
  numbered := h.numbered
  planned := h.planned
  cancelled := h.cancelled
  starts := h.starts
  waiting := nofun
  ended := fun _ => rfl
  running := by simp [h.waiting waits]
  lapsed := fun _ => .inr (dead.imp_left h.cancelled.mpr)

theorem Attested.finish (h : Attested r c j) (runs : j.phase = .started) :
    Attested r ((at_, .ended r) :: c) { j with phase := .ended } where
  numbered := h.numbered
  planned := h.planned_cons nofun
  cancelled := by simpa using h.cancelled
  starts := by simpa using h.starts
  waiting := nofun
  ended := fun _ => rfl
  running := by simp
  lapsed := fun _ => .inl (List.mem_cons_of_mem _ (h.running.mp runs).1)

/-- **What happens to a job agrees with what the tables have of it.** -/
theorem Life.record {j : Option (Job Duty)} (h : Life r c j) :
    j.elim (Unattested r c) (Attested r c) := by
  induction h with
  | unknown => exact ⟨by simp [happened], by simp, fun _ _ => rfl⟩
  | @closed c j at_ _ ih =>
      cases j with
      | some j => exact Attested.closed ih
      | none =>
          have ih : Unattested r c := ih
          exact ⟨by simpa using ih.idle, fun since delay mem =>
            ⟨(ih.refused since delay (by simpa using mem)).1, by simp⟩, by simp⟩
  | accepted at_ duty delay numbered => exact Attested.accept duty numbered
  | @refused c at_ delay zero stopped _ ih =>
      have ih : Unattested r c := ih
      exact ⟨by simpa using ih.idle, fun _ _ _ => ⟨zero, List.mem_cons_of_mem _ stopped⟩,
        fun numbered => absurd zero numbered⟩
  | @declined c at_ zero _ ih =>
      have ih : Unattested r c := ih
      refine ⟨by simpa using ih.idle, fun since delay mem => ⟨zero, ?_⟩,
        fun numbered => absurd zero numbered⟩
      exact List.mem_cons_of_mem _ (ih.refused since delay (by simpa using mem)).2
  | cancelled at_ _ ih => exact Attested.cancel ih
  | started at_ waits _ _ _ _ ih => exact Attested.start ih waits
  | lapsed waits dead _ ih => exact Attested.lapse ih waits dead
  | ended at_ runs _ ih => exact Attested.finish ih runs

theorem Life.attested (h : Life r c (some j)) : Attested r c j := h.record

theorem Life.unattested (h : Life r c none) : Unattested r c := h.record

/-- There was good reason for the job to start, by what had happened before. -/
structure Rightful (r : JobRef) (at_ : Nat) (earlier : Chronicle) : Prop where
  due : ∃ since delay, (since, .scheduled r delay) ∈ earlier ∧ since + delay.timer ≤ at_
  kept : .cancelled r ∉ happened earlier
  open_ : .stopped r.scheduler ∉ happened earlier

/-- **A job starts when it is due, if it has not been cancelled and its scheduler not been
stopped.** -/
theorem Life.rightful {j : Option (Job Duty)} (h : Life r c j) {earlier : Chronicle}
    (starts : (at_, .started r) :: earlier <:+ c) : Rightful r at_ earlier := by
  induction h with
  | unknown => simp at starts
  | closed _ _ ih => exact ih (by simpa [List.suffix_cons_iff] using starts)
  | accepted => simp [List.suffix_cons_iff] at starts
  | refused _ _ _ _ _ ih => exact ih (by simpa [List.suffix_cons_iff] using starts)
  | declined _ _ _ ih => exact ih (by simpa [List.suffix_cons_iff] using starts)
  | cancelled _ _ ih => exact ih (by simpa [List.suffix_cons_iff] using starts)
  | @started c j now waits live open_ due life ih =>
      rcases List.suffix_cons_iff.mp starts with same | before
      · obtain ⟨rfl, rfl⟩ : at_ = now ∧ earlier = c := by simpa using same
        obtain ⟨since, delay, planned, plan⟩ := life.attested.planned
        refine ⟨⟨since, delay, planned.here, plan ▸ due⟩, fun mem => ?_, open_⟩
        rw [life.attested.cancelled, live] at mem
        cases mem
      · exact ih before
  | lapsed _ _ _ ih => exact ih starts
  | ended _ _ _ ih => exact ih (by simpa [List.suffix_cons_iff] using starts)

end Life

/-! ### Timetables -/

/-- Somebody waits for a stopped scheduler to be drained, for so long at most. -/
structure Vigil where
  scheduler : Nat
  limit : Duration
  since : Nat
  deriving DecidableEq

/-- When the time of whoever waits is up. -/
def Vigil.due (v : Vigil) : Nat := v.since + v.limit.ticks

/-- Schedulers in use. -/
structure Timetable where
  system : ActorSystem
  elapsed : Nat
  vigils : List Vigil
  log : Chronicle

namespace Timetable

/-- Something has happened that led to a system. -/
def note (t : Timetable) (s : ActorSystem) (o : Occurrence) : Timetable :=
  { t with system := s, log := (t.elapsed, o) :: t.log }

/-- Whoever waits can go on: the scheduler is drained, or their time is up. -/
def MayReport (t : Timetable) (v : Vigil) : Prop :=
  (t.system.scheduler v.scheduler).isDrained = true ∨ v.due ≤ t.elapsed

/-- One thing that happens. -/
inductive Step : Timetable → Timetable → Prop
  | passes {t : Timetable} (d : Nat) : Step t { t with elapsed := t.elapsed + d }
  | schedules {t : Timetable} {k : Nat} (duty : Duty) (delay : Duration) :
      k < t.system.schedulers.length →
      Step t (t.note (t.system.schedule t.elapsed k duty delay).2
        (.scheduled (t.system.schedule t.elapsed k duty delay).1 delay))
  /-- Whoever has been given the job of somebody who scheduled it cancels it. -/
  | cancels {t : Timetable} {r : JobRef} {delay : Duration} :
      .scheduled r delay ∈ happened t.log →
      Step t (t.note (t.system.cancelJob r) (.cancelled r))
  | stops {t : Timetable} {k : Nat} : k < t.system.schedulers.length →
      Step t (t.note (t.system.stopScheduler k) (.stopped k))
  /-- A scheduler is stopped, and whoever stopped it waits until it is drained. -/
  | waits {t : Timetable} {k : Nat} (limit : Duration) : k < t.system.schedulers.length →
      Step t { t.note (t.system.stopScheduler k) (.stopped k) with
        vigils := ⟨k, limit, t.elapsed⟩ :: t.vigils }
  /-- Somebody who waited gets their report. -/
  | reports {s : ActorSystem} {elapsed : Nat} {before after : List Vigil} {v : Vigil}
      {log : Chronicle} : MayReport ⟨s, elapsed, before ++ v :: after, log⟩ v →
      Step ⟨s, elapsed, before ++ v :: after, log⟩ ⟨s, elapsed, before ++ after, log⟩
  /-- A job is attended to, and starts. -/
  | begins {t : Timetable} {r : JobRef} {duty : Duty} :
      (t.system.attend t.elapsed r).1 = .begin duty →
      Step t (t.note ((t.system.attend t.elapsed r).2.heard r) (.started r))
  /-- A job is attended to, and does not start. -/
  | idles {t : Timetable} {r : JobRef} :
      (∀ duty, (t.system.attend t.elapsed r).1 ≠ .begin duty) →
      Step t { t with system := (t.system.attend t.elapsed r).2.heard r }
  /-- A job that has started ends. -/
  | ends {t : Timetable} {r : JobRef} {j : Job Duty} : t.system.job? r = some j →
      j.phase = .started → Step t (t.note (t.system.finishJob r) (.ended r))

/-- Schedulers that nobody has used. -/
def Fresh (s : ActorSystem) : Prop := ∀ k, s.scheduler k = .empty

/-- What can come of schedulers that nobody has used. -/
def Reachable (t : Timetable) : Prop :=
  ∃ s, Fresh s ∧ Relation.ReflTransGen Step ⟨s, 0, [], []⟩ t

/-- Nobody is passed by: time passes only when every job that has been alerted has been attended
to, and not beyond the time at which somebody's wait is over. -/
def Patient (t u : Timetable) : Prop :=
  t.elapsed < u.elapsed → t.system.alerts = [] ∧ ∀ v ∈ t.vigils, u.elapsed ≤ v.due

/-- What can come of schedulers that nobody has used while nobody is passed by. -/
def Prompt (t : Timetable) : Prop :=
  ∃ s, Fresh s ∧ Relation.ReflTransGen (fun t u => Step t u ∧ Patient t u) ⟨s, 0, [], []⟩ t

/-! ### Jobs by themselves -/

/-- The chronicle agrees with the tables. -/
structure Recorded (t : Timetable) : Prop where
  orderly : t.system.Orderly
  stopped : ∀ {k}, .stopped k ∈ happened t.log ↔ (t.system.scheduler k).stopped = true
  lives : ∀ r, Life r (own r t.log) (t.system.job? r)

variable {t u : Timetable} {r : JobRef} {k : Nat}

theorem Fresh.recorded {s : ActorSystem} (fresh : Fresh s) : Recorded ⟨s, 0, [], []⟩ := by
  have unknown : ∀ r, s.job? r = none := fun r => by
    rw [ActorSystem.job?, fresh]
    rfl
  refine ⟨⟨fun k => ?_, fun k => ?_, fun {r j} found => ?_⟩, fun {k} => ?_, fun r => ?_⟩
  · rw [fresh]
    exact Scheduler.numbered_empty
  · rw [fresh]
    exact List.nodup_nil
  · rw [unknown] at found
    cases found
  · show _ ∈ happened [] ↔ (s.scheduler k).stopped = true
    rw [fresh]
    simp [happened, Scheduler.empty]
  · show Life r [] (s.job? r)
    rw [unknown]
    exact .unknown

/-- Something that happens to one job only. -/
theorem Recorded.note (h : t.Recorded) {s : ActorSystem} {o : Occurrence} (job : o.job? = some r)
    (orderly : s.Orderly) (stopped : ∀ k, (s.scheduler k).stopped = (t.system.scheduler k).stopped)
    (kept : ∀ q ≠ r, s.job? q = t.system.job? q)
    (life : Life r ((t.elapsed, o) :: own r t.log) (s.job? r)) : (t.note s o).Recorded where
  orderly := orderly
  stopped := by
    intro k
    show _ ∈ o :: happened t.log ↔ (s.scheduler k).stopped = true
    have other : Occurrence.stopped k ≠ o := by
      rintro rfl
      cases job
    rw [stopped, ← h.stopped, List.mem_cons, or_iff_right other]
  lives := by
    intro q
    show Life q (own q ((t.elapsed, o) :: t.log)) (s.job? q)
    by_cases same : q = r
    · subst same
      rw [own_cons_of_concerns (Occurrence.concerns_of_job? job)]
      exact life
    · rw [own_cons_of_not (Occurrence.concerns_of_ne job same), kept q same]
      exact h.lives q

/-- A scheduler is stopped as far as a job knows. -/
theorem Recorded.stopped_own (h : t.Recorded) (r : JobRef) :
    .stopped r.scheduler ∈ happened (own r t.log) ↔
      (t.system.scheduler r.scheduler).stopped = true := by
  rw [mem_happened_own (by simp [Occurrence.concerns]), h.stopped]

theorem Recorded.schedules (h : t.Recorded) (known : k < t.system.schedulers.length) (duty : Duty)
    (delay : Duration) : (t.note (t.system.schedule t.elapsed k duty delay).2
      (.scheduled (t.system.schedule t.elapsed k duty delay).1 delay)).Recorded := by
  have orderly := (h.orderly.schedule known t.elapsed duty delay).1
  have stopped := t.system.stopped_schedule t.elapsed k duty delay
  refine h.note rfl orderly stopped (fun q other => ?_) ?_
  all_goals cases closed : (t.system.scheduler k).stopped
  · rw [ActorSystem.schedule_of_open closed] at other
    rw [ActorSystem.job?_schedule_of_live ⟨known, closed⟩, if_neg other]
  · rw [ActorSystem.schedule_of_stopped closed]
  · -- It is accepted under a number of which nothing has been heard.
    rw [ActorSystem.schedule_of_open closed, ActorSystem.job?_schedule_of_live ⟨known, closed⟩,
      if_pos rfl]
    have new := h.lives ⟨k, (t.system.scheduler k).jobs.length + 1⟩
    have none : t.system.job? ⟨k, (t.system.scheduler k).jobs.length + 1⟩ = none :=
      (h.orderly.numbered k).job?_eq_none (Nat.lt_succ_self _)
    rw [none] at new
    have blank := new.unattested.blank (Nat.succ_ne_zero _) fun mem => by
      rw [h.stopped_own, closed] at mem
      cases mem
    rw [blank]
    exact .accepted (r := ⟨k, (t.system.scheduler k).jobs.length + 1⟩) t.elapsed duty delay
      (Nat.succ_ne_zero _)
  · rw [ActorSystem.schedule_of_stopped closed]
    have life := h.lives ⟨k, 0⟩
    have none : t.system.job? ⟨k, 0⟩ = none := by
      cases found : t.system.job? ⟨k, 0⟩ with
      | none => rfl
      | some j =>
          rw [found] at life
          exact absurd rfl life.attested.numbered
    rw [none] at life ⊢
    exact .refused t.elapsed delay rfl ((h.stopped_own ⟨k, 0⟩).mpr closed) life

theorem Recorded.cancels (h : t.Recorded) {delay : Duration}
    (issued : .scheduled r delay ∈ happened t.log) :
    (t.note (t.system.cancelJob r) (.cancelled r)).Recorded := by
  have jobs := t.system.job?_cancelJob r
  refine h.note rfl (h.orderly.cancelJob r) (fun k => ?_) (fun q other => ?_) ?_
  · exact t.system.stopped_modifyJob r (fun j => { j with cancelled := true }) k
  · rw [jobs, if_neg other]
  · rw [jobs, if_pos rfl]
    have life := h.lives r
    cases found : t.system.job? r with
    | some j =>
        rw [found] at life
        exact .cancelled t.elapsed life
    | none =>
        rw [found] at life
        obtain ⟨⟨since, o⟩, mem, rfl⟩ := List.mem_map.mp issued
        have mine := (mem_own (r := r) (Occurrence.concerns_of_job? rfl)).mpr mem
        exact .declined t.elapsed (life.unattested.refused since delay mine).1 life

theorem Recorded.stops (h : t.Recorded) (known : k < t.system.schedulers.length) :
    (t.note (t.system.stopScheduler k) (.stopped k)).Recorded where
  orderly := h.orderly.stopScheduler k
  stopped := by
    intro n
    show _ ∈ .stopped k :: happened t.log ↔ ((t.system.stopScheduler k).scheduler n).stopped = true
    rw [ActorSystem.stopped_stopScheduler, List.mem_cons, h.stopped]
    by_cases same : k = n
    · subst same
      simp [known]
    · simp [same, Ne.symm same]
  lives := by
    intro r
    show Life r (own r ((t.elapsed, .stopped k) :: t.log)) ((t.system.stopScheduler k).job? r)
    rw [ActorSystem.job?_stopScheduler]
    have concerns := Occurrence.concerns_stopped r k
    by_cases same : k = r.scheduler
    · subst same
      rw [own_cons_of_concerns (by simpa using concerns)]
      exact .closed t.elapsed (h.lives r)
    · rw [own_cons_of_not (by simpa [same] using concerns)]
      exact h.lives r

theorem Recorded.begins (h : t.Recorded) {duty : Duty}
    (begins : (t.system.attend t.elapsed r).1 = .begin duty) :
    (t.note ((t.system.attend t.elapsed r).2.heard r) (.started r)).Recorded := by
  have attended : t.system.attend t.elapsed r = (.begin duty, (t.system.attend t.elapsed r).2) :=
    Prod.ext begins rfl
  have jobs := ActorSystem.job?_attend_begin attended
  obtain ⟨⟨j, found, waits, -, due, live⟩, same⟩ := ActorSystem.attend_begin_inv attended
  refine h.note rfl (h.orderly.attend t.elapsed r).1 (fun k => ?_) (fun q other => ?_) ?_
  · show ((t.system.attend t.elapsed r).2.scheduler k).stopped = _
    rw [same]
    exact t.system.stopped_modifyJob r (fun j => { j with phase := .started }) k
  · exact (jobs q).trans (if_neg other)
  · have started := (jobs r).trans (if_pos rfl)
    rw [found] at started
    have life := h.lives r
    rw [found] at life
    have open_ : .stopped r.scheduler ∉ happened (own r t.log) := fun mem => by
      have idle := Scheduler.attend_of_stopped ((h.stopped_own r).mp mem) t.elapsed r.number
      cases begins.symm.trans idle
    exact started ▸ .started t.elapsed waits live open_ due life

theorem Recorded.idles (h : t.Recorded)
    (rests : ∀ duty, (t.system.attend t.elapsed r).1 ≠ .begin duty) :
    Recorded { t with system := (t.system.attend t.elapsed r).2.heard r } := by
  have orderly := (h.orderly.attend t.elapsed r).1
  rcases t.system.attend_cases t.elapsed r with ⟨duty, begins, -⟩ | ⟨-, lapses, same⟩ | ⟨-, same⟩
  · exact absurd begins (rests duty)
  · obtain ⟨j, found, waits, dead⟩ := lapses
    have stopped : ∀ k, ((t.system.attend t.elapsed r).2.scheduler k).stopped =
        (t.system.scheduler k).stopped := fun k => by
      rw [same]
      exact t.system.stopped_modifyJob r (fun j => { j with phase := .ended }) k
    refine ⟨orderly, fun {k} => (h.stopped (k := k)).trans (by rw [← stopped]; rfl), fun q => ?_⟩
    show Life q (own q t.log) ((t.system.attend t.elapsed r).2.job? q)
    rw [same, ActorSystem.job?_finishJob]
    have life := h.lives q
    by_cases here : q = r
    · subst here
      rw [if_pos rfl, found]
      rw [found] at life
      exact .lapsed waits (dead.imp_right (h.stopped_own q).mpr) life
    · rw [if_neg here]
      exact life
  · rw [same] at orderly ⊢
    exact ⟨orderly, h.stopped, h.lives⟩

theorem Recorded.ends (h : t.Recorded) {j : Job Duty} (found : t.system.job? r = some j)
    (runs : j.phase = .started) : (t.note (t.system.finishJob r) (.ended r)).Recorded := by
  have jobs := t.system.job?_finishJob r
  refine h.note rfl (h.orderly.finishJob r) (fun k => ?_) (fun q other => ?_) ?_
  · exact t.system.stopped_modifyJob r (fun j => { j with phase := .ended }) k
  · rw [jobs, if_neg other]
  · rw [jobs, if_pos rfl, found]
    have life := h.lives r
    rw [found] at life
    exact .ended t.elapsed runs life

theorem Recorded.step (h : t.Recorded) (st : Step t u) : u.Recorded := by
  cases st with
  | passes d => exact ⟨h.orderly, h.stopped, h.lives⟩
  | schedules duty delay known => exact h.schedules known duty delay
  | cancels issued => exact h.cancels issued
  | stops known => exact h.stops known
  | waits limit known =>
      have stops := h.stops known
      exact ⟨stops.orderly, stops.stopped, stops.lives⟩
  | reports => exact ⟨h.orderly, h.stopped, h.lives⟩
  | begins begins => exact h.begins begins
  | idles rests => exact h.idles rests
  | ends found runs => exact h.ends found runs

/-- **What the chronicle has of a job and what the tables have of it are together a life.** -/
theorem Reachable.recorded (h : t.Reachable) : t.Recorded := by
  obtain ⟨s, fresh, run⟩ := h
  induction run with
  | refl => exact fresh.recorded
  | tail _ st ih => exact ih.step st

end Timetable

end RecurringWork
