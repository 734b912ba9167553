import RecurringWork.Proofs.Scheduler.Timetable

/-!
# RecurringWork.Proofs.Scheduler.Lifecycle

**What becomes of jobs, and what is reported of a scheduler that is stopped.** Three accounts of
the same jobs are put together: the chronicle of a timetable, the tables of its schedulers, and the
report on a stopped scheduler (`Scheduler.drain`).

The report counts the jobs that have not ended, those that wait among them. But a job that waits on
a stopped scheduler has been alerted. So once time has passed since the stop, and nobody is passed
by, all jobs that are left have started (`Timetable.Watched`), and what is reported are the jobs
that have started and not ended.
-/

namespace RecurringWork

theorem Duration.ticks_pos {d : Duration} (h : 0 < d.nanos) : 0 < d.ticks :=
  Nat.div_pos (by simp only [nanosPerMilli]; omega) (by decide)

namespace ActorSystem

/-- What there is to do for a job does not depend on whether another one has been cancelled. -/
theorem attend_cancelJob_of_ne (s : ActorSystem) {r q : JobRef} (other : q ≠ r) (now : Nat) :
    ((s.cancelJob r).attend now q).1 = (s.attend now q).1 :=
  Scheduler.attend_congr ((s.job?_cancelJob r q).trans (if_neg other))
    (s.stopped_modifyJob r (fun j => { j with cancelled := true }) q.scheduler) now

end ActorSystem

namespace Scheduler

/-- The report on a scheduler that has been stopped is by the number of its jobs that have not
ended. -/
theorem drain_of_stopped {α : Type} {s : Scheduler α} (closed : s.stopped = true) :
    s.drain = ⟨s.active == 0, s.active⟩ := by
  unfold drain isDrained
  rw [closed, Bool.true_and]
  split
  · next none =>
      rw [none, beq_iff_eq.mp none]
  · next some => rw [Bool.eq_false_iff.mpr some]

end Scheduler

/-! ### What has started and not ended -/

/-- The job that starts. -/
def Occurrence.start? : Occurrence → Option JobRef
  | started r => some r
  | scheduled _ _ | cancelled _ | stopped _ | ended _ => none

/-- The jobs that have started. -/
def starts (c : Chronicle) : List JobRef := (happened c).filterMap Occurrence.start?

/-- The jobs of a scheduler that have started and not ended. -/
def unfinished (k : Nat) (c : Chronicle) : List JobRef :=
  (starts c).filter fun r => r.scheduler = k ∧ .ended r ∉ happened c

theorem Occurrence.start?_eq_some {o : Occurrence} {r : JobRef} :
    o.start? = some r ↔ o = .started r := by
  cases o <;> simp [start?]

theorem mem_starts {c : Chronicle} {r : JobRef} : r ∈ starts c ↔ .started r ∈ happened c := by
  simp [starts, List.mem_filterMap, Occurrence.start?_eq_some]

theorem mem_unfinished {c : Chronicle} {r : JobRef} {k : Nat} : r ∈ unfinished k c ↔
    r.scheduler = k ∧ .started r ∈ happened c ∧ .ended r ∉ happened c := by
  rw [unfinished, List.mem_filter, mem_starts, decide_eq_true_iff]
  exact and_left_comm

theorem count_starts (c : Chronicle) (r : JobRef) :
    (starts c).count r = (happened c).count (.started r) := by
  rw [starts, List.count_filterMap, List.count]
  refine List.countP_congr fun o _ => ?_
  simp [Occurrence.start?_eq_some]

namespace Timetable

variable {t u : Timetable} {r : JobRef} {k : Nat} {v : Vigil}

theorem Recorded.attested (h : t.Recorded) {j : Job Duty} (found : t.system.job? r = some j) :
    Attested r (own r t.log) j := (found ▸ h.lives r).attested

theorem Recorded.nodup_starts (h : t.Recorded) : (starts t.log).Nodup := by
  refine List.nodup_iff_count_le_one.mpr fun r => ?_
  rw [count_starts, ← count_happened_own (Occurrence.concerns_of_job? rfl)]
  have life := h.lives r
  cases found : t.system.job? r with
  | some j => exact (h.attested found).starts
  | none =>
      rw [found] at life
      rw [List.count_eq_zero.mpr life.unattested.idle]
      exact Nat.zero_le 1

/-- A job that has started is in the tables. -/
theorem Recorded.job?_of_started (h : t.Recorded) (starts : .started r ∈ happened t.log) :
    ∃ j, t.system.job? r = some j := by
  have life := h.lives r
  cases found : t.system.job? r with
  | some j => exact ⟨j, rfl⟩
  | none =>
      rw [found] at life
      exact absurd ((mem_happened_own (Occurrence.concerns_of_job? rfl)).mpr starts)
        life.unattested.idle

/-- **The jobs that run are those that have started and not ended.** -/
theorem Recorded.started_iff (h : t.Recorded) {j : Job Duty} (found : t.system.job? r = some j) :
    j.phase = .started ↔ .started r ∈ happened t.log ∧ .ended r ∉ happened t.log := by
  have concerns : ∀ {o : Occurrence}, o.job? = some r → o.concerns r :=
    Occurrence.concerns_of_job?
  rw [(h.attested found).running, mem_happened_own (concerns rfl), mem_happened_own (concerns rfl)]

/-- The jobs that run, by the tables and by the chronicle. -/
theorem Recorded.perm_unfinished (h : t.Recorded) (k : Nat) :
    (((t.system.scheduler k).jobs.filter fun j => j.phase = .started).map
      fun j => (⟨k, j.number⟩ : JobRef)).Perm (unfinished k t.log) := by
  have distinct := h.orderly.distinct k
  have nodup : (unfinished k t.log).Nodup := h.nodup_starts.filter _
  refine (List.perm_ext_iff_of_nodup ?_ nodup).mpr fun r => ?_
  · have numbers : (((t.system.scheduler k).jobs.filter fun j => j.phase = .started).map
        Job.number).Nodup := distinct.sublist (List.filter_sublist.map Job.number)
    have refs := numbers.map (f := JobRef.mk k) fun _ _ same => (JobRef.mk.inj same).2
    rwa [List.map_map] at refs
  · rw [mem_unfinished, List.mem_map]
    constructor
    · rintro ⟨j, mem, rfl⟩
      obtain ⟨mem, runs⟩ := List.mem_filter.mp mem
      have found : t.system.job? ⟨k, j.number⟩ = some j := distinct.job?_of_mem mem
      exact ⟨rfl, (h.started_iff found).mp (of_decide_eq_true runs)⟩
    · rintro ⟨rfl, starts, lives⟩
      obtain ⟨j, found⟩ := h.job?_of_started starts
      have number : j.number = r.number := by simpa using List.find?_some found
      refine ⟨j, List.mem_filter.mpr ⟨List.mem_of_find?_eq_some found, decide_eq_true ?_⟩, ?_⟩
      · exact (h.started_iff found).mpr ⟨starts, lives⟩
      · rw [number]

/-- If no job waits, those that have not ended are those that run. -/
theorem Recorded.active_eq (h : t.Recorded)
    (settled : ∀ {n j}, t.system.job? ⟨k, n⟩ = some j → j.phase ≠ .waiting) :
    (t.system.scheduler k).active = (unfinished k t.log).length := by
  rw [← (h.perm_unfinished k).length_eq, List.length_map, Scheduler.active]
  refine congrArg List.length (List.filter_congr fun j mem => ?_)
  have waits := settled ((h.orderly.distinct k).job?_of_mem mem)
  cases phase : j.phase with
  | waiting => exact absurd phase waits
  | started => rfl
  | ended => rfl

/-! ### What begins -/

/-- **Whether a job begins depends on what has happened to it and to its scheduler.** -/
theorem Recorded.begins_iff (h : t.Recorded) (r : JobRef) :
    (∃ duty, (t.system.attend t.elapsed r).1 = .begin duty) ↔
      Rightful r t.elapsed t.log ∧ .started r ∉ happened t.log := by
  have mem : ∀ {o : Occurrence}, o.job? = some r →
      (o ∈ happened (own r t.log) ↔ o ∈ happened t.log) := fun job =>
    mem_happened_own (Occurrence.concerns_of_job? job)
  constructor
  · rintro ⟨duty, begins⟩
    obtain ⟨⟨j, found, waits, -, due, live⟩, -⟩ :=
      ActorSystem.attend_begin_inv (Prod.ext begins rfl)
    have told := h.attested found
    obtain ⟨since, delay, planned, plan⟩ := told.planned
    have here := (mem_own (Occurrence.concerns_of_job? rfl)).mp planned.here
    refine ⟨⟨⟨since, delay, here, plan ▸ due⟩, fun cancelled => ?_, fun stopped => ?_⟩, ?_⟩
    · rw [told.cancelled.mp ((mem rfl).mpr cancelled)] at live
      cases live
    · have idle := Scheduler.attend_of_stopped (h.stopped.mp stopped) t.elapsed r.number
      cases begins.symm.trans idle
    · exact fun started => told.waiting waits ((mem rfl).mpr started)
  · rintro ⟨⟨⟨since, delay, planned, due⟩, kept, open_⟩, idle⟩
    have planned := (mem_own (Occurrence.concerns_of_job? rfl)).mpr planned
    have open_ := fun closed => open_ (h.stopped.mpr closed)
    have life := h.lives r
    cases found : t.system.job? r with
    | none =>
        -- It would have been refused, because its scheduler was stopped.
        rw [found] at life
        have refused := (life.unattested.refused since delay planned).2
        exact absurd ((h.stopped_own r).mp refused) open_
    | some j =>
        have told := h.attested found
        have cancelled : j.cancelled = false := by
          rw [← Bool.not_eq_true, ← told.cancelled, mem rfl]
          exact kept
        have waits : j.phase = .waiting := by
          cases phase : j.phase with
          | waiting => rfl
          | started => exact absurd ((mem rfl).mp (told.running.mp phase).1) idle
          | ended =>
              rcases told.lapsed phase with started | cancelled | stopped
              · exact absurd ((mem rfl).mp started) idle
              · exact absurd ((mem rfl).mp cancelled) kept
              · exact absurd ((h.stopped_own r).mp stopped) open_
        obtain ⟨since', delay', plan, due'⟩ := told.planned
        have same := plan.once _ planned delay rfl
        rw [Prod.mk.injEq, Occurrence.scheduled.injEq] at same
        obtain ⟨rfl, -, rfl⟩ := same
        obtain ⟨u, begins⟩ := ActorSystem.attend_of_due found waits cancelled
          (Bool.eq_false_iff.mpr open_) (due' ▸ due)
        exact ⟨j.duty, congrArg Prod.fst begins⟩

/-! ### Waiting for a stopped scheduler -/

/-- What holds while somebody waits. -/
structure Watched (t : Timetable) (v : Vigil) : Prop where
  stopped : (t.system.scheduler v.scheduler).stopped = true
  since_le : v.since ≤ t.elapsed
  le_due : t.elapsed ≤ v.due
  /-- As soon as time has passed, no job waits on the scheduler any more. -/
  settled : v.since < t.elapsed → ∀ {n j}, t.system.job? ⟨v.scheduler, n⟩ = some j →
    j.phase ≠ .waiting

/-- Nothing that is done at a moment ends a watch. -/
theorem Watched.fades (h : t.Watched v) {s : ActorSystem} (f : t.system.Fades s)
    (vigils : List Vigil) (log : Chronicle) : Watched ⟨s, t.elapsed, vigils, log⟩ v where
  stopped := f.stopped h.stopped
  since_le := h.since_le
  le_due := h.le_due
  settled := by
    intro passed n j found waits
    obtain ⟨i, before, waited⟩ := f.waiting found waits h.stopped
    exact h.settled passed before waited

theorem Watched.passes (h : t.Watched v) (recorded : t.Recorded) {d : Nat}
    (patient : Patient t { t with elapsed := t.elapsed + d }) (mem : v ∈ t.vigils) :
    Watched { t with elapsed := t.elapsed + d } v := by
  rcases Nat.eq_zero_or_pos d with rfl | passes
  · exact h
  · obtain ⟨attended, waits⟩ := patient (Nat.lt_add_of_pos_right passes)
    refine ⟨h.stopped, Nat.le_trans h.since_le (Nat.le_add_right _ d), waits v mem, ?_⟩
    intro _ n j found waits
    have alerted := recorded.orderly.alerted found waits h.stopped
    rw [attended] at alerted
    cases alerted

theorem watched_step (recorded : t.Recorded) (watched : ∀ v ∈ t.vigils, t.Watched v)
    (st : Step t u) (patient : Patient t u) : ∀ v ∈ u.vigils, u.Watched v := by
  intro v mem
  cases st with
  | passes d => exact (watched v mem).passes recorded patient mem
  | schedules duty delay known =>
      exact (watched v mem).fades (recorded.orderly.schedule known t.elapsed duty delay).2 _ _
  | cancels => exact (watched v mem).fades (t.system.fades_cancelJob _) _ _
  | @stops _ k known => exact (watched v mem).fades (t.system.fades_stopScheduler k) _ _
  | @waits _ k limit known =>
      rcases List.mem_cons.mp mem with rfl | old
      · refine ⟨?_, Nat.le_refl _, Nat.le_add_right _ _,
          fun passed => absurd passed (Nat.lt_irrefl _)⟩
        show ((t.system.stopScheduler k).scheduler k).stopped = true
        rw [ActorSystem.stopped_stopScheduler, if_pos ⟨rfl, known⟩]
      · exact (watched v old).fades (t.system.fades_stopScheduler k) _ _
  | reports =>
      refine (watched v ?_).fades (.refl _) _ _
      rcases List.mem_append.mp mem with before | after
      · exact List.mem_append_left _ before
      · exact List.mem_append_right _ (List.mem_cons_of_mem _ after)
  | @begins _ r => exact (watched v mem).fades (recorded.orderly.attend t.elapsed r).2 _ _
  | @idles _ r => exact (watched v mem).fades (recorded.orderly.attend t.elapsed r).2 _ _
  | @ends _ r => exact (watched v mem).fades (t.system.fades_finishJob r) _ _

theorem Prompt.watched (h : t.Prompt) : t.Recorded ∧ ∀ v ∈ t.vigils, t.Watched v := by
  obtain ⟨s, fresh, run⟩ := h
  induction run with
  | refl => exact ⟨fresh.recorded, nofun⟩
  | tail _ st ih => exact ⟨ih.1.step st.1, watched_step ih.1 ih.2 st.1 st.2⟩

/-- **What is reported of a stopped scheduler are the jobs that have started and not ended**, and
that some have not is reported when the time is up. -/
theorem Prompt.reports (h : t.Prompt) (mem : v ∈ t.vigils) (limited : 0 < v.limit.nanos)
    (may : t.MayReport v) :
    (t.system.scheduler v.scheduler).drain =
        ⟨(unfinished v.scheduler t.log).isEmpty, (unfinished v.scheduler t.log).length⟩ ∧
      t.elapsed ≤ v.due ∧ (unfinished v.scheduler t.log ≠ [] → t.elapsed = v.due) := by
  obtain ⟨recorded, watched⟩ := h.watched
  have watch := watched v mem
  have active : (t.system.scheduler v.scheduler).active =
      (unfinished v.scheduler t.log).length := by
    refine recorded.active_eq fun {n j} found waits => ?_
    rcases may with drained | late
    · -- Nothing is left, so nothing waits.
      have none := (Bool.and_eq_true_iff.mp drained).2
      rw [beq_iff_eq, Scheduler.active, List.length_eq_zero_iff, List.filter_eq_nil_iff] at none
      have ended := none j (List.mem_of_find?_eq_some found)
      rw [waits] at ended
      exact ended rfl
    · have passed : v.since < t.elapsed :=
        Nat.lt_of_lt_of_le (Nat.lt_add_of_pos_right (Duration.ticks_pos limited)) late
      exact watch.settled passed found waits
  refine ⟨?_, watch.le_due, fun left => ?_⟩
  · rw [Scheduler.drain_of_stopped watch.stopped, active]
    cases unfinished v.scheduler t.log <;> rfl
  · rcases may with drained | late
    · have none := (Bool.and_eq_true_iff.mp drained).2
      rw [active, beq_iff_eq, List.length_eq_zero_iff] at none
      exact absurd none left
    · exact Nat.le_antisymm watch.le_due late

/-! ### One job and one stop -/

/-- A scheduler with one job. -/
def lone (due : Nat) (phase : JobPhase) (stopped : Bool) (alerts : List JobRef) : ActorSystem :=
  ⟨[], [], [⟨[⟨1, .errand 0, due, false, phase⟩], stopped⟩], alerts⟩

theorem schedule_lone (delay : Duration) :
    (⟨[], [], [.empty], []⟩ : ActorSystem).schedule 0 0 (.errand 0) delay =
      (⟨0, 1⟩, lone delay.timer .waiting false [⟨0, 1⟩]) := by
  simp [ActorSystem.schedule, Scheduler.schedule, ActorSystem.scheduler, Scheduler.empty, lone,
    ActorSystem.modifyScheduler, ActorSystem.alert]

theorem attend_lone_early {due : Nat} (early : 0 < due) :
    (lone due .waiting false [⟨0, 1⟩]).attend 0 ⟨0, 1⟩ =
      (.rest due, lone due .waiting false [⟨0, 1⟩]) := by
  simp [ActorSystem.attend, Scheduler.attend, ActorSystem.scheduler, lone, Scheduler.job?,
    Scheduler.isCancelled, ActorSystem.modifyScheduler, Nat.not_le.mpr early]

theorem attend_lone_due (due : Nat) :
    (lone due .waiting false []).attend due ⟨0, 1⟩ =
      (.begin (.errand 0), lone due .started false []) := by
  simp [ActorSystem.attend, Scheduler.attend, ActorSystem.scheduler, lone, Scheduler.job?,
    Scheduler.isCancelled, ActorSystem.modifyScheduler, Scheduler.modify, Scheduler.modifyFirst]

theorem stop_lone (due : Nat) :
    (lone due .started false []).stopScheduler 0 = lone due .started true [] := by
  simp [ActorSystem.stopScheduler, ActorSystem.scheduler, lone, Scheduler.waiting,
    ActorSystem.modifyScheduler, Scheduler.stop, ActorSystem.alert]

/-- A job that was to start after a delay has started and not ended, and somebody has stopped the
scheduler and waited until their time is up. -/
def overdue (delay limit : Duration) : Timetable where
  system := lone delay.timer .started true []
  elapsed := delay.timer + limit.ticks
  vigils := [⟨0, limit, delay.timer⟩]
  log := [(delay.timer, .stopped 0), (delay.timer, .started ⟨0, 1⟩), (0, .scheduled ⟨0, 1⟩ delay)]

theorem prompt_overdue {delay : Duration} (later : 0 < delay.timer) (limit : Duration) :
    (overdue delay limit).Prompt := by
  let planned : Chronicle := [(0, .scheduled ⟨0, 1⟩ delay)]
  let begun : Chronicle := (delay.timer, .started ⟨0, 1⟩) :: planned
  have fresh : Fresh ⟨[], [], [.empty], []⟩ := fun k => by cases k <;> rfl
  have schedules : Step ⟨⟨[], [], [.empty], []⟩, 0, [], []⟩
      ⟨lone delay.timer .waiting false [⟨0, 1⟩], 0, [], planned⟩ := by
    have st := Step.schedules (t := ⟨⟨[], [], [.empty], []⟩, 0, [], []⟩) (k := 0) (.errand 0)
      delay (by decide)
    rwa [schedule_lone] at st
  have idles : Step ⟨lone delay.timer .waiting false [⟨0, 1⟩], 0, [], planned⟩
      ⟨lone delay.timer .waiting false [], 0, [], planned⟩ := by
    have rests := attend_lone_early later
    have st := Step.idles (t := ⟨lone delay.timer .waiting false [⟨0, 1⟩], 0, [], planned⟩)
      (r := ⟨0, 1⟩) (by rw [rests]; nofun)
    rwa [rests] at st
  have passes : Step ⟨lone delay.timer .waiting false [], 0, [], planned⟩
      ⟨lone delay.timer .waiting false [], delay.timer, [], planned⟩ := by
    simpa using Step.passes (t := ⟨lone delay.timer .waiting false [], 0, [], planned⟩) delay.timer
  have begins : Step ⟨lone delay.timer .waiting false [], delay.timer, [], planned⟩
      ⟨lone delay.timer .started false [], delay.timer, [], begun⟩ := by
    have due := attend_lone_due delay.timer
    have st := Step.begins (t := ⟨lone delay.timer .waiting false [], delay.timer, [], planned⟩)
      (r := ⟨0, 1⟩) (congrArg Prod.fst due)
    rwa [due] at st
  have waits : Step ⟨lone delay.timer .started false [], delay.timer, [], begun⟩
      ⟨lone delay.timer .started true [], delay.timer, [⟨0, limit, delay.timer⟩],
        (delay.timer, .stopped 0) :: begun⟩ := by
    have st := Step.waits (t := ⟨lone delay.timer .started false [], delay.timer, [], begun⟩)
      (k := 0) limit Nat.zero_lt_one
    rwa [stop_lone] at st
  exact ⟨_, fresh, .tail (.tail (.tail (.tail (.tail (.tail .refl
    ⟨schedules, fun passed => absurd passed (Nat.lt_irrefl _)⟩)
    ⟨idles, fun passed => absurd passed (Nat.lt_irrefl _)⟩)
    ⟨passes, fun _ => ⟨rfl, nofun⟩⟩)
    ⟨begins, fun passed => absurd passed (Nat.lt_irrefl _)⟩)
    ⟨waits, fun passed => absurd passed (Nat.lt_irrefl _)⟩)
    ⟨.passes limit.ticks, fun _ => ⟨rfl, by simp [Vigil.due, overdue]⟩⟩⟩

/-! ### The whole -/

theorem Prompt.reachable (h : t.Prompt) : t.Reachable := by
  obtain ⟨s, fresh, run⟩ := h
  exact ⟨s, fresh, Relation.ReflTransGen.mono (fun _ _ st => st.1) _ _ run⟩

/-- The job was scheduled once, and it started when its delay was over, not cancelled before and
its scheduler not stopped. -/
theorem Recorded.start_justified (h : t.Recorded) {at_ : Nat} {earlier : Chronicle}
    (starts : (at_, .started r) :: earlier <:+ t.log) :
    Rightful r at_ earlier ∧ ∃ since delay, Planned r t.log since delay := by
  have concerns : ∀ {o : Occurrence}, o.job? = some r → o.concerns r :=
    Occurrence.concerns_of_job?
  have starts_own : (at_, .started r) :: own r earlier <:+ own r t.log := by
    have filtered : own r ((at_, .started r) :: earlier) <:+ own r t.log := starts.filter _
    rwa [own_cons_of_concerns (concerns (o := .started r) rfl)] at filtered
  obtain ⟨⟨since, delay, planned, due⟩, kept, open_⟩ := (h.lives r).rightful starts_own
  refine ⟨⟨⟨since, delay, (mem_own (concerns rfl)).mp planned, due⟩, ?_, ?_⟩, ?_⟩
  · rwa [mem_happened_own (concerns rfl)] at kept
  · rwa [mem_happened_own (by simp [Occurrence.concerns])] at open_
  · have started : .started r ∈ happened t.log :=
      List.mem_map_of_mem (starts.mem List.mem_cons_self)
    obtain ⟨j, found⟩ := h.job?_of_started started
    obtain ⟨since, delay, ⟨here, once⟩, -⟩ := (h.attested found).planned
    refine ⟨since, delay, (mem_own (concerns rfl)).mp here, fun e mem d same => ?_⟩
    have mine : e ∈ own r t.log := List.mem_filter.mpr ⟨mem, by rw [same]; exact concerns rfl⟩
    exact once e mine d same

/-- A scheduler that was stopped refuses every job, with a handle that is cancelled, and starts
none that it has refused. -/
theorem Recorded.refuses (h : t.Recorded) (stopped : .stopped k ∈ happened t.log) :
    (∀ now duty delay, t.system.schedule now k duty delay = (⟨k, 0⟩, t.system)) ∧
      (t.system.scheduler k).isCancelled 0 = true ∧ .started ⟨k, 0⟩ ∉ happened t.log := by
  have closed := h.stopped.mp stopped
  refine ⟨fun now duty delay => ActorSystem.schedule_of_stopped closed now duty delay, ?_,
    fun started => ?_⟩
  · rw [Scheduler.isCancelled, closed, Bool.true_or]
  · obtain ⟨j, found⟩ := h.job?_of_started started
    exact (h.attested found).numbered rfl

/-- **The life of jobs on schedulers.** In whatever order jobs are scheduled and cancelled,
schedulers stopped, jobs attended to and ended, and time passes:

* no job starts twice;
* a job has started after its delay, or after the longest that anything sleeps if that is shorter,
  and neither its cancellation nor the stop of its scheduler had come before;
* a job that has started runs until it ends by itself;
* a stopped scheduler refuses every job with a cancelled handle, and starts none of them;
* whether a job begins depends only on what has happened to itself and to its scheduler, and to
  cancel a job changes nothing for the others;
* whoever has stopped a scheduler and waits, if only for a moment, is told in time how many jobs
  have started and not ended, and that there are some only when their time is up. -/
theorem Reachable.lifecycle (h : t.Reachable) :
    (starts t.log).Nodup ∧
    (∀ {r at_ earlier}, (at_, .started r) :: earlier <:+ t.log →
      Rightful r at_ earlier ∧ ∃ since delay, Planned r t.log since delay) ∧
    (∀ {r}, .started r ∈ happened t.log → .ended r ∉ happened t.log →
      ∃ j, t.system.job? r = some j ∧ j.phase = .started) ∧
    (∀ {k}, .stopped k ∈ happened t.log →
      (∀ now duty delay, t.system.schedule now k duty delay = (⟨k, 0⟩, t.system)) ∧
      (t.system.scheduler k).isCancelled 0 = true ∧ .started ⟨k, 0⟩ ∉ happened t.log) ∧
    (∀ r, (∃ duty, (t.system.attend t.elapsed r).1 = .begin duty) ↔
      Rightful r t.elapsed t.log ∧ .started r ∉ happened t.log) ∧
    (∀ {r q}, q ≠ r → (t.system.cancelJob r).job? q = t.system.job? q ∧
      ∀ now, ((t.system.cancelJob r).attend now q).1 = (t.system.attend now q).1) ∧
    (t.Prompt → ∀ v ∈ t.vigils, 0 < v.limit.nanos → t.MayReport v →
      (t.system.scheduler v.scheduler).drain =
          ⟨(unfinished v.scheduler t.log).isEmpty, (unfinished v.scheduler t.log).length⟩ ∧
        t.elapsed ≤ v.due ∧ (unfinished v.scheduler t.log ≠ [] → t.elapsed = v.due)) := by
  have recorded := h.recorded
  refine ⟨recorded.nodup_starts, recorded.start_justified, fun {r} starts lives => ?_,
    recorded.refuses, recorded.begins_iff, fun {r q} other => ⟨?_, ?_⟩,
    fun prompt v mem limited may => prompt.reports mem limited may⟩
  · obtain ⟨j, found⟩ := recorded.job?_of_started starts
    exact ⟨j, found, (recorded.started_iff found).mpr ⟨starts, lives⟩⟩
  · exact (t.system.job?_cancelJob r q).trans (if_neg other)
  · exact t.system.attend_cancelJob_of_ne other

theorem lifecycle_of_overdue :
    let t := overdue (.ofMillis 5) (.ofMillis 10)
    t.Reachable ∧ (starts t.log).Nodup ∧
      Rightful ⟨0, 1⟩ 5 [(0, .scheduled ⟨0, 1⟩ (.ofMillis 5))] ∧
      (∃ j, t.system.job? ⟨0, 1⟩ = some j ∧ j.phase = .started) ∧
      t.system.schedule 15 0 (.errand 1) .zero = (⟨0, 0⟩, t.system) ∧
      (t.Prompt ∧ (t.system.scheduler 0).drain = ⟨false, 1⟩) := by
  intro t
  have prompt : t.Prompt := prompt_overdue (by decide) (.ofMillis 10)
  have starts : (5, .started ⟨0, 1⟩) :: [(0, .scheduled ⟨0, 1⟩ (.ofMillis 5))] <:+ t.log :=
    ⟨[(5, .stopped 0)], by decide +kernel⟩
  obtain ⟨once, rightful, runs, refuses, -, -, reports⟩ := prompt.reachable.lifecycle
  refine ⟨prompt.reachable, once, (rightful starts).1, runs (by decide) (by decide),
    (refuses (by decide)).1 15 (.errand 1) .zero, prompt, ?_⟩
  exact (reports prompt ⟨0, .ofMillis 10, 5⟩ (by decide +kernel) (by decide)
    (.inr (by decide +kernel))).1

/-- A job that is to start after forty years of 365 days has started after thirty. -/
theorem starts_before_its_delay :
    let forty : Duration := .ofMillis (40 * 365 * 86400000)
    let thirty : Nat := 30 * 365 * 86400000
    let t := overdue forty .zero
    t.Prompt ∧ (0, .scheduled ⟨0, 1⟩ forty) ∈ t.log ∧ (thirty, .started ⟨0, 1⟩) ∈ t.log ∧
      thirty < 0 + forty.ticks := by
  intro forty thirty t
  have prompt : t.Prompt := prompt_overdue (by decide) .zero
  exact ⟨prompt, by decide +kernel, by decide +kernel, by decide +kernel⟩

end Timetable

end RecurringWork
