import RecurringWork.Proofs.Actor.Call

/-!
# RecurringWork.Proofs.Actor.Coming

**Firings that are still to come.** An entry is *served* while its name leads to it, it is
not cancelled, and the scheduler of its manager accepts jobs (`Serves`). A firing that is
scheduled for it then will begin in its time: it waits, nobody has cancelled it, and
nothing but its own beginning ends that (`Coming`). What else happens to the system
upholds both (`Upholds`).
-/

namespace RecurringWork

theorem Duration.toMillis_nonneg (d : Duration) : 0 ≤ d.toMillis := by
  rw [toMillis, Instant.maximum]
  omega

namespace ActorSystem

/-- A name leads to an entry for which firings can be scheduled. -/
structure Serves (s : ActorSystem) (m : Nat) (name : String) (n : Nat) : Prop where
  leads : s.registered? m name = some n
  alive : ∃ e, s.entry? n = some e ∧ e.cancelled = false
  live : ∃ k, s.manager? m = some k ∧ s.Live k.scheduler

/-- A firing of an entry waits for a time that is `last` at the latest. -/
def Coming (s : ActorSystem) (m n : Nat) (last : Int) : Prop :=
  ∃ r j, s.job? r = some j ∧ j.duty = .firing m n ∧ j.phase = .waiting ∧ j.cancelled = false ∧
    (s.scheduler r.scheduler).stopped = false ∧ (j.due : Int) ≤ last

theorem Coming.mono {s : ActorSystem} {m n : Nat} {last later : Int} (h : s.Coming m n last)
    (le : last ≤ later) : s.Coming m n later := by
  obtain ⟨r, j, found, duty, waits, alive, open_, due⟩ := h
  exact ⟨r, j, found, duty, waits, alive, open_, Int.le_trans due le⟩

/-- An entry that is served stays so, and its firings are still to come. -/
structure Upholds (s t : ActorSystem) (m : Nat) (name : String) (n : Nat) : Prop where
  serves : s.Serves m name n → t.Serves m name n
  coming : ∀ {last : Int}, s.Coming m n last → t.Coming m n last

variable {s t u : ActorSystem} {m n : Nat} {name : String}

theorem Upholds.refl (s : ActorSystem) (m : Nat) (name : String) (n : Nat) :
    s.Upholds s m name n := ⟨id, id⟩

theorem Upholds.trans (first : s.Upholds t m name n) (second : t.Upholds u m name n) :
    s.Upholds u m name n :=
  ⟨second.serves ∘ first.serves, second.coming ∘ first.coming⟩

/-! ### What firings do -/

theorem Serves.alike (h : s.Serves m name n) (a : s.Alike t)
    (open_ : ∀ {k}, s.Live k → t.Live k) : t.Serves m name n where
  leads := (a.registered m name).trans h.leads
  alive := by
    obtain ⟨e, found, alive⟩ := h.alive
    obtain ⟨e', found', core⟩ := a.entry found
    exact ⟨e', found', (Entry.cancelled_eq_of_core core).trans alive⟩
  live := by
    obtain ⟨k, manages, live⟩ := h.live
    exact ⟨k, (a.manager m).trans manages, open_ live⟩

/-- A move on an entry concerns the lock only. -/
theorem upholds_moved {r : Nat} {e d : Entry} (found : s.entry? r = some e)
    (core : d.core = e.core) (jobs : List JobRef) :
    s.Upholds ((s.modifyEntry r fun _ => d).alert jobs) m name n where
  serves := fun h => h.alike (alike_moved found core jobs) fun live => ⟨live.known, live.open_⟩
  coming := id

theorem Serves.finishJob (h : s.Serves m name n) (r : JobRef) : (s.finishJob r).Serves m name n :=
  h.alike (alike_finishJob s r) fun live => live.modifyScheduler r.scheduler fun _ => rfl

/-- A job that has started was not to come any more, so it may end. -/
theorem upholds_finishJob {r : JobRef} {j : Job Duty} (found : s.job? r = some j)
    (started : j.phase = .started) : s.Upholds (s.finishJob r) m name n where
  serves := fun h => h.finishJob r
  coming := by
    rintro last ⟨q, i, here, duty, waits, alive, open_, due⟩
    have other : q ≠ r := by
      rintro rfl
      rw [found] at here
      cases here
      rw [started] at waits
      cases waits
    refine ⟨q, i, ?_, duty, waits, alive, ?_, due⟩
    · rw [job?_finishJob, if_neg other]
      exact here
    · show ((s.modifyScheduler r.scheduler _).scheduler q.scheduler).stopped = false
      rw [scheduler_modifyScheduler]
      split <;> exact open_

/-- A job that begins leaves what is served. It is not to come any more itself. -/
theorem Serves.attend_begin {now : Nat} {r : JobRef} {duty : Duty} (h : s.Serves m name n)
    (begins : s.attend now r = (.begin duty, t)) : t.Serves m name n := by
  refine h.alike (alike_attend_begin begins) fun live => ?_
  obtain ⟨-, rfl⟩ := attend_begin_inv begins
  exact live.modifyScheduler r.scheduler fun _ => rfl

/-! ### What is scheduled -/

theorem Live.scheduleEntry {k : Nat} (live : s.Live k) (now m n : Nat) (delay : Duration) :
    (s.scheduleEntry now m n delay).Live k where
  known := by
    rcases s.scheduleEntry_cases now m n delay with same | ⟨e, c, -, -, -, same⟩
    · rw [same]
      exact live.known
    · rw [same]
      show k < (s.schedulers.modify c.scheduler _).length
      rw [List.length_modify]
      exact live.known
  open_ := (stopped_scheduleEntry s now m n delay k).trans live.open_

/-- To schedule a firing of any entry takes nothing back. -/
theorem upholds_scheduleEntry (numbered : s.Numbered) (now k r : Nat) (delay : Duration) :
    s.Upholds (s.scheduleEntry now k r delay) m name n where
  serves := by
    intro h
    constructor
    · rw [registered?, manager?_scheduleEntry]
      exact h.leads
    · obtain ⟨e, found, alive⟩ := h.alive
      rcases s.entry?_scheduleEntry now k r delay n with same | ⟨e', q, found', same⟩
      · exact ⟨e, same.trans found, alive⟩
      · rw [found] at found'
        cases found'
        exact ⟨_, same, alive⟩
    · obtain ⟨c, manages, live⟩ := h.live
      refine ⟨c, ?_, live.scheduleEntry _ _ _ _⟩
      exact (s.manager?_scheduleEntry now k r delay m).trans manages
  coming := by
    rintro last ⟨q, j, found, duty, waits, alive, open_, due⟩
    have still := (stopped_scheduleEntry s now k r delay q.scheduler).trans open_
    refine ⟨q, j, ?_, duty, waits, alive, still, due⟩
    rcases s.job?_scheduleEntry numbered now k r delay q with same | ⟨none, -⟩
    · exact same.trans found
    · rw [found] at none
      cases none

/-- **What is scheduled for an entry that is served will come in its time.** -/
theorem Serves.coming (h : s.Serves m name n) (now : Nat) (delay : Duration) :
    (s.scheduleEntry now m n delay).Coming m n (now + delay.timer : Nat) := by
  obtain ⟨e, found, alive⟩ := h.alive
  obtain ⟨k, manages, live⟩ := h.live
  have job := job?_scheduleEntry_of_live found alive manages live now delay
    ⟨k.scheduler, (s.scheduler k.scheduler).jobs.length + 1⟩
  rw [if_pos rfl] at job
  refine ⟨_, _, job, rfl, rfl, rfl, ?_, Int.le_refl _⟩
  exact (stopped_scheduleEntry s now m n delay k.scheduler).trans live.open_

/-- Whoever wakes an actor under a name that leads to it schedules its entry. -/
theorem wake_of_registered (leads : s.registered? m name = some n) (now : Nat) {delay : Int}
    (positive : 0 ≤ delay) :
    s.wake now m name delay = .ok (s.scheduleEntry now m n (.ofMillis delay.toNat)) := by
  rw [wake, Duration.ofDelay, if_neg (Int.not_lt.mpr positive)]
  simp only [bind, Except.bind, leads]
  rfl

theorem Serves.upholds_wake (h : s.Serves m name n) (numbered : s.Numbered) (now : Nat)
    (delay : Int) : s.Upholds ((Call.wake m name delay).perform now s) m name n := by
  show s.Upholds (s.after (s.wake now m name delay)) m name n
  by_cases positive : 0 ≤ delay
  · rw [wake_of_registered h.leads now positive]
    exact upholds_scheduleEntry numbered now m n _
  · rw [wake, Duration.ofDelay, if_pos (Int.not_le.mp positive)]
    exact .refl s m name n

/-- The end of a run that is to be repeated. -/
theorem conclude_reschedule {e : Entry} (found : s.entry? n = some e) (now m : Nat) (at_ : Int)
    (delay : Duration) : s.conclude now m n at_ (.reschedule delay) =
      (s.modifyManager m fun k => k.succeeded e.name).scheduleEntry now m n delay := by
  rw [conclude, found]

theorem upholds_succeeded (k : Nat) (other : String) :
    s.Upholds (s.modifyManager k fun c => c.succeeded other) m name n where
  serves := by
    intro h
    refine ⟨?_, h.alive, ?_⟩
    · have keeps : ∀ {c}, s.manager? k = some c → (c.succeeded other).names = c.names :=
        fun _ => rfl
      rw [registered?_modifyManager keeps]
      exact h.leads
    · obtain ⟨c, manages, live⟩ := h.live
      rw [manager?_modifyManager, manages]
      by_cases here : k = m
      · rw [if_pos here]
        exact ⟨c.succeeded other, rfl, live.known, live.open_⟩
      · rw [if_neg here]
        exact ⟨c, rfl, live.known, live.open_⟩
  coming := id

/-- **A run that is to be repeated after a pause is scheduled for then**, and takes
nothing back. -/
theorem Serves.endRun {j : Job Duty} {r : JobRef} (h : s.Serves m name n) (numbered : s.Numbered)
    (found : s.job? r = some j) (started : j.phase = .started) (now : Nat) (at_ : Int)
    (pause : Duration) :
    s.Upholds ((s.endRun now m n at_ (some (.reschedule pause))).finishJob r) m name n ∧
      ((s.endRun now m n at_ (some (.reschedule pause))).finishJob r).Coming m n
        (now + pause.timer : Nat) := by
  obtain ⟨e, here, -⟩ := h.alive
  have forgives : s.Upholds (s.modifyManager m fun k => k.succeeded e.name) m name n :=
    upholds_succeeded m e.name
  have schedules : (s.modifyManager m fun k => k.succeeded e.name).Upholds
      (s.conclude now m n at_ (.reschedule pause)) m name n := by
    rw [conclude_reschedule here]
    exact upholds_scheduleEntry (s := s.modifyManager m fun k => k.succeeded e.name) numbered now
      m n pause
  have comes :
      (s.conclude now m n at_ (.reschedule pause)).Coming m n (now + pause.timer : Nat) := by
    rw [conclude_reschedule here]
    exact (forgives.serves h).coming now pause
  -- The job of the run itself is none of those that are to come, so it may end.
  have job : (s.conclude now m n at_ (.reschedule pause)).job? r = some j := by
    rw [conclude_reschedule here]
    rcases job?_scheduleEntry (s := s.modifyManager m fun k => k.succeeded e.name) numbered now m n
      pause r with same | ⟨none, -⟩
    · exact same.trans found
    · rw [job?_modifyManager, found] at none
      cases none
  obtain ⟨d, there, -⟩ := (schedules.serves (forgives.serves h)).alive
  have leaves : (s.conclude now m n at_ (.reschedule pause)).Upholds
      ((s.endRun now m n at_ (some (.reschedule pause))).finishJob r) m name n := by
    show ActorSystem.Upholds _
      (((s.conclude now m n at_ (.reschedule pause)).leave n).finishJob r) m name n
    rw [leave_of_found there]
    exact (upholds_moved there d.core_leave _).trans (upholds_finishJob job started)
  exact ⟨(forgives.trans schedules).trans leaves, leaves.coming comes⟩

/-! ### What is registered -/

/-- A name that is free is registered at once. -/
theorem register_of_free (free : s.registered? m name = none) (now actor : Nat) {delay : Int}
    (positive : 0 ≤ delay) : s.register now m name actor delay =
      .ok ((s.enrol m name actor).scheduleEntry now m s.entries.length
        (.ofMillis delay.toNat)) := by
  rw [register, insert, free, Duration.ofDelay, if_neg (Int.not_lt.mpr positive)]
  rfl

theorem serves_enrol {k : Manager} (free : s.registered? m name = none)
    (manages : s.manager? m = some k) (live : s.Live k.scheduler) (actor : Nat) :
    (s.enrol m name actor).Serves m name s.entries.length where
  leads := by
    rw [registered?_enrol, free, if_pos ⟨rfl, rfl, by rw [manages]; rfl⟩, Option.none_or]
  alive := ⟨.ofActor name actor, by rw [entry?_enrol, if_pos rfl], rfl⟩
  live := by
    refine ⟨{ k with names := k.names ++ [(name, s.entries.length)] }, ?_, live.known, live.open_⟩
    rw [enrol, manager?_modifyManager, if_pos rfl]
    exact congrArg (Option.map _) manages

end ActorSystem

end RecurringWork
