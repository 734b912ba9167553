import Mathlib.Data.List.Nodup
import Mathlib.Data.List.Perm.Subperm
import RecurringWork.Proofs.Actor.Call
import RecurringWork.Proofs.Actor.Lane

/-!
# RecurringWork.Proofs.Actor.Fleet

**All runs of an actor system, in every order.** A `Fleet` is an actor system with the
firings that have begun and are not over, and the time that has passed. Between any two
of its steps managers can be called, time can pass, jobs can begin, and runs can go on
for as long as they like. What one firing does stands by itself: it begins, it goes on once
it has been given the lock, and its run ends (`Fleet.Begins`, `Fleet.Resumes`, `Fleet.Ends`).
The steps of a fleet are made of these, and so are those of all that is built on fleets.

Two things hold of every fleet (`Fleet.Sound`). The system is sound, and every firing
is a job that has started, no two the same. And the fleet is made of lanes: an entry with
its own firings, seen by itself, is a lane that can be reached (`Fleet.lane`), whatever
happens to the other entries. So what is true of lanes is true of every entry of every
fleet.
-/

namespace RecurringWork

/-- A firing that has begun. -/
structure Flight where
  job : JobRef
  manager : Nat
  entry : Nat
  deriving DecidableEq

/-- An actor system with its firings. -/
structure Fleet where
  system : ActorSystem
  elapsed : Nat
  /-- The firings that have claimed the slot of their entry and have not gone on since. -/
  waiting : List Flight
  /-- The firings that run their actor. -/
  running : List Flight

namespace Fleet

/-- The fleet after a firing has made a move that led to a system. A firing that does
not run or wait is over. -/
def accept (f : Fleet) (x : Flight) (arrival : Arrival) (s : ActorSystem) : Fleet :=
  match arrival with
  | .runs => { f with system := s, running := x :: f.running }
  | .waits => { f with system := s, waiting := x :: f.waiting }
  | .dropped | .skipped => { f with system := s.finishJob x.job }

/-- A job begins and fires its entry, and this becomes of the firing. -/
inductive Begins (x : Flight) : Arrival → Fleet → Fleet → Prop
  | intro {f : Fleet} {s : ActorSystem} :
      f.system.attend f.elapsed x.job = (.begin (.firing x.manager x.entry), s) →
      Begins x (s.fire x.entry x.job).1 f
        (f.accept x (s.fire x.entry x.job).1 (s.fire x.entry x.job).2)

/-- A firing that waits goes on once it has been given the lock, and this becomes of it. -/
inductive Resumes (x : Flight) : Arrival → Fleet → Fleet → Prop
  | intro {s : ActorSystem} {elapsed : Nat} {before after running : List Flight} {e : Entry} :
      s.entry? x.entry = some e → e.holder = some x.job →
      Resumes x (s.proceed x.entry).1 ⟨s, elapsed, before ++ x :: after, running⟩
        (accept ⟨s, elapsed, before ++ after, running⟩ x (s.proceed x.entry).1
          (s.proceed x.entry).2)

/-- A run ends with some result, or breaks off without one. -/
inductive Ends (x : Flight) (at_ : Int) (result : Option RunResult) : Fleet → Fleet → Prop
  | intro {s : ActorSystem} {elapsed : Nat} {waiting before after : List Flight} :
      Ends x at_ result ⟨s, elapsed, waiting, before ++ x :: after⟩
        ⟨(s.endRun elapsed x.manager x.entry at_ result).finishJob x.job, elapsed, waiting,
          before ++ after⟩

/-- What goes on by itself while no firing begins. -/
inductive Continues : Fleet → Fleet → Prop
  /-- Time passes. -/
  | passes {f : Fleet} (d : Nat) : Continues f { f with elapsed := f.elapsed + d }
  /-- A job ends that was cancelled. -/
  | lapses {f : Fleet} {job : JobRef} {s : ActorSystem} :
      f.system.attend f.elapsed job = (.over, s) → Continues f { f with system := s }
  | resumes {f g : Fleet} {x : Flight} {a : Arrival} : Resumes x a f g → Continues f g
  /-- Those that can go on have heard of it. -/
  | hears {f : Fleet} : Continues f { f with system := { f.system with alerts := [] } }

/-- What happens to the firings by themselves: nobody calls a manager, and no run ends. -/
inductive Moves (f g : Fleet) : Prop
  | begins {x : Flight} {a : Arrival} : Begins x a f g → Moves f g
  | continues : Continues f g → Moves f g

/-- One thing that happens. -/
inductive Step : Fleet → Fleet → Prop
  | moves {f g : Fleet} : Moves f g → Step f g
  /-- A manager is called. -/
  | calls {f : Fleet} (c : Call) : Step f { f with system := c.perform f.elapsed f.system }
  | ends {f g : Fleet} {x : Flight} {at_ : Int} {result : Option RunResult} :
      Ends x at_ result f g → Step f g

/-- Any number of things that happen one after the other. -/
abbrev Steps : Fleet → Fleet → Prop := Relation.ReflTransGen Step

/-- Managers and schedulers that nobody has used. -/
structure Blank (s : ActorSystem) : Prop where
  entries : s.entries = []
  names : ∀ k ∈ s.managers, k.names = []
  jobs : ∀ c ∈ s.schedulers, c.jobs = []

/-- What can come of managers and schedulers that nobody has used. -/
def Reachable (f : Fleet) : Prop := ∃ s, Blank s ∧ Steps ⟨s, 0, [], []⟩ f

theorem Reachable.steps {f g : Fleet} (h : f.Reachable) (run : Steps f g) : g.Reachable := by
  obtain ⟨s, blank, start⟩ := h
  exact ⟨s, blank, start.trans run⟩

/-! ### Steps as changes -/

theorem alike_accept (f : Fleet) (x : Flight) (a : Arrival) (s : ActorSystem) :
    s.Alike (f.accept x a s).system := by
  cases a with
  | runs => exact .refl s
  | waits => exact .refl s
  | dropped => exact ActorSystem.alike_finishJob s x.job
  | skipped => exact ActorSystem.alike_finishJob s x.job

theorem Begins.alike {x : Flight} {a : Arrival} {f g : Fleet} (h : Begins x a f g) :
    f.system.Alike g.system := by
  cases h with
  | @intro _ s begins =>
      refine (ActorSystem.alike_attend_begin begins).trans ?_
      exact (s.alike_move x.entry fun e => e.core_fire x.job).trans (alike_accept f x _ _)

theorem Continues.alike {f g : Fleet} (h : Continues f g) : f.system.Alike g.system := by
  cases h with
  | passes d => exact .refl _
  | lapses lapses =>
      rcases ActorSystem.attend_over_inv lapses with rfl | ⟨-, rfl⟩
      · exact .refl _
      · exact ActorSystem.alike_finishJob _ _
  | @resumes _ x _ resumes =>
      cases resumes with
      | @intro s =>
          exact (s.alike_move x.entry fun e => e.core_proceed).trans (alike_accept _ x _ _)
  | hears => exact ⟨id, fun _ => rfl, fun _ => rfl, fun _ => rfl⟩

/-- **What happens to firings by themselves concerns locks and phases only.** -/
theorem Moves.alike {f g : Fleet} (h : Moves f g) : f.system.Alike g.system := by
  cases h with
  | begins begins => exact begins.alike
  | continues continues => exact continues.alike

/-- The run that ends is one of those in flight. -/
theorem Ends.mem_running {x : Flight} {at_ : Int} {result : Option RunResult} {f g : Fleet}
    (h : Ends x at_ result f g) : x ∈ f.running := by
  cases h with
  | intro => exact List.mem_append_right _ List.mem_cons_self

theorem Ends.system {x : Flight} {at_ : Int} {result : Option RunResult} {f g : Fleet}
    (h : Ends x at_ result f g) : g.system =
      (f.system.endRun f.elapsed x.manager x.entry at_ result).finishJob x.job := by
  cases h with
  | intro => rfl

/-- The only run ends. -/
theorem ends_alone (x : Flight) (at_ : Int) (result : Option RunResult) (s : ActorSystem)
    (elapsed : Nat) (waiting : List Flight) : Ends x at_ result ⟨s, elapsed, waiting, [x]⟩
      ⟨(s.endRun elapsed x.manager x.entry at_ result).finishJob x.job, elapsed, waiting, []⟩ :=
  @Ends.intro x at_ result s elapsed waiting [] []

/-- **A step makes elementary changes, and after them moves on locks.** A fact about both is
a fact about steps. -/
theorem Step.changes {f g : Fleet} (sound : f.system.Sound)
    (owned : ∀ x ∈ f.running, f.system.Owns x.manager x.entry) (st : Step f g) :
    ∃ u, ActorSystem.Changes f.system u ∧ u.Alike g.system := by
  cases st with
  | moves mv => exact ⟨_, .refl, mv.alike⟩
  | calls c => exact ⟨_, ActorSystem.changes_perform sound f.elapsed c, .refl _⟩
  | @ends _ x at_ result ends =>
      rw [ends.system]
      cases result with
      | none => exact ⟨_, .refl, f.system.alike_over x.entry x.job⟩
      | some r =>
          have changes := ActorSystem.changes_conclude (owned x ends.mem_running) f.elapsed at_ r
          exact ⟨_, changes, ActorSystem.alike_over _ x.entry x.job⟩

/-! ### Lanes -/

/-- The jobs of the firings of an entry. -/
def jobsOf (n : Nat) (flights : List Flight) : List JobRef :=
  (flights.filter fun x => x.entry == n).map Flight.job

/-- An entry with its own firings. -/
def lane (f : Fleet) (n : Nat) (e : Entry) : Lane := ⟨e, jobsOf n f.waiting, jobsOf n f.running⟩

theorem jobsOf_cons_self (x : Flight) (flights : List Flight) :
    jobsOf x.entry (x :: flights) = x.job :: jobsOf x.entry flights := by
  simp [jobsOf]

theorem jobsOf_cons_of_ne {x : Flight} {n : Nat} (h : x.entry ≠ n) (flights : List Flight) :
    jobsOf n (x :: flights) = jobsOf n flights := by
  simp [jobsOf, h]

@[simp] theorem jobsOf_append (n : Nat) (before after : List Flight) :
    jobsOf n (before ++ after) = jobsOf n before ++ jobsOf n after := by
  simp [jobsOf]

theorem mem_jobsOf {n : Nat} {flights : List Flight} {r : JobRef} :
    r ∈ jobsOf n flights ↔ ∃ x ∈ flights, x.entry = n ∧ x.job = r := by
  simp [jobsOf, and_assoc]

/-- Firings of other entries do not show in a lane. -/
theorem jobsOf_middle_of_ne {x : Flight} {n : Nat} (h : x.entry ≠ n) (before after : List Flight) :
    jobsOf n (before ++ x :: after) = jobsOf n (before ++ after) := by
  rw [jobsOf_append, jobsOf_append, jobsOf_cons_of_ne h]

/-- The lane of the entry on which a firing has made a move. -/
theorem lane_accept_self (f : Fleet) (x : Flight) (e : Entry) (m : Move) (s : ActorSystem) :
    (f.accept x m.arrival s).lane x.entry m.entry = (f.lane x.entry e).accept x.job m := by
  obtain ⟨arrival, handed, entry⟩ := m
  cases arrival <;> simp [accept, Lane.accept, lane, jobsOf_cons_self]

theorem lane_accept_of_ne {x : Flight} {n : Nat} (h : x.entry ≠ n) (f : Fleet) (a : Arrival)
    (s : ActorSystem) (e : Entry) : (f.accept x a s).lane n e = f.lane n e := by
  cases a <;> simp [accept, lane, jobsOf_cons_of_ne h]

/-! ### What every fleet keeps -/

/-- The firings of a fleet. -/
def flights (f : Fleet) : List Flight := f.waiting ++ f.running

/-- The system is sound, and the firings are jobs that have started, no two the same. -/
structure Manned (s : ActorSystem) (flights : List Flight) : Prop where
  system : s.Sound
  started : ∀ {x : Flight}, x ∈ flights → ∃ j, s.job? x.job = some j ∧ j.phase = .started ∧
    j.duty = .firing x.manager x.entry
  distinct : (flights.map Flight.job).Nodup

/-- Every entry with its firings is a lane. -/
def Laned (f : Fleet) : Prop :=
  ∀ {n : Nat} {e : Entry}, f.system.entry? n = some e → (f.lane n e).Reachable

structure Sound (f : Fleet) : Prop where
  manned : Manned f.system f.flights
  laned : f.Laned

/-- Two firings of one job are one. -/
theorem Manned.eq_of_job {s : ActorSystem} {flights : List Flight} (h : Manned s flights)
    {x y : Flight} (hx : x ∈ flights) (hy : y ∈ flights) (same : x.job = y.job) : x = y :=
  List.inj_on_of_nodup_map h.distinct hx hy same

/-! ### The firings -/

theorem Manned.alike {s t : ActorSystem} {flights : List Flight} (h : Manned s flights)
    (a : s.Alike t) (kept : ∀ x ∈ flights, t.job? x.job = s.job? x.job) : Manned t flights where
  system := h.system.alike a
  started := by
    intro x mem
    rw [kept x mem]
    exact h.started mem
  distinct := h.distinct

theorem Manned.change {s t : ActorSystem} {flights : List Flight} (h : Manned s flights)
    (c : ActorSystem.Change s t) : Manned t flights where
  system := h.system.change c
  started := by
    intro x mem
    obtain ⟨j, found, phase, duty⟩ := h.started mem
    obtain ⟨j', found', duty', phase'⟩ := c.job h.system.numbered found
    exact ⟨j', found', phase'.trans phase, duty'.trans duty⟩
  distinct := h.distinct

theorem Manned.subperm {s : ActorSystem} {flights fewer : List Flight} (h : Manned s flights)
    (sub : fewer.Subperm flights) : Manned s fewer where
  system := h.system
  started := fun mem => h.started (sub.subset mem)
  distinct := by
    obtain ⟨l, perm, sublist⟩ := sub
    exact (perm.map Flight.job).nodup_iff.mp (h.distinct.sublist (sublist.map Flight.job))

/-- The entry of a firing exists. -/
theorem Manned.owns {s : ActorSystem} {flights : List Flight} (h : Manned s flights) {x : Flight}
    (mem : x ∈ flights) : s.Owns x.manager x.entry := by
  obtain ⟨j, found, -, duty⟩ := h.started mem
  exact h.system.owned found duty

/-- A firing that is over leaves the others as they are. -/
theorem Manned.finish {s : ActorSystem} {flights : List Flight} {x : Flight}
    (h : Manned s (x :: flights)) : Manned (s.finishJob x.job) flights := by
  refine (h.subperm (List.sublist_cons_self x flights).subperm).alike
    (ActorSystem.alike_finishJob s x.job) fun y mem => ?_
  have other : y.job ≠ x.job := fun same =>
    (List.nodup_cons.mp h.distinct).1 (List.mem_map.mpr ⟨y, mem, same⟩)
  rw [ActorSystem.job?_finishJob, if_neg other]

/-- A job that begins is a firing like no other. -/
theorem Manned.begin {s t : ActorSystem} {flights : List Flight} {now m n : Nat} {r : JobRef}
    (h : Manned s flights) (begins : s.attend now r = (.begin (.firing m n), t)) :
    Manned t (⟨r, m, n⟩ :: flights) := by
  obtain ⟨⟨j, found, waits, duty, -⟩, -⟩ := ActorSystem.attend_begin_inv begins
  -- The job was waiting until now, and every firing is a job that has started.
  have new : ∀ x ∈ flights, x.job ≠ r := by
    intro x mem same
    obtain ⟨i, here, started, -⟩ := h.started mem
    rw [same, found] at here
    cases here
    rw [waits] at started
    cases started
  have old : Manned t flights := h.alike (ActorSystem.alike_attend_begin begins) fun x mem => by
    rw [ActorSystem.job?_attend_begin begins, if_neg (new x mem)]
  refine ⟨old.system, fun mem => ?_, ?_⟩
  · rcases List.mem_cons.mp mem with rfl | mem
    · refine ⟨{ j with phase := .started }, ?_, rfl, duty⟩
      rw [ActorSystem.job?_attend_begin begins, if_pos rfl, found]
      rfl
    · exact old.started mem
  · refine List.nodup_cons.mpr ⟨fun mem => ?_, h.distinct⟩
    obtain ⟨x, mem, same⟩ := List.mem_map.mp mem
    exact new x mem same

/-- What has become of a firing, it is one of the firings from then on, or over. -/
theorem Manned.accept {f : Fleet} {x : Flight} {s : ActorSystem} (h : Manned s (x :: f.flights))
    (a : Arrival) : Manned (f.accept x a s).system (f.accept x a s).flights := by
  cases a with
  | runs => exact h.subperm List.perm_middle.subperm
  | waits => exact h
  | dropped => exact h.finish
  | skipped => exact h.finish

/-! ### The lanes -/

@[simp] theorem entry?_finishJob (s : ActorSystem) (r : JobRef) (n : Nat) :
    ActorSystem.entry? (s.finishJob r) n = s.entry? n := rfl

theorem entry?_accept (f : Fleet) (x : Flight) (a : Arrival) (s : ActorSystem) (n : Nat) :
    (f.accept x a s).system.entry? n = s.entry? n := by
  cases a <;> rfl

@[simp] theorem elapsed_accept (f : Fleet) (x : Flight) (a : Arrival) (s : ActorSystem) :
    (f.accept x a s).elapsed = f.elapsed := by
  cases a <;> rfl

/-- A move on an entry changes the lane of that entry only. -/
theorem laned_accept {f : Fleet} {x : Flight} {e : Entry} {m : Move} {jobs : List JobRef}
    (found : f.system.entry? x.entry = some e)
    (others : ∀ {n : Nat} {d : Entry}, x.entry ≠ n → f.system.entry? n = some d →
      (f.lane n d).Reachable)
    (own : ((f.lane x.entry e).accept x.job m).Reachable) :
    (f.accept x m.arrival
      ((f.system.modifyEntry x.entry fun _ => m.entry).alert jobs)).Laned := by
  intro n d here
  rw [entry?_accept, ActorSystem.entry?_alert, ActorSystem.entry?_modifyEntry] at here
  by_cases same : x.entry = n
  · subst same
    rw [if_pos rfl, found] at here
    cases here
    rw [lane_accept_self f x e m]
    exact own
  · rw [if_neg same] at here
    rw [lane_accept_of_ne same]
    exact others same here

/-- What touches an entry from outside is a step of its lane. -/
theorem reachable_touched {f : Fleet} {n : Nat} {e d : Entry} (h : (f.lane n e).Reachable)
    (touched : e.Touched d) : (f.lane n d).Reachable := by
  cases touched with
  | same => exact h
  | scheduled r => exact h.step (.schedules r)
  | cancelled => exact h.step .cancels

/-- A firing has an entry, so an entry that is new has no firings. -/
theorem jobsOf_of_none {s : ActorSystem} {flights some : List Flight} (h : Manned s flights)
    (sub : some ⊆ flights) {n : Nat} (none : s.entry? n = none) : jobsOf n some = [] := by
  rw [List.eq_nil_iff_forall_not_mem]
  intro r mem
  obtain ⟨x, here, rfl, -⟩ := mem_jobsOf.mp mem
  obtain ⟨e, found, -⟩ := h.owns (sub here)
  rw [none] at found
  cases found

theorem Sound.change {f : Fleet} {t : ActorSystem} (h : f.Sound)
    (c : ActorSystem.Change f.system t) : Sound { f with system := t } where
  manned := h.manned.change c
  laned := by
    intro n d here
    cases before : f.system.entry? n with
    | some e =>
        obtain ⟨e', found, touched⟩ := c.entry before
        rw [show t.entry? n = some d from here] at found
        cases found
        exact reachable_touched (h.laned before) touched
    | none =>
        -- Nothing can have fired an entry that was not there.
        obtain ⟨name, actor, rfl⟩ := c.fresh here before
        have waiting : jobsOf n f.waiting = [] :=
          jobsOf_of_none h.manned (List.subset_append_left _ _) before
        have running : jobsOf n f.running = [] :=
          jobsOf_of_none h.manned (List.subset_append_right _ _) before
        rw [lane]
        dsimp only
        rw [waiting, running]
        exact ⟨name, actor, [], .refl _⟩

theorem Sound.changes {f : Fleet} {t : ActorSystem} (h : f.Sound)
    (c : ActorSystem.Changes f.system t) : Sound { f with system := t } := by
  induction c with
  | refl => exact h
  | tail _ last ih => exact ih.change last

/-! ### Every step -/

theorem Sound.begin {x : Flight} {a : Arrival} {f g : Fleet} (h : f.Sound)
    (begins : Begins x a f g) : g.Sound := by
  obtain ⟨r, m, n⟩ := x
  obtain @⟨_, s, begins⟩ := begins
  dsimp only at begins ⊢
  have manned := h.manned.begin begins
  have new : r ∉ f.flights.map Flight.job := (List.nodup_cons.mp manned.distinct).1
  obtain ⟨e, found, -⟩ := manned.owns List.mem_cons_self
  obtain ⟨-, same⟩ := ActorSystem.attend_begin_inv begins
  have entries : ∀ k, s.entry? k = f.system.entry? k := by
    intro k
    rw [same]
    rfl
  rw [ActorSystem.fire, ActorSystem.move_of_found found]
  constructor
  · exact (manned.alike (ActorSystem.alike_moved found (e.core_fire r) _) fun _ _ => rfl).accept _
  · refine laned_accept (f := { f with system := s }) found (fun _ here => ?_) ?_
    · rw [show s.entry? _ = _ from entries _] at here
      exact h.laned here
    · have lane := h.laned ((entries n).symm.trans found)
      refine lane.step (.fires (fun mem => ?_) fun mem => ?_)
      · obtain ⟨x, here, -, rfl⟩ := mem_jobsOf.mp mem
        exact new (List.mem_map.mpr ⟨x, List.mem_append_left _ here, rfl⟩)
      · obtain ⟨x, here, -, rfl⟩ := mem_jobsOf.mp mem
        exact new (List.mem_map.mpr ⟨x, List.mem_append_right _ here, rfl⟩)

/-- Taken out of the firings of its entry, a firing leaves the others. -/
theorem jobsOf_erase {s : ActorSystem} {before after flights : List Flight} {x : Flight}
    (h : Manned s flights) (sub : (before ++ x :: after).Subperm flights) :
    jobsOf x.entry (before ++ after) = (jobsOf x.entry (before ++ x :: after)).erase x.job := by
  have new : x.job ∉ jobsOf x.entry before := by
    intro mem
    obtain ⟨y, here, -, same⟩ := mem_jobsOf.mp mem
    have distinct := (h.subperm sub).distinct
    rw [List.map_append, List.map_cons] at distinct
    exact (List.nodup_append.mp distinct).2.2 _ (List.mem_map.mpr ⟨y, here, rfl⟩) _
      List.mem_cons_self same
  rw [jobsOf_append, jobsOf_append, jobsOf_cons_self, List.erase_append_right _ new,
    List.erase_cons_head]

theorem Sound.resume {x : Flight} {a : Arrival} {f g : Fleet} (h : f.Sound)
    (resumes : Resumes x a f g) : g.Sound := by
  obtain @⟨s, elapsed, before, after, running, e, found, holds⟩ := resumes
  have manned : Manned s (x :: ((before ++ after) ++ running)) := by
    refine h.manned.subperm (List.Perm.subperm ?_)
    exact (List.perm_middle.append_right running).symm
  rw [ActorSystem.proceed, ActorSystem.move_of_found found]
  constructor
  · exact (manned.alike (ActorSystem.alike_moved found e.core_proceed _) fun _ _ => rfl).accept _
  · refine laned_accept (f := ⟨s, elapsed, before ++ after, running⟩) found
      (fun other here => ?_) ?_
    · have reached := h.laned here
      rw [lane, jobsOf_middle_of_ne other] at reached
      exact reached
    · have reached := h.laned found
      have waits : x.job ∈ jobsOf x.entry (before ++ x :: after) :=
        mem_jobsOf.mpr ⟨x, List.mem_append_right _ List.mem_cons_self, rfl, rfl⟩
      -- The lane erases the firing where the fleet takes it out of the middle.
      have step := reached.step (.resumes waits holds)
      rw [lane, jobsOf_erase h.manned (List.sublist_append_left _ running).subperm]
      exact step

theorem Sound.leave {s : ActorSystem} {elapsed : Nat} {waiting before after : List Flight}
    {x : Flight} (h : Sound ⟨s, elapsed, waiting, before ++ x :: after⟩) :
    Sound ⟨(s.leave x.entry).finishJob x.job, elapsed, waiting, before ++ after⟩ := by
  have perm : (waiting ++ (before ++ x :: after)).Perm (x :: (waiting ++ (before ++ after))) :=
    (List.perm_middle.append_left waiting).trans List.perm_middle
  have manned : Manned s (x :: (waiting ++ (before ++ after))) :=
    h.manned.subperm perm.symm.subperm
  obtain ⟨e, found, -⟩ := manned.owns List.mem_cons_self
  rw [ActorSystem.leave_of_found found]
  constructor
  · exact (manned.alike (ActorSystem.alike_moved found e.core_leave _) fun _ _ => rfl).finish
  · intro n d here
    dsimp only at here
    rw [entry?_finishJob, ActorSystem.entry?_alert, ActorSystem.entry?_modifyEntry] at here
    by_cases same : x.entry = n
    · subst same
      rw [if_pos rfl, found] at here
      cases here
      have runs : x.job ∈ jobsOf x.entry (before ++ x :: after) :=
        mem_jobsOf.mpr ⟨x, List.mem_append_right _ List.mem_cons_self, rfl, rfl⟩
      have step := (h.laned found).step (.ends runs)
      rw [lane, jobsOf_erase h.manned (List.sublist_append_right waiting _).subperm]
      exact step
    · rw [if_neg same] at here
      have reached := h.laned here
      rw [lane, jobsOf_middle_of_ne same] at reached
      exact reached

/-- What concerns neither entries nor the firings that are there keeps a fleet sound. -/
theorem Sound.alike {f : Fleet} {t : ActorSystem} (h : f.Sound) (a : f.system.Alike t)
    (entries : ∀ n, t.entry? n = f.system.entry? n)
    (jobs : ∀ x ∈ f.flights, t.job? x.job = f.system.job? x.job) :
    Sound { f with system := t } where
  manned := h.manned.alike a jobs
  laned := by
    intro n e here
    exact h.laned ((entries n).symm.trans here)

/-- A job that lapses was none of the firings. -/
theorem Sound.lapse {f : Fleet} (h : f.Sound) {r : JobRef} {s : ActorSystem}
    (lapses : f.system.attend f.elapsed r = (.over, s)) : Sound { f with system := s } := by
  rcases ActorSystem.attend_over_inv lapses with rfl | ⟨⟨j, found, waits, -⟩, rfl⟩
  · exact h
  · refine h.alike (ActorSystem.alike_finishJob _ _) (fun _ => rfl) fun x mem => ?_
    have other : x.job ≠ r := by
      intro same
      obtain ⟨i, here, started, -⟩ := h.manned.started mem
      rw [same, found] at here
      cases here
      rw [waits] at started
      cases started
    rw [ActorSystem.job?_finishJob, if_neg other]

theorem Sound.moves {f g : Fleet} (h : f.Sound) (mv : Moves f g) : g.Sound := by
  cases mv with
  | begins begins => exact h.begin begins
  | continues continues =>
      cases continues with
      | passes d => exact ⟨h.manned, h.laned⟩
      | lapses lapses => exact h.lapse lapses
      | resumes resumes => exact h.resume resumes
      | hears =>
          exact h.alike ⟨id, fun _ => rfl, fun _ => rfl, fun _ => rfl⟩ (fun _ => rfl)
            fun _ _ => rfl

/-- **What becomes of a firing of an entry that lives**: it runs the actor, it waits, or it is
dropped in favour of another one that waits. -/
theorem Begins.arrival {x : Flight} {a : Arrival} {f g : Fleet} (h : Begins x a f g)
    (sound : f.Sound) {e : Entry} (found : f.system.entry? x.entry = some e)
    (alive : e.cancelled = false) :
    a = .runs ∨ a = .waits ∨ a = .dropped ∧ jobsOf x.entry f.waiting ≠ [] := by
  obtain @⟨_, s, begins⟩ := h
  have same : s.entry? x.entry = some e := by
    obtain ⟨-, rfl⟩ := ActorSystem.attend_begin_inv begins
    exact found
  rw [ActorSystem.fire, ActorSystem.move_of_found same]
  have slot := (sound.laned found).tidy.slotTaken_iff
  exact (Entry.arrival_fire_of_alive alive x.job).imp_right fun rest =>
    rest.imp_right fun dropped => ⟨dropped.1, slot.mp dropped.2⟩

/-- Whoever goes on for an entry that lives runs the actor. -/
theorem Resumes.arrival {x : Flight} {a : Arrival} {f g : Fleet} (h : Resumes x a f g) {e : Entry}
    (found : f.system.entry? x.entry = some e) (alive : e.cancelled = false) : a = .runs := by
  cases h
  rw [ActorSystem.proceed, ActorSystem.move_of_found found]
  exact Entry.arrival_proceed_of_alive alive

theorem Sound.owns {f : Fleet} (h : f.Sound) {x : Flight} (mem : x ∈ f.running) :
    f.system.Owns x.manager x.entry :=
  h.manned.owns (List.mem_append_right _ mem)

/-- The end of a run keeps a fleet sound. -/
theorem Sound.ends {x : Flight} {at_ : Int} {result : Option RunResult} {f g : Fleet}
    (h : f.Sound) (ends : Ends x at_ result f g) : g.Sound := by
  have owns := h.owns ends.mem_running
  obtain @⟨s, elapsed, waiting, before, after⟩ := ends
  cases result with
  | none => exact h.leave
  | some r =>
      -- The run acts on its result while it still holds the lock.
      have concluded : Sound ⟨s.conclude elapsed x.manager x.entry at_ r, elapsed, waiting,
          before ++ x :: after⟩ :=
        h.changes (ActorSystem.changes_conclude owns elapsed at_ r)
      exact concluded.leave

/-- **Every step keeps a fleet sound.** -/
theorem Sound.step {f g : Fleet} (h : f.Sound) (st : Step f g) : g.Sound := by
  cases st with
  | moves mv => exact h.moves mv
  | calls c => exact h.changes (ActorSystem.changes_perform h.manned.system f.elapsed c)
  | ends ends => exact h.ends ends

theorem Sound.steps {f g : Fleet} (h : f.Sound) (run : Steps f g) : g.Sound := by
  induction run with
  | refl => exact h
  | tail _ st ih => exact ih.step st

theorem Blank.no_jobs {s : ActorSystem} (h : Blank s) (k : Nat) : (s.scheduler k).jobs = [] := by
  rw [ActorSystem.scheduler, List.getD_eq_getElem?_getD]
  cases known : s.schedulers[k]? with
  | none => rfl
  | some c => exact h.jobs c (List.mem_of_getElem? known)

theorem Blank.sound {s : ActorSystem} (h : Blank s) : Sound ⟨s, 0, [], []⟩ := by
  have entries : ∀ n, s.entry? n = none := by
    intro n
    rw [ActorSystem.entry?, h.entries]
    rfl
  have names : ∀ m name, s.registered? m name = none := by
    intro m name
    rw [ActorSystem.registered?]
    cases manages : s.manager? m with
    | none => rfl
    | some k =>
        show k.entry? name = none
        rw [Manager.entry?, h.names k (List.mem_of_getElem? manages)]
        rfl
  refine ⟨⟨⟨fun k j mem => ?_, fun leads => ?_, fun found => ?_⟩, fun mem => ?_, ?_⟩,
    fun found => ?_⟩
  · rw [h.no_jobs k] at mem
    cases mem
  · rw [names] at leads
    cases leads
  · rw [ActorSystem.job?, Scheduler.job?, h.no_jobs] at found
    cases found
  · cases mem
  · exact List.nodup_nil
  · rw [show s.entry? _ = none from entries _] at found
    cases found

/-- **Every fleet that can be reached is sound.** -/
theorem Reachable.sound {f : Fleet} (h : f.Reachable) : f.Sound := by
  obtain ⟨s, blank, run⟩ := h
  exact blank.sound.steps run

end Fleet

end RecurringWork
