import RecurringWork.Proofs.Actor.Retirement
import RecurringWork.Proofs.Actor.Standing

/-!
# RecurringWork.Proofs.Actor.Registry

**What it takes to end a registration, and what it takes to start a run.** In every system that
can be reached, a name leads to an entry that lives, and no two names lead to one entry
(`ActorSystem.Registry`). So a registration and its entry end together: a name is lost in a step
exactly if the entry that it leads to dies in it (`Step.registered_iff`), and a run starts only for
an entry that is registered (`Step.started`).
-/

namespace RecurringWork

namespace ActorSystem

variable {spared : Nat → String → Prop} {s t : ActorSystem} {m n : Nat} {name : String}

/-- Names lead to entries that live, each to one of its own. -/
structure Registry (s : ActorSystem) : Prop where
  sound : s.Sound
  filed : s.Filed
  alive : ∀ {m n : Nat} {name : String} {e : Entry}, s.registered? m name = some n →
    s.entry? n = some e → e.cancelled = false

namespace Registry

/-- Where a name leads, there is a live entry of that name. -/
theorem entry (h : s.Registry) (leads : s.registered? m name = some n) :
    ∃ e, s.entry? n = some e ∧ e.name = name ∧ e.cancelled = false := by
  obtain ⟨e, found, named⟩ := h.sound.named leads
  exact ⟨e, found, named, h.alive leads found⟩

/-- No two names lead to one entry. -/
theorem name_eq (h : s.Registry) (leads : s.registered? m name = some n) {k : Nat} {key : String}
    (leads' : s.registered? k key = some n) : m = k ∧ name = key := by
  obtain ⟨e, found, rfl⟩ := h.sound.named leads
  obtain ⟨e', found', rfl⟩ := h.sound.named leads'
  rw [found] at found'
  cases found'
  exact ⟨h.filed.sole leads leads', rfl⟩

/-- What a live entry is owned by leads to it. -/
theorem registered_of_owns (h : s.Registry) (leads : s.registered? m name = some n) {k : Nat}
    (owns : s.Owns k n) : k = m := by
  obtain ⟨e, found, led⟩ := owns
  exact (h.name_eq (led (h.alive leads found)) leads).1

end Registry

/-! ### Beginnings -/

/-- A job begins on a scheduler that accepts jobs. -/
theorem live_of_attend_begin {now : Nat} {r : JobRef} {duty : Duty}
    (h : s.attend now r = (.begin duty, t)) : s.Live r.scheduler where
  known := by
    obtain ⟨⟨j, found, -⟩, -⟩ := attend_begin_inv h
    by_contra unknown
    rw [job?, scheduler_of_le (Nat.le_of_not_lt unknown)] at found
    cases found
  open_ := by
    cases closed : (s.scheduler r.scheduler).stopped with
    | false => rfl
    | true =>
        have begins : (s.attend now r).1 = .over := Scheduler.attend_of_stopped closed now r.number
        rw [h] at begins
        cases begins

/-! ### Firings that nobody touches -/

/-- Entries keep their names. -/
theorem Changes.name_eq (c : Changes s t) {e : Entry} (found : s.entry? n = some e) :
    ∃ d, t.entry? n = some d ∧ d.name = e.name := by
  induction c with
  | refl => exact ⟨e, found, rfl⟩
  | tail _ last ih =>
      obtain ⟨d, there, named⟩ := ih
      obtain ⟨d', there', touched⟩ := last.entry there
      exact ⟨d', there', touched.name.trans named⟩

/-- An entry that lives after some changes lived before them. -/
theorem Changes.alive (c : Changes s t) {e d : Entry} (found : s.entry? n = some e)
    (found' : t.entry? n = some d) (alive : d.cancelled = false) : e.cancelled = false := by
  induction c using Relation.ReflTransGen.head_induction_on generalizing e with
  | refl =>
      rw [found] at found'
      cases found'
      exact alive
  | head first _ ih =>
      obtain ⟨e', between, touched⟩ := first.entry found
      cases dead : e.cancelled with
      | false => rfl
      | true => exact (touched.dead dead).symm.trans (ih between)

/-- A firing of an entry that lives after some changes is the same job as before. -/
theorem Changes.job?_of_alive (c : Changes s t) (sound : s.Sound) (filed : s.Filed) {r : JobRef}
    {j : Job Duty} {k : Nat} {e : Entry} (found : s.job? r = some j) (fires : j.duty = .firing k n)
    (here : t.entry? n = some e) (alive : e.cancelled = false) : t.job? r = some j := by
  induction c using Relation.ReflTransGen.head_induction_on with
  | refl => exact found
  | head first rest ih =>
      obtain ⟨d, there, -⟩ := sound.owned found fires
      obtain ⟨d', between, -⟩ := first.entry there
      have kept := first.job?_of_alive sound filed found fires between
        (Changes.alive rest between here alive)
      exact ih (sound.change first) (filed.change sound first) kept

/-! ### What keeps a registry -/

theorem Registry.scheduleEntry (h : s.Registry) (now : Nat) (delay : Duration)
    (owns : s.Owns m n) : (s.scheduleEntry now m n delay).Registry where
  sound := h.sound.change (.schedules now delay owns)
  filed := h.filed.change h.sound (.schedules now delay owns)
  alive := by
    intro k i name e leads found
    rw [registered?, manager?_scheduleEntry, ← registered?] at leads
    rcases s.entry?_scheduleEntry now m n delay i with same | ⟨d, r, found', changed⟩
    · exact h.alive leads (same.symm.trans found)
    · rw [changed] at found
      cases found
      have lives : d.cancelled = false := h.alive leads found'
      exact lives

theorem Registry.enrol (h : s.Registry) (free : s.registered? m name = none) (actor : Nat) :
    (s.enrol m name actor).Registry where
  sound := h.sound.change (.enrols actor free)
  filed := h.filed.change h.sound (.enrols actor free)
  alive := by
    intro k i key e leads found
    rw [entry?_enrol] at found
    split at found
    · cases found
      rfl
    · next old =>
        rw [registered?_enrol, Option.or_eq_some_iff] at leads
        rcases leads with led | ⟨-, new⟩
        · exact h.alive led found
        · split at new
          · cases new
            exact absurd rfl old
          · cases new

theorem Registry.insert (h : s.Registry) {actor : Nat}
    (result : s.insert m name actor = .ok (n, t)) : t.Registry := by
  rcases insert_inv result with ⟨rfl, -⟩ | ⟨rfl, -, free⟩
  · exact h
  · exact h.enrol free actor

/-- A firing of whatever a name leads to may be scheduled. -/
theorem Registry.schedules (h : s.Registry)
    (leads : (s.manager? m).isSome → s.registered? m name = some n) (now : Nat)
    (delay : Duration) : (s.scheduleEntry now m n delay).Registry := by
  cases manages : s.manager? m with
  | none =>
      rw [scheduleEntry_of_no_manager manages]
      exact h
  | some k =>
      have led := leads (by rw [manages]; rfl)
      obtain ⟨e, found, rfl, -⟩ := h.entry led
      exact h.scheduleEntry now delay ⟨e, found, fun _ => led⟩

theorem Registry.register (h : s.Registry) {now actor : Nat} {delay : Int}
    (result : s.register now m name actor delay = .ok t) : t.Registry := by
  obtain ⟨i, u, d, -, inserted, rfl⟩ := register_inv result
  exact (h.insert inserted).schedules (registered?_insert inserted) now d

theorem Registry.wake (h : s.Registry) {now : Nat} {delay : Int}
    (result : s.wake now m name delay = .ok t) : t.Registry := by
  obtain ⟨i, d, -, leads, rfl⟩ := wake_inv result
  exact h.schedules (fun _ => leads) now d

/-- Nobody else has the name that is removed. -/
theorem Registry.remove (h : s.Registry) (m : Nat) (name : String) :
    (s.remove m name).2.Registry where
  sound := h.sound.changes (changes_remove h.sound m name)
  filed := h.filed.changes h.sound (changes_remove h.sound m name)
  alive := by
    intro k i key e leads found
    unfold ActorSystem.remove at leads found
    split at leads
    · next free =>
        rw [free] at found
        exact h.alive leads found
    · next n led =>
        rw [led] at found
        dsimp only at leads found
        rw [registered?, manager?_cancelEntry, ← registered?, registered?_forget] at leads
        split at leads
        · cases leads
        · next other =>
            rw [entry?_cancelEntry, if_neg] at found
            · exact h.alive leads found
            · rintro rfl
              exact other (h.name_eq led leads)

theorem Registry.stopScheduler (h : s.Registry) (k : Nat) : (s.stopScheduler k).Registry where
  sound := h.sound.change (.stops k)
  filed := h.filed.change h.sound (.stops k)
  alive := h.alive

theorem Registry.stop (h : s.Registry) (m : Nat) : (s.stop m).Registry := by
  have removals : ∀ (names : List (String × Nat)) {t : ActorSystem}, t.Registry →
      (names.foldl (fun t k => (t.remove m k.1).2) t).Registry := by
    intro names
    induction names with
    | nil => exact id
    | cons k rest ih => exact fun h => ih (h.remove m k.1)
  unfold ActorSystem.stop
  split
  · exact h
  · next k _ => exact (removals k.names h).stopScheduler k.scheduler

theorem Registry.heedView (h : s.Registry) (now actor : Nat) (delay : Int) (view : View) :
    (s.heedView now m name actor delay view).Registry := by
  unfold ActorSystem.heedView
  dsimp only
  split
  · split
    · next result => exact h.register result
    · exact h
  · split
    · exact h.remove m name
    · exact h

theorem Registry.heedRequest (h : s.Registry) (now : Nat) (delay : Int) :
    (s.heedRequest now m name delay).Registry := by
  unfold ActorSystem.heedRequest
  split
  · next leads => exact h.schedules (fun _ => leads) now _
  · exact h

/-- **Every call keeps a registry.** -/
theorem Registry.perform (h : s.Registry) (now : Nat) (c : Call) : (c.perform now s).Registry := by
  cases c with
  | register m name actor delay =>
      show (s.after (s.register now m name actor delay)).Registry
      cases result : s.register now m name actor delay with
      | error e => exact h
      | ok t => exact h.register result
  | registerSuspended m name actor =>
      show (s.after ((s.insert m name actor).map Prod.snd)).Registry
      cases result : s.insert m name actor with
      | error e => exact h
      | ok p => exact h.insert result
  | wake m name delay =>
      show (s.after (s.wake now m name delay)).Registry
      cases result : s.wake now m name delay with
      | error e => exact h
      | ok t => exact h.wake result
  | remove m name => exact h.remove m name
  | request m name delay => exact h.heedRequest now delay
  | heed m name actor delay view => exact h.heedView now actor delay view
  | stop m => exact h.stop m

theorem Registry.alike (h : s.Registry) (a : s.Alike t) (keeps : s.KeepsOpen t) :
    t.Registry where
  sound := h.sound.alike a
  filed := h.filed.alike a keeps
  alive := by
    intro k i key e leads found
    obtain ⟨d, before, core⟩ := a.entry_before found
    exact (Entry.cancelled_eq_of_core core).symm.trans
      (h.alive ((a.registered k key).symm.trans leads) before)

theorem Registry.modifyManager (h : s.Registry) {f : Manager → Manager}
    (keeps : ∀ {k}, s.manager? m = some k → (f k).names = k.names ∧ (f k).scheduler = k.scheduler) :
    (s.modifyManager m f).Registry where
  sound := h.sound.change (.tallies keeps)
  filed := h.filed.change h.sound (.tallies keeps)
  alive := fun leads =>
    h.alive ((registered?_modifyManager (fun k => (keeps k).1) _ _).symm.trans leads)

/-- An entry that is done for good takes its name with it. -/
theorem Registry.done (h : s.Registry) {e : Entry} (found : s.entry? n = some e)
    (owned : e.cancelled = false → s.registered? m e.name = some n) :
    (if (s.cancelEntry n).registered? m e.name == some n then
      (s.cancelEntry n).modifyManager m fun k => k.forget e.name else s.cancelEntry n).Registry := by
  have acts : Acts (fun _ _ => True) s _ := acts_done found owned trivial
  refine ⟨h.sound.changes acts.changes, h.filed.changes h.sound acts.changes, ?_⟩
  have same : ∀ k key, (s.cancelEntry n).registered? k key = s.registered? k key := by
    intro k key
    rw [registered?, manager?_cancelEntry, ← registered?]
  -- Whatever else a name leads to is not the entry, so it lives as before.
  have others : ∀ {k i : Nat} {key : String} {d : Entry}, i ≠ n → s.registered? k key = some i →
      ActorSystem.entry? (s.cancelEntry n) i = some d → d.cancelled = false := by
    intro k i key d apart leads there
    rw [entry?_cancelEntry, if_neg (Ne.symm apart)] at there
    exact h.alive leads there
  intro k i key d leads there
  split at leads
  · next led =>
      rw [if_pos led] at there
      rw [registered?_forget] at leads
      split at leads
      · cases leads
      · next other =>
          rw [same] at leads led
          refine others ?_ leads there
          rintro rfl
          exact other (h.name_eq (by simpa using led) leads)
  · next unled =>
      rw [if_neg unled] at there
      rw [same] at leads unled
      refine others ?_ leads there
      rintro rfl
      obtain ⟨rfl, rfl⟩ := h.name_eq (owned (h.alive leads found)) leads
      exact unled (by simpa using leads)

theorem Registry.conclude (h : s.Registry) (owns : s.Owns m n) (now : Nat) (at_ : Int)
    (result : RunResult) : (s.conclude now m n at_ result).Registry := by
  obtain ⟨e, found, owned⟩ := owns
  unfold ActorSystem.conclude
  rw [found]
  have tallied : ∀ {f : Manager → Manager},
      (∀ {k}, s.manager? m = some k → (f k).names = k.names ∧ (f k).scheduler = k.scheduler) →
      (s.modifyManager m f).Registry ∧
        (e.cancelled = false → (s.modifyManager m f).registered? m e.name = some n) := by
    intro f keeps
    refine ⟨h.modifyManager keeps, fun alive => ?_⟩
    exact (registered?_modifyManager (fun k => (keeps k).1) m e.name).trans (owned alive)
  have forgiven := tallied (f := fun k => k.succeeded e.name) fun _ => ⟨rfl, rfl⟩
  cases result with
  | reschedule delay => exact forgiven.1.scheduleEntry now delay ⟨e, found, forgiven.2⟩
  | suspended => exact forgiven.1
  | done => exact forgiven.1.done found forgiven.2
  | failed =>
      dsimp only
      split
      · exact h
      · next k manages =>
          have counted := tallied (f := fun _ => (k.failed e.name at_).2) fun same => by
            rw [manages] at same
            cases same
            exact ⟨(k.tallies_failed e.name at_).names, (k.tallies_failed e.name at_).scheduler⟩
          split
          · exact counted.1.scheduleEntry now _ ⟨e, found, counted.2⟩
          · exact counted.1

end ActorSystem

namespace Fleet

open ActorSystem

variable {f g : Fleet} {m n : Nat} {name : String}

/-- A manager is called. -/
def call (f : Fleet) (c : Call) : Fleet := { f with system := c.perform f.elapsed f.system }

theorem step_call (f : Fleet) (c : Call) : Step f (f.call c) := .calls c

/-- **Every step keeps a registry.** -/
theorem Step.registry (st : Step f g) (sound : f.Sound) (h : f.system.Registry) :
    g.system.Registry := by
  cases st with
  | moves mv => exact h.alike mv.alike mv.keepsOpen
  | calls c => exact h.perform f.elapsed c
  | @ends _ x at_ result ends =>
      rw [ends.system]
      cases result with
      | none => exact h.alike (alike_over _ x.entry x.job) (keepsOpen_over _ x.entry x.job)
      | some r =>
          have concluded := h.conclude (sound.owns ends.mem_running) f.elapsed at_ r
          exact concluded.alike (alike_over _ x.entry x.job) (keepsOpen_over _ x.entry x.job)

theorem Blank.registry {s : ActorSystem} (blank : Blank s) : s.Registry where
  sound := blank.sound.manned.system
  filed := blank.filed
  alive := by
    intro m n name e leads found
    rw [ActorSystem.entry?, blank.entries] at found
    cases found

/-- **Every system that can be reached is a registry.** -/
theorem Reachable.registry (h : f.Reachable) : f.system.Registry := by
  obtain ⟨s, blank, run⟩ := h
  induction run with
  | refl => exact blank.registry
  | tail before st ih => exact st.registry (blank.sound.steps before) ih

/-- Managers keep their schedulers, and entries keep their names. -/
theorem Step.lasts (st : Step f g) (sound : f.Sound) :
    (∀ m, (g.system.manager? m).map Manager.scheduler =
        (f.system.manager? m).map Manager.scheduler) ∧
      ∀ n e, f.system.entry? n = some e → ∃ d, g.system.entry? n = some d ∧ d.name = e.name := by
  obtain ⟨u, changes, alike⟩ := st.changes sound.manned.system fun _ mem => sound.owns mem
  refine ⟨fun m => ?_, fun n e found => ?_⟩
  · rw [alike.manager]
    exact changes.manager m
  · obtain ⟨d, there, named⟩ := changes.name_eq found
    obtain ⟨d', there', core⟩ := alike.entry there
    exact ⟨d', there', (Entry.name_eq_of_core core).trans named⟩

/-- No scheduler that is stopped accepts jobs again. -/
theorem Step.live (st : Step f g) (sound : f.Sound) {k : Nat} (live : g.system.Live k) :
    f.system.Live k := by
  have before : ∀ {s t : ActorSystem}, Changes s t → t.Live k → s.Live k := by
    intro s t changes live
    induction changes with
    | refl => exact live
    | tail _ last ih => exact ih (last.live live)
  cases st with
  | moves mv => exact mv.keepsOpen.live live
  | calls c => exact before (changes_perform sound.manned.system f.elapsed c) live
  | @ends _ x at_ result ends =>
      obtain ⟨u, changes, ended⟩ := endRun_cases (sound.owns ends.mem_running) f.elapsed at_ result
      rw [ends.system, ended] at live
      exact before changes ((keepsOpen_over u x.entry x.job).live live)

/-! ### What it takes to start a run -/

theorem mem_flights_accept {x y : Flight} {a : Arrival} {s : ActorSystem}
    (mem : y ∈ (f.accept x a s).flights) : y = x ∨ y ∈ f.flights := by
  cases a with
  | runs =>
      rcases List.mem_append.mp mem with waits | runs
      · exact .inr (List.mem_append_left _ waits)
      · exact (List.mem_cons.mp runs).imp_right (List.mem_append_right _)
  | waits => exact List.mem_cons.mp mem
  | dropped => exact .inr mem
  | skipped => exact .inr mem

/-- A firing that was none before is a job of a scheduler that accepts jobs. -/
theorem Moves.mem_flights (mv : Moves f g) {x : Flight} (mem : x ∈ g.flights) : x ∈ f.flights ∨
    f.system.Live x.job.scheduler ∧
      ∃ j, f.system.job? x.job = some j ∧ j.duty = .firing x.manager x.entry := by
  cases mv with
  | begins begins =>
      obtain ⟨begins⟩ := begins
      rcases mem_flights_accept mem with rfl | old
      · obtain ⟨⟨j, found, -, fires, -⟩, -⟩ := attend_begin_inv begins
        exact .inr ⟨live_of_attend_begin begins, j, found, fires⟩
      · exact .inl old
  | continues continues =>
      left
      cases continues with
      | passes | lapses | hears => exact mem
      | @resumes _ y _ resumes =>
          obtain @⟨s, elapsed, before, after, running⟩ := resumes
          have perm : (before ++ y :: after ++ running).Perm (y :: (before ++ after ++ running)) :=
            List.perm_middle.append_right running
          refine perm.mem_iff.mpr ?_
          exact (mem_flights_accept mem).elim (· ▸ List.mem_cons_self) (List.mem_cons_of_mem _)

theorem Step.mem_flights (st : Step f g) {x : Flight} (mem : x ∈ g.flights) : x ∈ f.flights ∨
    f.system.Live x.job.scheduler ∧
      ∃ j, f.system.job? x.job = some j ∧ j.duty = .firing x.manager x.entry := by
  cases st with
  | moves mv => exact mv.mem_flights mem
  | calls c => exact .inl mem
  | @ends _ y at_ result ends =>
      left
      obtain @⟨s, elapsed, waiting, before, after⟩ := ends
      have perm : (waiting ++ (before ++ y :: after)).Perm (y :: (waiting ++ (before ++ after))) :=
        (List.perm_middle.append_left waiting).trans List.perm_middle
      exact perm.mem_iff.mpr (List.mem_cons_of_mem _ mem)

/-- **A run starts only for an entry that is registered.** -/
theorem Step.started (st : Step f g) (sound : f.Sound) {x : Flight} (mem : x ∈ g.running)
    (new : x ∉ f.running) : ∃ e, f.system.entry? x.entry = some e ∧ e.cancelled = false ∧
      f.system.registered? x.manager e.name = some x.entry := by
  have owns : f.system.Owns x.manager x.entry := by
    rcases st.mem_flights (List.mem_append_right _ mem) with old | ⟨-, j, found, fires⟩
    · exact sound.manned.owns old
    · exact sound.manned.system.owned found fires
  obtain ⟨e, found, leads⟩ := owns
  have alive : e.cancelled = false := by
    by_contra cancelled
    have dead : f.system.Dead x.entry := ⟨e, found, by simpa using cancelled⟩
    exact new ((st.retires sound dead).2 x mem rfl)
  exact ⟨e, found, alive, leads alive⟩

/-! ### What it takes to end a registration -/

/-- Nobody loses a name by a registration. -/
theorem registered?_insert_of_led {s t : ActorSystem} {k i actor : Nat} {key : String}
    (result : s.insert k key actor = .ok (i, t)) (leads : s.registered? m name = some n) :
    t.registered? m name = some n := by
  rcases insert_inv result with ⟨rfl, -⟩ | ⟨rfl, -, -⟩
  · exact leads
  · rw [registered?_enrol, leads]
    rfl

theorem registered?_register_of_led {s t : ActorSystem} {now k actor : Nat} {key : String}
    {delay : Int} (result : s.register now k key actor delay = .ok t)
    (leads : s.registered? m name = some n) : t.registered? m name = some n := by
  obtain ⟨i, u, wait, -, inserted, rfl⟩ := register_inv result
  rw [registered?, manager?_scheduleEntry, ← registered?]
  exact registered?_insert_of_led inserted leads

/-- A call leaves a name where it leads, or the entry there dies. -/
theorem call_keeps_or_kills (leads : f.system.registered? m name = some n) (c : Call) :
    (f.call c).system.registered? m name = some n ∨ Death n f (f.call c) := by
  by_cases disposes : c.Disposes m name
  · cases c with
    | register k key actor delay =>
        left
        show (f.system.after (f.system.register f.elapsed k key actor delay)).registered? m name = _
        cases result : f.system.register f.elapsed k key actor delay with
        | error e => exact leads
        | ok t => exact registered?_register_of_led result leads
    | registerSuspended k key actor =>
        left
        show (f.system.after ((f.system.insert k key actor).map Prod.snd)).registered? m name = _
        cases result : f.system.insert k key actor with
        | error e => exact leads
        | ok p => exact registered?_insert_of_led result leads
    | wake => exact disposes.elim
    | request => exact disposes.elim
    | remove k key =>
        obtain ⟨rfl, rfl⟩ := disposes
        exact .inr (.removed leads)
    | heed k key actor delay view =>
        obtain ⟨rfl, rfl⟩ := disposes
        cases coordinates : view.isCoordinator with
        | false => exact .inr (.relieved actor delay leads coordinates)
        | true =>
            left
            show (f.system.heedView f.elapsed k key actor delay view).registered? k key = _
            rw [heedView_of_registered leads coordinates]
            exact leads
    | stop k =>
        obtain rfl : k = m := disposes
        exact .inr (.stopped leads)
  · exact .inl ((Call.registered?_perform disposes f.elapsed f.system).trans leads)

/-- **A run that is done for good frees the name of its entry**, and the end of any other run frees
none. -/
theorem registered?_conclude {s : ActorSystem} {k i : Nat} (h : s.Registry) (owns : s.Owns k i)
    (now : Nat) (at_ : Int) (result : RunResult) (m : Nat) (name : String) :
    (s.conclude now k i at_ result).registered? m name =
      if result = .done ∧ s.registered? m name = some i then none else s.registered? m name := by
  by_cases final : result = .done
  · subst final
    obtain ⟨e, found, owned⟩ := owns
    have same : ∀ c key, ((s.modifyManager k fun c => c.succeeded e.name).cancelEntry i).registered?
        c key = s.registered? c key := by
      intro c key
      have keeps : ∀ {d}, s.manager? k = some d → (d.succeeded e.name).names = d.names :=
        fun _ => rfl
      rw [registered?, manager?_cancelEntry, ← registered?, registered?_modifyManager keeps]
    unfold conclude
    rw [found]
    dsimp only
    rw [same]
    by_cases leads : s.registered? m name = some i
    · -- The entry lives, so it is its own name that leads to it.
      have led := owned (h.alive leads found)
      obtain ⟨rfl, rfl⟩ := h.name_eq leads led
      rw [if_pos (by rw [led]; exact beq_self_eq_true _), registered?_forget, if_pos ⟨rfl, rfl⟩,
        if_pos ⟨rfl, leads⟩]
    · refine Eq.trans ?_ (if_neg fun both => leads both.2).symm
      split
      · next led =>
          rw [registered?_forget, if_neg, same]
          rintro ⟨rfl, rfl⟩
          exact leads (by simpa using led)
      · exact same m name
  · have spares : ActorSystem.Spares (fun _ _ => True) s (s.conclude now k i at_ result) :=
      spares_conclude (fun _ _ _ => final) now at_
    rw [if_neg fun both => final both.1]
    exact spares.registered trivial

/-- The same of a run that gives the lock up, whether it has a result or not. -/
theorem registered?_endRun {s : ActorSystem} {k i : Nat} (h : s.Registry) (owns : s.Owns k i)
    (r : JobRef) (now : Nat) (at_ : Int) (result : Option RunResult) (m : Nat) (name : String) :
    ((s.endRun now k i at_ result).finishJob r).registered? m name =
      if result = some .done ∧ s.registered? m name = some i then none
      else s.registered? m name := by
  have ended : ∀ u : ActorSystem, ((u.leave i).finishJob r).registered? m name =
      u.registered? m name := fun u => (alike_over u i r).registered m name
  cases result with
  | none =>
      rw [if_neg (by simp)]
      exact ended s
  | some answer =>
      have concluded := registered?_conclude h owns now at_ answer m name
      simp only [Option.some.injEq]
      exact (ended _).trans concluded

/-- **A name is lost only if the entry that it leads to dies.** -/
theorem Step.keeps_or_kills (st : Step f g) (sound : f.Sound) (h : f.system.Registry)
    (leads : f.system.registered? m name = some n) :
    g.system.registered? m name = some n ∨ Death n f g := by
  cases st with
  | moves mv => exact .inl ((mv.alike.registered m name).trans leads)
  | calls c => exact call_keeps_or_kills leads c
  | @ends _ x at_ result ends =>
      by_cases final : result = some .done ∧ x.entry = n
      · obtain ⟨rfl, same⟩ := final
        exact .inr (.finished ends same)
      · left
        rw [ends.system, registered?_endRun h (sound.owns ends.mem_running), if_neg]
        · exact leads
        · rintro ⟨done, led⟩
          exact final ⟨done, Option.some.inj (led.symm.trans leads)⟩

/-- An entry that dies is registered no longer. -/
theorem Death.frees (death : Death n f g) (sound : f.Sound) (h : f.system.Registry)
    (leads : f.system.registered? m name = some n) : g.system.registered? m name = none := by
  cases death with
  | removed led =>
      obtain ⟨rfl, rfl⟩ := h.name_eq leads led
      exact f.system.registered?_remove_self m name
  | @relieved k key actor delay view led elsewhere =>
      obtain ⟨rfl, rfl⟩ := h.name_eq leads led
      show (f.system.heedView f.elapsed m name actor delay view).registered? m name = none
      rw [heedView_of_elsewhere elsewhere]
      exact f.system.registered?_remove_self m name
  | stopped led =>
      obtain ⟨rfl, -⟩ := h.name_eq leads led
      exact f.system.registered?_stop m name
  | finished ends same =>
      subst same
      rw [ends.system, registered?_endRun h (sound.owns ends.mem_running)]
      exact if_pos ⟨rfl, leads⟩

/-- **A registration ends with the death of its entry, and with nothing else.** -/
theorem Step.registered_iff (st : Step f g) (sound : f.Sound) (h : f.system.Registry)
    (leads : f.system.registered? m name = some n) :
    g.system.registered? m name = some n ↔ ¬Death n f g := by
  refine ⟨fun kept death => ?_, (st.keeps_or_kills sound h leads).resolve_right⟩
  rw [death.frees sound h leads] at kept
  cases kept

end Fleet

end RecurringWork
