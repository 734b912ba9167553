import RecurringWork.Proofs.Actor.Coming
import RecurringWork.Proofs.Actor.Fleet

/-!
# RecurringWork.Proofs.Actor.Standing

**A firing that is to come stands for as long as its entry is served.** Names may be
registered and removed all the while, runs of other actors may end as they like, and other
schedulers may stop.

What could take a firing back without its own entry being cancelled is a cancellation that
hits the wrong job. It does not, because the firings of an actor system are *filed*
(`ActorSystem.Filed`): a firing is on the scheduler of its manager, and the firing that was
scheduled last for an entry is one of that entry, unless no scheduler has accepted it. Every
change and every move keeps that (`Filed.change`, `Filed.alike`), so whoever is served in the
end was served all along and has lost no firing (`Coming.changes`).
-/

namespace RecurringWork.ActorSystem

variable {s t u : ActorSystem} {m n : Nat} {name : String}

/-! ### Schedulers -/

/-- The same schedulers accept jobs. -/
structure KeepsOpen (s t : ActorSystem) : Prop where
  length : t.schedulers.length = s.schedulers.length
  stopped : ∀ k, (t.scheduler k).stopped = (s.scheduler k).stopped

theorem KeepsOpen.refl (s : ActorSystem) : s.KeepsOpen s := ⟨rfl, fun _ => rfl⟩

theorem KeepsOpen.trans (first : s.KeepsOpen t) (second : t.KeepsOpen u) : s.KeepsOpen u :=
  ⟨second.length.trans first.length, fun k => (second.stopped k).trans (first.stopped k)⟩

theorem KeepsOpen.live (h : s.KeepsOpen t) {k : Nat} (live : t.Live k) : s.Live k :=
  ⟨h.length ▸ live.known, (h.stopped k).symm.trans live.open_⟩

theorem keepsOpen_modifyScheduler (s : ActorSystem) (k : Nat) {f : Scheduler Duty → Scheduler Duty}
    (keeps : (f (s.scheduler k)).stopped = (s.scheduler k).stopped) :
    s.KeepsOpen (s.modifyScheduler k f) where
  length := List.length_modify ..
  stopped := by
    intro c
    rw [scheduler_modifyScheduler]
    split
    · next here => exact here.1 ▸ keeps
    · rfl

theorem keepsOpen_finishJob (s : ActorSystem) (r : JobRef) : s.KeepsOpen (s.finishJob r) :=
  s.keepsOpen_modifyScheduler r.scheduler rfl

theorem keepsOpen_cancelJob (s : ActorSystem) (r : JobRef) : s.KeepsOpen (s.cancelJob r) := by
  have cancelled : s.KeepsOpen (s.modifyScheduler r.scheduler fun c => c.cancel r.number) :=
    s.keepsOpen_modifyScheduler r.scheduler rfl
  exact ⟨cancelled.length, cancelled.stopped⟩

theorem keepsOpen_attend_begin {now : Nat} {r : JobRef} {duty : Duty}
    (h : s.attend now r = (.begin duty, t)) : s.KeepsOpen t := by
  obtain ⟨-, rfl⟩ := attend_begin_inv h
  exact s.keepsOpen_modifyScheduler r.scheduler rfl

theorem keepsOpen_attend_over {now : Nat} {r : JobRef} (h : s.attend now r = (.over, t)) :
    s.KeepsOpen t := by
  rcases attend_over_inv h with rfl | ⟨-, rfl⟩
  · exact .refl t
  · exact s.keepsOpen_finishJob r

theorem keepsOpen_move (s : ActorSystem) (n : Nat) (f : Entry → Move) :
    s.KeepsOpen (s.move n f).2 := by
  unfold move
  split
  · exact .refl s
  · exact ⟨rfl, fun _ => rfl⟩

theorem keepsOpen_leave (s : ActorSystem) (n : Nat) : s.KeepsOpen (s.leave n) := by
  unfold leave
  split
  · exact .refl s
  · exact ⟨rfl, fun _ => rfl⟩

theorem keepsOpen_scheduleEntry (s : ActorSystem) (now m n : Nat) (delay : Duration) :
    s.KeepsOpen (s.scheduleEntry now m n delay) where
  length := by
    rcases s.scheduleEntry_cases now m n delay with same | ⟨e, k, -, -, -, same⟩
    · rw [same]
    · rw [same]
      exact List.length_modify ..
  stopped := s.stopped_scheduleEntry now m n delay

theorem keepsOpen_cancelEntry (s : ActorSystem) (n : Nat) : s.KeepsOpen (s.cancelEntry n) := by
  rcases s.cancelEntry_cases n with ⟨same, -⟩ | ⟨e, -, same | ⟨r, same⟩⟩
  · rw [same]
    exact .refl s
  · rw [same]
    exact ⟨rfl, fun _ => rfl⟩
  · rw [same]
    have marked : s.KeepsOpen (s.modifyEntry n Entry.cancel) := ⟨rfl, fun _ => rfl⟩
    exact marked.trans (keepsOpen_cancelJob _ r)

/-- The end of a run stops no scheduler. -/
theorem keepsOpen_conclude (s : ActorSystem) (now m n : Nat) (at_ : Int) (result : RunResult) :
    s.KeepsOpen (s.conclude now m n at_ result) := by
  have counts : ∀ (u : ActorSystem) (f : Manager → Manager), u.KeepsOpen (u.modifyManager m f) :=
    fun _ _ => ⟨rfl, fun _ => rfl⟩
  unfold conclude
  split
  · exact .refl s
  · next e found =>
      cases result with
      | reschedule delay => exact (counts s _).trans (keepsOpen_scheduleEntry _ now m n delay)
      | suspended => exact counts s _
      | done =>
          have cancels := (counts s fun k => k.succeeded e.name).trans (keepsOpen_cancelEntry _ n)
          dsimp only
          split
          · exact cancels.trans (counts _ _)
          · exact cancels
      | failed =>
          dsimp only
          split
          · exact .refl s
          · split
            · exact (counts s _).trans (keepsOpen_scheduleEntry _ now m n _)
            · exact counts s _

/-- No change opens a scheduler that was stopped. -/
theorem Change.live (c : Change s t) {k : Nat} (live : t.Live k) : s.Live k := by
  cases c with
  | schedules now delay owns => exact (s.keepsOpen_scheduleEntry now _ _ delay).live live
  | cancels n => exact (s.keepsOpen_cancelEntry n).live live
  | forgets => exact ⟨live.known, live.open_⟩
  | enrols => exact ⟨live.known, live.open_⟩
  | tallies => exact ⟨live.known, live.open_⟩
  | stops c =>
      have known : k < s.schedulers.length := by
        rw [← List.length_modify (f := Scheduler.stop) (i := c)]
        exact live.known
      refine ⟨known, ?_⟩
      have open_ : ((s.modifyScheduler c Scheduler.stop).scheduler k).stopped = false := live.open_
      rw [scheduler_modifyScheduler] at open_
      split at open_
      · cases open_
      · exact open_

theorem Change.length_schedulers (c : Change s t) : t.schedulers.length = s.schedulers.length := by
  cases c with
  | schedules now delay owns => exact (s.keepsOpen_scheduleEntry now _ _ delay).length
  | cancels n => exact (s.keepsOpen_cancelEntry n).length
  | forgets => rfl
  | enrols => rfl
  | tallies => rfl
  | stops k => exact List.length_modify ..

/-! ### Managers -/

/-- Managers keep their schedulers. -/
theorem Change.manager (c : Change s t) (m : Nat) :
    (t.manager? m).map Manager.scheduler = (s.manager? m).map Manager.scheduler := by
  have modified : ∀ {k : Nat} {f : Manager → Manager},
      (∀ {d}, s.manager? k = some d → (f d).scheduler = d.scheduler) →
      ((s.modifyManager k f).manager? m).map Manager.scheduler =
        (s.manager? m).map Manager.scheduler := by
    intro k f keeps
    rw [manager?_modifyManager]
    split
    · next here =>
        cases manages : s.manager? m with
        | none => rfl
        | some d => exact congrArg some (keeps (here ▸ manages))
    · rfl
  cases c with
  | schedules now delay owns => rw [manager?_scheduleEntry]
  | cancels n => rw [manager?_cancelEntry]
  | forgets => exact modified fun _ => rfl
  | enrols => exact modified fun _ => rfl
  | tallies keeps => exact modified fun manages => (keeps manages).2
  | stops => rfl

theorem Changes.manager (c : Changes s t) (m : Nat) :
    (t.manager? m).map Manager.scheduler = (s.manager? m).map Manager.scheduler := by
  induction c with
  | refl => rfl
  | tail _ last ih => exact (last.manager m).trans ih

/-! ### Being filed -/

/-- Firings are where they are looked for. -/
structure Filed (s : ActorSystem) : Prop where
  ordinal : ∀ {r : JobRef} {j : Job Duty}, s.job? r = some j → r.number ≠ 0
  /-- A firing is on the scheduler of its manager. -/
  placed : ∀ {r : JobRef} {j : Job Duty} {m n : Nat}, s.job? r = some j → j.duty = .firing m n →
    (s.manager? m).map Manager.scheduler = some r.scheduler
  /-- The firing that was scheduled last for an entry is one of the entry, unless it was
  refused or there is no such scheduler. -/
  latest : ∀ {n : Nat} {e : Entry} {r : JobRef}, s.entry? n = some e → e.latest = some r →
    r.number = 0 ∨ s.schedulers.length ≤ r.scheduler ∨
      ∃ m j, s.job? r = some j ∧ j.duty = .firing m n
  /-- An entry belongs to one manager. -/
  sole : ∀ {m k n : Nat} {a b : String}, s.registered? m a = some n → s.registered? k b = some n →
    m = k

theorem schedule_eq (s : ActorSystem) (now k : Nat) (duty : Duty) (delay : Duration) :
    (s.schedule now k duty delay).1 =
      ⟨k, if (s.scheduler k).stopped then 0 else (s.scheduler k).jobs.length + 1⟩ := by
  show (⟨k, ((s.scheduler k).schedule now duty delay).1⟩ : JobRef) = _
  unfold Scheduler.schedule
  split <;> rfl

/-- A job that was not there is a firing on the scheduler of its manager. -/
theorem Change.new_job (c : Change s t) {r : JobRef} {j : Job Duty}
    (found : t.job? r = some j) (new : s.job? r = none) :
    r.number ≠ 0 ∧ ∃ m n k, j.duty = .firing m n ∧ s.manager? m = some k ∧
      k.scheduler = r.scheduler := by
  cases c with
  | @schedules m n now delay owns =>
      rcases s.scheduleEntry_cases now m n delay with same | ⟨e, k, -, -, manages, same⟩
      · rw [same, new] at found
        cases found
      · rw [same, job?_modifyEntry] at found
        by_cases live : s.Live k.scheduler
        · rw [job?_schedule_of_live live] at found
          split at found
          · next here =>
              cases found
              subst here
              exact ⟨Nat.succ_ne_zero _, m, n, k, rfl, manages, rfl⟩
          · rw [new] at found
            cases found
        · rw [job?_schedule_of_not_live live, new] at found
          cases found
  | cancels k =>
      rcases s.job?_cancelEntry k r with same | same <;> rw [same, new] at found <;> cases found
  | forgets => exact absurd (new.symm.trans found) (by simp)
  | enrols => exact absurd (new.symm.trans found) (by simp)
  | tallies => exact absurd (new.symm.trans found) (by simp)
  | stops k =>
      rw [job?_stopScheduler, new] at found
      cases found

/-- What was scheduled last for an entry was so before, or is a firing of the entry that has just
been scheduled. -/
theorem Change.latest (c : Change s t) {e : Entry} {r : JobRef} (found : t.entry? n = some e)
    (last : e.latest = some r) : (∃ d, s.entry? n = some d ∧ d.latest = some r) ∨
      r.number = 0 ∨ t.schedulers.length ≤ r.scheduler ∨
        ∃ m j, t.job? r = some j ∧ j.duty = .firing m n := by
  cases c with
  | @schedules m k now delay owns =>
      rcases s.scheduleEntry_cases now m k delay with same | ⟨d, c, exists_, -, -, same⟩
      · rw [same] at found
        exact .inl ⟨e, found, last⟩
      · rw [same, entry?_modifyEntry] at found
        split at found
        · next here =>
            subst here
            have old : ActorSystem.entry? (s.schedule now c.scheduler (.firing m k) delay).2 k =
                some d := exists_
            rw [old] at found
            cases found
            cases last
            right
            rw [schedule_eq]
            dsimp only
            by_cases closed : (s.scheduler c.scheduler).stopped
            · left
              rw [if_pos closed]
            · right
              have open_ : (s.scheduler c.scheduler).stopped = false := by simpa using closed
              rw [if_neg closed]
              by_cases known : c.scheduler < s.schedulers.length
              · right
                have job := job?_schedule_of_live ⟨known, open_⟩ now (.firing m k) delay
                  ⟨c.scheduler, (s.scheduler c.scheduler).jobs.length + 1⟩
                rw [if_pos rfl] at job
                exact ⟨m, _, by rw [same, job?_modifyEntry, job], rfl⟩
              · left
                rw [(s.keepsOpen_scheduleEntry now m k delay).length]
                exact Nat.le_of_not_lt known
        · exact .inl ⟨e, found, last⟩
  | cancels k =>
      rw [entry?_cancelEntry] at found
      split at found
      · cases exists_ : s.entry? n with
        | none =>
            rw [exists_] at found
            cases found
        | some d =>
            rw [exists_] at found
            cases found
            cases last
      · exact .inl ⟨e, found, last⟩
  | forgets => exact .inl ⟨e, found, last⟩
  | enrols actor =>
      rw [entry?_enrol] at found
      split at found
      · cases found
        cases last
      · exact .inl ⟨e, found, last⟩
  | tallies => exact .inl ⟨e, found, last⟩
  | stops => exact .inl ⟨e, found, last⟩

/-- An entry belongs to the manager that it belonged to. -/
theorem Filed.sole_change (h : s.Filed) (named : s.Named) (c : Change s t) {k : Nat} {a b : String}
    (left : t.registered? m a = some n) (right : t.registered? k b = some n) : m = k := by
  cases c with
  | schedules now delay owns =>
      rw [registered?, manager?_scheduleEntry] at left right
      exact h.sole left right
  | cancels i =>
      rw [registered?, manager?_cancelEntry] at left right
      exact h.sole left right
  | forgets =>
      rw [registered?_forget] at left right
      split at left
      · cases left
      · split at right
        · cases right
        · exact h.sole left right
  | enrols actor =>
      -- No name led to the new entry before.
      have fresh : ∀ {i : Nat} {c : String}, s.registered? i c ≠ some s.entries.length := by
        intro i c leads
        obtain ⟨e, found, -⟩ := named leads
        rw [ActorSystem.entry?, List.getElem?_eq_none (Nat.le_refl _)] at found
        cases found
      rw [registered?_enrol, Option.or_eq_some_iff] at left right
      rcases left with left | ⟨-, left⟩
      · rcases right with right | ⟨-, right⟩
        · exact h.sole left right
        · split at right
          · cases right
            exact absurd left fresh
          · cases right
      · split at left
        · next here =>
            cases left
            rcases right with right | ⟨-, right⟩
            · exact absurd right fresh
            · split at right
              · next there => exact here.1.symm.trans there.1
              · cases right
        · cases left
  | tallies keeps =>
      rw [registered?_modifyManager fun manages => (keeps manages).1] at left right
      exact h.sole left right
  | stops => exact h.sole left right

/-- **Every change leaves firings where they are looked for.** -/
theorem Filed.change (h : s.Filed) (sound : s.Sound) (c : Change s t) : t.Filed where
  ordinal := by
    intro r j found
    cases before : s.job? r with
    | none => exact (c.new_job found before).1
    | some i => exact h.ordinal before
  placed := by
    intro r j m n found fires
    rw [c.manager]
    cases before : s.job? r with
    | none =>
        obtain ⟨-, m', n', k, fires', manages, here⟩ := c.new_job found before
        rw [fires] at fires'
        cases fires'
        rw [manages]
        exact congrArg some here
    | some i =>
        obtain ⟨j', here, same, -⟩ := c.job sound.numbered before
        rw [found] at here
        cases here
        exact h.placed before (same ▸ fires)
  latest := by
    intro n e r found last
    rcases c.latest found last with ⟨d, before, last⟩ | filed
    · rcases h.latest before last with refused | unknown | ⟨m, j, here, fires⟩
      · exact .inl refused
      · exact .inr (.inl (c.length_schedulers ▸ unknown))
      · obtain ⟨j', there, same, -⟩ := c.job sound.numbered here
        exact .inr (.inr ⟨m, j', there, same.trans fires⟩)
    · exact filed
  sole := h.sole_change sound.named c

theorem Filed.changes (h : s.Filed) (sound : s.Sound) (c : Changes s t) : t.Filed := by
  induction c with
  | refl => exact h
  | tail before last ih => exact ih.change (sound.changes before) last

theorem Alike.job (a : s.Alike t) {r : JobRef} {j : Job Duty} (found : t.job? r = some j) :
    ∃ i, s.job? r = some i ∧ i.duty = j.duty := by
  have same := a.duty r
  rw [found] at same
  exact Option.map_eq_some_iff.mp same.symm

/-- An entry had everything but its lock before. -/
theorem Alike.entry_before (a : s.Alike t) {e : Entry} (found : t.entry? n = some e) :
    ∃ d, s.entry? n = some d ∧ d.core = e.core := by
  have same := a.core n
  rw [found] at same
  exact Option.map_eq_some_iff.mp same.symm

/-- What concerns locks and phases only leaves firings where they are looked for. -/
theorem Filed.alike (h : s.Filed) (a : s.Alike t) (keeps : s.KeepsOpen t) : t.Filed where
  ordinal := by
    intro r j found
    obtain ⟨i, before, -⟩ := a.job found
    exact h.ordinal before
  placed := by
    intro r j m n found fires
    obtain ⟨i, before, same⟩ := a.job found
    rw [a.manager]
    exact h.placed before (same.trans fires)
  latest := by
    intro n e r found last
    obtain ⟨d, before, core⟩ := a.entry_before found
    have last' : d.latest = some r := by
      rw [← Entry.latest_core, core, Entry.latest_core]
      exact last
    rcases h.latest before last' with refused | unknown | ⟨m, j, here, fires⟩
    · exact .inl refused
    · exact .inr (.inl (keeps.length ▸ unknown))
    · have same := a.duty r
      rw [here] at same
      obtain ⟨i, there, same⟩ := Option.map_eq_some_iff.mp same
      exact .inr (.inr ⟨m, i, there, same.trans fires⟩)
  sole := by
    intro m k n a' b' left right
    rw [a.registered] at left right
    exact h.sole left right

/-! ### Being served before -/

/-- No entry goes away. -/
theorem Change.known (c : Change s t) (known : (s.entry? n).isSome) : (t.entry? n).isSome := by
  obtain ⟨e, found⟩ := Option.isSome_iff_exists.mp known
  obtain ⟨e', found', -⟩ := c.entry found
  rw [found']
  rfl

theorem Changes.known (c : Changes s t) (known : (s.entry? n).isSome) : (t.entry? n).isSome := by
  induction c with
  | refl => exact known
  | tail _ last ih => exact last.known ih

theorem Alike.known (a : s.Alike t) (known : (s.entry? n).isSome) : (t.entry? n).isSome := by
  obtain ⟨e, found⟩ := Option.isSome_iff_exists.mp known
  obtain ⟨e', found', -⟩ := a.entry found
  rw [found']
  rfl

/-- An entry that is served after a change was served before it, if it was there. -/
theorem Serves.before_change (h : t.Serves m name n) (c : Change s t)
    (known : (s.entry? n).isSome) : s.Serves m name n := by
  obtain ⟨e, found⟩ := Option.isSome_iff_exists.mp known
  constructor
  · rcases c.led h.leads with led | new
    · exact led
    · rw [found] at new
      cases new
  · obtain ⟨d, there, alive⟩ := h.alive
    obtain ⟨d', there', touched⟩ := c.entry found
    rw [there] at there'
    cases there'
    refine ⟨e, found, ?_⟩
    cases dead : e.cancelled with
    | false => rfl
    | true =>
        rw [touched.dead dead] at alive
        cases alive
  · obtain ⟨k, manages, live⟩ := h.live
    have same := c.manager m
    rw [manages] at same
    obtain ⟨k', manages', here⟩ := Option.map_eq_some_iff.mp same.symm
    exact ⟨k', manages', here ▸ c.live live⟩

theorem Serves.before_changes (h : t.Serves m name n) (c : Changes s t)
    (known : (s.entry? n).isSome) : s.Serves m name n := by
  induction c using Relation.ReflTransGen.head_induction_on with
  | refl => exact h
  | head first _ ih => exact (ih (first.known known)).before_change first known

theorem Serves.before_alike (h : t.Serves m name n) (a : s.Alike t) (keeps : s.KeepsOpen t) :
    s.Serves m name n where
  leads := (a.registered m name).symm.trans h.leads
  alive := by
    obtain ⟨e, found, alive⟩ := h.alive
    obtain ⟨d, before, core⟩ := a.entry_before found
    exact ⟨d, before, (Entry.cancelled_eq_of_core core).trans alive⟩
  live := by
    obtain ⟨k, manages, live⟩ := h.live
    exact ⟨k, (a.manager m).symm.trans manages, keeps.live live⟩

/-- The manager of a firing is that under whose name its entry is served. -/
theorem Serves.manager_eq (h : s.Serves m name n) (filed : s.Filed) {k : Nat}
    (owns : s.Owns k n) : k = m := by
  obtain ⟨e, found, alive⟩ := h.alive
  obtain ⟨d, found', leads⟩ := owns
  rw [found] at found'
  cases found'
  exact filed.sole (leads alive) h.leads

/-- A firing is on the scheduler of its manager, which accepts jobs while an entry is served. -/
theorem Filed.live_of_serves (h : s.Filed) (serves : s.Serves m name n) {r : JobRef} {j : Job Duty}
    {k : Nat} (found : s.job? r = some j) (fires : j.duty = .firing m k) : s.Live r.scheduler := by
  obtain ⟨d, manages, live⟩ := serves.live
  have placed := h.placed found fires
  rw [manages] at placed
  exact Option.some.inj placed ▸ live

/-! ### Firings to come -/

/-- **A firing of an entry that lives afterwards is the same job after a change.** Nobody has
cancelled it. -/
theorem Change.job?_of_alive (c : Change s t) (sound : s.Sound) (filed : s.Filed) {r : JobRef}
    {j : Job Duty} {k : Nat} {e : Entry} (found : s.job? r = some j) (fires : j.duty = .firing k n)
    (here : t.entry? n = some e) (alive : e.cancelled = false) : t.job? r = some j := by
  cases c with
  | @schedules k i now delay owns =>
      rcases job?_scheduleEntry sound.numbered now k i delay r with same | ⟨none, -⟩
      · exact same.trans found
      · rw [found] at none
        cases none
  | cancels i =>
      rw [entry?_cancelEntry] at here
      split at here
      · obtain ⟨d, -, rfl⟩ := Option.map_eq_some_iff.mp here
        cases alive
      · next other =>
          unfold cancelEntry
          split
          · exact found
          · next d found' =>
              dsimp only
              split
              · next q last' =>
                  rw [job?_cancelJob, job?_modifyEntry]
                  split
                  · next same =>
                      -- The firing of another entry has been cancelled.
                      subst same
                      rcases filed.latest found' last' with
                        refused | unknown | ⟨k, j', there, fires'⟩
                      · exact absurd refused (filed.ordinal found)
                      · rw [job?, scheduler_of_le unknown] at found
                        cases found
                      · rw [found] at there
                        cases there
                        rw [fires] at fires'
                        cases fires'
                        exact absurd rfl other
                  · exact found
              · exact found
  | forgets => exact found
  | enrols => exact found
  | tallies => exact found
  | stops k => exact (s.job?_stopScheduler k r).trans found

/-- **A firing that is to come stands, whatever changes**, if its entry is served afterwards. -/
theorem Coming.change {last : Int} (h : s.Coming m n last) (sound : s.Sound) (filed : s.Filed)
    (c : Change s t) (serves : t.Serves m name n) : t.Coming m n last := by
  obtain ⟨r, j, found, duty, waits, alive, -, due⟩ := h
  obtain ⟨e, served, living⟩ := serves.alive
  have kept := c.job?_of_alive sound filed found duty served living
  have live := (filed.change sound c).live_of_serves serves kept duty
  exact ⟨r, j, kept, duty, waits, alive, live.open_, due⟩

theorem Coming.changes {last : Int} (h : s.Coming m n last) (sound : s.Sound) (filed : s.Filed)
    (c : Changes s t) (serves : t.Serves m name n) : t.Coming m n last := by
  have known : (s.entry? n).isSome := by
    obtain ⟨r, j, found, duty, -⟩ := h
    obtain ⟨e, exists_, -⟩ := sound.owned found duty
    rw [exists_]
    rfl
  induction c using Relation.ReflTransGen.head_induction_on with
  | refl => exact h
  | head first rest ih =>
      have between := serves.before_changes rest (first.known known)
      exact ih (h.change sound filed first between) (sound.change first) (filed.change sound first)
        (first.known known)

/-- A job that begins leaves the firings of an entry to come, unless it is one of them. -/
theorem Coming.attend_begin {last : Int} {now : Nat} {r : JobRef} {duty : Duty}
    (h : s.Coming m n last) (begins : s.attend now r = (.begin duty, t)) :
    t.Coming m n last ∨ duty = .firing m n := by
  obtain ⟨q, j, found, fires, waits, alive, open_, due⟩ := h
  by_cases here : q = r
  · subst here
    obtain ⟨⟨i, found', -, same, -⟩, -⟩ := attend_begin_inv begins
    rw [found] at found'
    cases found'
    exact .inr (same.symm.trans fires)
  · refine .inl ⟨q, j, ?_, fires, waits, alive, ?_, due⟩
    · rw [job?_attend_begin begins, if_neg here]
      exact found
    · exact ((keepsOpen_attend_begin begins).stopped _).trans open_

/-- A job that is over without having begun is none that is to come. -/
theorem Coming.attend_over {last : Int} {now : Nat} {r : JobRef} (h : s.Coming m n last)
    (lapses : s.attend now r = (.over, t)) : t.Coming m n last := by
  obtain ⟨q, j, found, fires, waits, alive, open_, due⟩ := h
  have stopped := ((keepsOpen_attend_over lapses).stopped q.scheduler).trans open_
  refine ⟨q, j, ?_, fires, waits, alive, stopped, due⟩
  rcases attend_over_inv lapses with rfl | ⟨⟨i, here, -, dead⟩, rfl⟩
  · exact found
  · have other : q ≠ r := by
      rintro rfl
      rw [found] at here
      cases here
      rw [alive, open_] at dead
      exact absurd dead (by simp)
    rw [job?_finishJob, if_neg other]
    exact found

@[simp] theorem job?_move (s : ActorSystem) (n : Nat) (f : Entry → Move) (r : JobRef) :
    (s.move n f).2.job? r = s.job? r := by
  unfold ActorSystem.move
  split <;> rfl

theorem Coming.move {last : Int} (h : s.Coming m n last) (k : Nat) (f : Entry → Move) :
    (s.move k f).2.Coming m n last := by
  unfold ActorSystem.move
  split
  · exact h
  · exact h

theorem Coming.leave {last : Int} (h : s.Coming m n last) (k : Nat) :
    (s.leave k).Coming m n last := by
  unfold ActorSystem.leave
  split
  · exact h
  · exact h

theorem Coming.finishJob {last : Int} {r : JobRef} {j : Job Duty} (h : s.Coming m n last)
    (found : s.job? r = some j) (started : j.phase = .started) :
    (s.finishJob r).Coming m n last := by
  have upholds : s.Upholds (s.finishJob r) m "" n := upholds_finishJob found started
  exact upholds.coming h

/-! ### The end of a run -/

@[simp] theorem job?_leave (s : ActorSystem) (n : Nat) (r : JobRef) :
    (s.leave n).job? r = s.job? r := by
  unfold ActorSystem.leave
  split <;> rfl

/-- A run makes changes while it holds the lock, and gives the lock up. -/
theorem endRun_cases {k i : Nat} (owns : s.Owns k i) (now : Nat) (at_ : Int)
    (result : Option RunResult) : ∃ u, Changes s u ∧ s.endRun now k i at_ result = u.leave i := by
  cases result with
  | none => exact ⟨s, .refl, rfl⟩
  | some r => exact ⟨_, changes_conclude owns now at_ r, rfl⟩

theorem keepsOpen_over (s : ActorSystem) (i : Nat) (r : JobRef) :
    s.KeepsOpen ((s.leave i).finishJob r) :=
  (s.keepsOpen_leave i).trans (keepsOpen_finishJob _ r)

theorem Filed.endRun (h : s.Filed) (sound : s.Sound) {k i : Nat} (owns : s.Owns k i) (r : JobRef)
    (now : Nat) (at_ : Int) (result : Option RunResult) :
    ((s.endRun now k i at_ result).finishJob r).Filed := by
  obtain ⟨u, changes, ended⟩ := endRun_cases owns now at_ result
  rw [ended]
  exact (h.changes sound changes).alike (u.alike_over i r) (u.keepsOpen_over i r)

/-- **Who is served after a run has ended was served before, and has all its firings still to
come.** -/
theorem Serves.before_endRun {k i now : Nat} {at_ : Int} {result : Option RunResult} {r : JobRef}
    {j : Job Duty} (h : ((s.endRun now k i at_ result).finishJob r).Serves m name n)
    (sound : s.Sound) (filed : s.Filed) (owns : s.Owns k i) (found : s.job? r = some j)
    (started : j.phase = .started) (known : (s.entry? n).isSome) :
    s.Serves m name n ∧ ∀ {last : Int}, s.Coming m n last →
      ((s.endRun now k i at_ result).finishJob r).Coming m n last := by
  obtain ⟨u, changes, ended⟩ := endRun_cases owns now at_ result
  rw [ended] at h ⊢
  have between := h.before_alike (u.alike_over i r) (u.keepsOpen_over i r)
  refine ⟨between.before_changes changes known, fun comes => ?_⟩
  obtain ⟨j', found', -, phase⟩ := changes.job sound found
  have left : (u.leave i).Coming m n _ := (comes.changes sound filed changes between).leave i
  exact left.finishJob ((u.job?_leave i r).trans found') (phase.trans started)

end RecurringWork.ActorSystem

namespace RecurringWork.Fleet

variable {f g : Fleet}

/-! ### Firings by themselves -/

theorem keepsOpen_accept (f : Fleet) (x : Flight) (a : Arrival) (s : ActorSystem) :
    s.KeepsOpen (f.accept x a s).system := by
  cases a with
  | runs => exact .refl s
  | waits => exact .refl s
  | dropped => exact s.keepsOpen_finishJob x.job
  | skipped => exact s.keepsOpen_finishJob x.job

theorem Continues.keepsOpen (h : Continues f g) : f.system.KeepsOpen g.system := by
  cases h with
  | passes d => exact .refl _
  | lapses lapses => exact ActorSystem.keepsOpen_attend_over lapses
  | @resumes _ x _ resumes =>
      cases resumes with
      | @intro s => exact (s.keepsOpen_move x.entry Entry.proceed).trans (keepsOpen_accept _ x _ _)
  | hears => exact ⟨rfl, fun _ => rfl⟩

theorem Moves.keepsOpen (h : Moves f g) : f.system.KeepsOpen g.system := by
  cases h with
  | @begins x _ begins =>
      cases begins with
      | @intro _ s begins =>
          refine (ActorSystem.keepsOpen_attend_begin begins).trans ?_
          exact (s.keepsOpen_move x.entry fun e => e.fire x.job).trans (keepsOpen_accept f x _ _)
  | continues continues => exact continues.keepsOpen

/-- What has become of a firing, those that are to come still are. -/
theorem coming_accept {x : Flight} {s : ActorSystem} {j : Job Duty} {m n : Nat} {last : Int}
    (h : s.Coming m n last) (found : s.job? x.job = some j) (started : j.phase = .started)
    (a : Arrival) : (f.accept x a s).system.Coming m n last := by
  cases a with
  | runs => exact h
  | waits => exact h
  | dropped => exact h.finishJob found started
  | skipped => exact h.finishJob found started

theorem mem_accept_running {x y : Flight} (runs : x ∈ f.running) (a : Arrival) (s : ActorSystem) :
    x ∈ (f.accept y a s).running := by
  cases a with
  | runs => exact List.mem_cons_of_mem _ runs
  | waits => exact runs
  | dropped => exact runs
  | skipped => exact runs

theorem mem_accept_waiting {x y : Flight} (waits : x ∈ f.waiting) (a : Arrival) (s : ActorSystem) :
    x ∈ (f.accept y a s).waiting := by
  cases a with
  | runs => exact waits
  | waits => exact List.mem_cons_of_mem _ waits
  | dropped => exact waits
  | skipped => exact waits

/-- A run does not end by itself. -/
theorem Moves.mem_running (h : Moves f g) {x : Flight} (runs : x ∈ f.running) : x ∈ g.running := by
  cases h with
  | begins begins =>
      cases begins
      exact mem_accept_running runs _ _
  | continues continues =>
      cases continues with
      | passes | lapses | hears => exact runs
      | resumes resumes =>
          obtain @⟨s, elapsed, before, after, running⟩ := resumes
          exact mem_accept_running (f := ⟨s, elapsed, before ++ after, running⟩) runs _ _

theorem Moves.elapsed_le (h : Moves f g) : f.elapsed ≤ g.elapsed := by
  cases h with
  | begins begins =>
      cases begins
      exact Nat.le_of_eq (elapsed_accept ..).symm
  | continues continues =>
      cases continues with
      | passes d => exact Nat.le_add_right _ _
      | lapses | hears => exact Nat.le_refl _
      | @resumes _ y _ resumes =>
          obtain @⟨s, elapsed, before, after, running⟩ := resumes
          exact Nat.le_of_eq (elapsed_accept ⟨s, elapsed, before ++ after, running⟩ y _ _).symm

theorem Blank.filed {s : ActorSystem} (h : Blank s) : s.Filed := by
  have sound := h.sound.manned.system
  have nobody : ∀ {n : Nat} {e : Entry}, s.entry? n ≠ some e := by
    intro n e found
    rw [ActorSystem.entry?, h.entries] at found
    cases found
  have idle : ∀ {r : JobRef} {j : Job Duty}, s.job? r ≠ some j := by
    intro r j found
    rw [ActorSystem.job?, Scheduler.job?, h.no_jobs] at found
    cases found
  refine ⟨fun found => absurd found idle, fun found => absurd found idle,
    fun found => absurd found nobody, fun leads => ?_⟩
  obtain ⟨e, found, -⟩ := sound.named leads
  exact absurd found nobody

end RecurringWork.Fleet
