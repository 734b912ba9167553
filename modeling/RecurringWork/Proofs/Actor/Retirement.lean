import RecurringWork.Proofs.Actor.Registration

/-!
# RecurringWork.Proofs.Actor.Retirement

**A cancelled entry is dead for good.** An entry dies when its name is removed, when its
manager stops, or when a run of it is done for good (`Fleet.Death`). Firings of it may
still be there: timers that nobody cancelled, one that waits for the lock, and the run
in flight. Whatever they come to, and whoever asks for the name from then on,

* the entry stays dead, none of its firings starts a run, and no further one is
  scheduled (`Step.retires`);
* the end of its last run leaves every other entry with its name and its firings, also one
  that has the same name by now (`sparesOthers_endRun`).

The first is read off what a step can do: a firing is scheduled for live entries only, and
a firing that comes to hold the lock of a dead one gives it up. For the second, a dead
entry has nothing left that could be cancelled (`ActorSystem.Settled`).
-/

namespace RecurringWork

namespace Entry

theorem arrival_start_of_dead {e : Entry} (dead : e.cancelled = true) :
    e.start.arrival = .skipped := by
  rw [start, if_pos dead]

/-- A firing that arrives at a dead entry does not run. -/
theorem arrival_fire_of_dead {e : Entry} (dead : e.cancelled = true) (firing : JobRef) :
    (e.fire firing).arrival ≠ .runs := by
  have core := e.core_arrive firing
  unfold fire
  cases arrived : e.arrive firing with
  | mk arrival d =>
      rw [arrived] at core
      cases arrival with
      | runs =>
          dsimp only
          rw [arrival_start_of_dead ((cancelled_eq_of_core core).trans dead)]
          simp
      | waits => simp
      | dropped => simp
      | skipped => simp

/-- Nor does one that has been given the lock of a dead entry. -/
theorem arrival_proceed_of_dead {e : Entry} (dead : e.cancelled = true) :
    e.proceed.arrival ≠ .runs := by
  rw [proceed, arrival_start_of_dead (e := e.resume) dead]
  simp

end Entry

namespace ActorSystem

/-- The entry is cancelled. -/
def Dead (s : ActorSystem) (n : Nat) : Prop := ∃ e, s.entry? n = some e ∧ e.cancelled = true

/-- A dead entry is left as it is: it does not come back, and no firing is scheduled for
it. -/
structure Retires (n : Nat) (s t : ActorSystem) : Prop where
  dead : t.Dead n
  known : ∀ {r : JobRef} {j : Job Duty} {m : Nat}, t.job? r = some j → j.duty = .firing m n →
    (s.job? r).map Job.duty = some (.firing m n)

variable {s t u : ActorSystem} {n : Nat}

theorem Retires.refl (dead : s.Dead n) : s.Retires n s :=
  ⟨dead, fun found does => by rw [found]; exact congrArg some does⟩

theorem Retires.trans (first : Retires n s t) (second : Retires n t u) : Retires n s u where
  dead := second.dead
  known := by
    intro r j m found does
    have there := second.known found does
    cases before : t.job? r with
    | none =>
        rw [before] at there
        cases there
    | some i =>
        rw [before] at there
        exact first.known before (Option.some.inj there)

theorem Change.retires (c : Change s t) (numbered : s.Numbered) (dead : s.Dead n) :
    Retires n s t where
  dead := by
    obtain ⟨e, found, dead⟩ := dead
    obtain ⟨e', found', touched⟩ := c.entry found
    exact ⟨e', found', touched.dead dead⟩
  known := by
    intro r j m found does
    cases before : s.job? r with
    | some i =>
        obtain ⟨j', here, same, -⟩ := c.job numbered before
        rw [found] at here
        cases here
        exact congrArg some (same.symm.trans does)
    | none =>
        obtain ⟨e, here, alive⟩ := c.alive_of_new numbered found before does
        obtain ⟨e', here', dead⟩ := dead
        rw [here] at here'
        cases here'
        rw [alive] at dead
        cases dead

theorem Changes.retires (c : Changes s t) (sound : s.Sound) (dead : s.Dead n) :
    Retires n s t := by
  induction c with
  | refl => exact .refl dead
  | tail before last ih => exact ih.trans (last.retires (sound.changes before).numbered ih.dead)

theorem Alike.retires (a : s.Alike t) (dead : s.Dead n) : Retires n s t where
  dead := by
    obtain ⟨e, found, dead⟩ := dead
    obtain ⟨e', found', core⟩ := a.entry found
    exact ⟨e', found', (Entry.cancelled_eq_of_core core).trans dead⟩
  known := by
    intro r j m found does
    rw [← a.duty r, found]
    exact congrArg some does

/-! ### Nothing left to cancel -/

/-- A dead entry keeps no firing that cancelling it once more would cancel. -/
def Settled (s : ActorSystem) : Prop :=
  ∀ n e, s.entry? n = some e → e.cancelled = true → e.latest = none

theorem Settled.change (h : s.Settled) (c : Change s t) : t.Settled := by
  intro k e found dead
  cases c with
  | @schedules m n now delay owns =>
      rcases s.scheduleEntry_cases now m n delay with same | ⟨d, _, here, alive, -, same⟩
      · rw [same] at found
        exact h _ _ found dead
      · rw [same, entry?_modifyEntry] at found
        by_cases at_ : n = k
        · -- A firing is scheduled for a live entry, so this one is not dead.
          subst at_
          rw [if_pos rfl] at found
          obtain ⟨d', here', rfl⟩ := Option.map_eq_some_iff.mp found
          rw [show s.entry? n = some d' from here'] at here
          cases here
          rw [show d.cancelled = true from dead] at alive
          cases alive
        · rw [if_neg at_] at found
          exact h _ _ found dead
  | cancels n =>
      rw [entry?_cancelEntry] at found
      by_cases at_ : n = k
      · rw [if_pos at_] at found
        obtain ⟨d, -, rfl⟩ := Option.map_eq_some_iff.mp found
        rfl
      · rw [if_neg at_] at found
        exact h _ _ found dead
  | enrols actor =>
      rw [entry?_enrol] at found
      split at found
      · cases found
        rfl
      · exact h _ _ found dead
  | forgets => exact h _ _ found dead
  | tallies => exact h _ _ found dead
  | stops => exact h _ _ found dead

theorem Settled.changes (h : s.Settled) (c : Changes s t) : t.Settled := by
  induction c with
  | refl => exact h
  | tail _ last ih => exact Settled.change ih last

theorem Settled.alike (h : s.Settled) (a : s.Alike t) : t.Settled := by
  intro n e found dead
  have same := a.core n
  rw [found] at same
  obtain ⟨d, here, core⟩ := Option.map_eq_some_iff.mp same.symm
  rw [← Entry.latest_core e, ← core, Entry.latest_core]
  exact h _ _ here ((Entry.cancelled_eq_of_core core).trans dead)

/-- To cancel a dead entry once more changes that entry only. -/
theorem cancelEntry_of_dead {e : Entry} (found : s.entry? n = some e) (settled : e.latest = none) :
    s.cancelEntry n = s.modifyEntry n Entry.cancel := by
  rw [cancelEntry, found]
  dsimp only
  rw [settled]

/-! ### The others -/

/-- Everything that belongs to other entries than this one is as it was: their names, the
entries themselves, and their firings. -/
structure SparesOthers (n : Nat) (s t : ActorSystem) : Prop where
  names : ∀ {m k : Nat} {name : String}, k ≠ n → s.registered? m name = some k →
    t.registered? m name = some k
  entries : ∀ {k : Nat}, k ≠ n → t.entry? k = s.entry? k
  jobs : ∀ {r : JobRef} {j : Job Duty} {m k : Nat}, k ≠ n → s.job? r = some j →
    j.duty = .firing m k → t.job? r = some j

theorem SparesOthers.refl (n : Nat) (s : ActorSystem) : SparesOthers n s s :=
  ⟨fun _ => id, fun _ => rfl, fun _ found _ => found⟩

theorem SparesOthers.trans (first : SparesOthers n s t) (second : SparesOthers n t u) :
    SparesOthers n s u where
  names := fun other leads => second.names other (first.names other leads)
  entries := fun other => (second.entries other).trans (first.entries other)
  jobs := fun other found does => second.jobs other (first.jobs other found does) does

theorem sparesOthers_modifyManager {m : Nat} {f : Manager → Manager}
    (keeps : ∀ {k}, s.manager? m = some k → (f k).names = k.names) :
    SparesOthers n s (s.modifyManager m f) :=
  ⟨fun _ leads => (registered?_modifyManager keeps _ _).trans leads, fun _ => rfl,
    fun _ found _ => found⟩

theorem sparesOthers_modifyEntry (f : Entry → Entry) : SparesOthers n s (s.modifyEntry n f) :=
  ⟨fun _ => id, fun other => by rw [entry?_modifyEntry, if_neg (Ne.symm other)],
    fun _ found _ => found⟩

/-- A name that leads to the entry leads to no other, so forgetting it concerns no other. -/
theorem sparesOthers_forget {m : Nat} {name : String} (leads : s.registered? m name = some n) :
    SparesOthers n s (s.modifyManager m fun k => k.forget name) where
  names := by
    intro m' k key other led
    rw [registered?_forget, if_neg]
    · exact led
    · rintro ⟨rfl, rfl⟩
      rw [leads] at led
      exact other (Option.some.inj led).symm
  entries := fun _ => rfl
  jobs := fun _ found _ => found

theorem sparesOthers_finishJob {r : JobRef} {j : Job Duty} {m : Nat} (found : s.job? r = some j)
    (does : j.duty = .firing m n) : SparesOthers n s (s.finishJob r) where
  names := fun _ => id
  entries := fun _ => rfl
  jobs := by
    intro q i m' k other here fires
    rw [job?_finishJob, if_neg]
    · exact here
    · rintro rfl
      rw [found] at here
      cases here
      rw [does] at fires
      cases fires
      exact other rfl

theorem sparesOthers_leave (s : ActorSystem) (n : Nat) : SparesOthers n s (s.leave n) := by
  cases found : s.entry? n with
  | none =>
      rw [leave, found]
      exact .refl n s
  | some e =>
      rw [leave_of_found found]
      exact (sparesOthers_modifyEntry _).trans ⟨fun _ => id, fun _ => rfl, fun _ found _ => found⟩

/-- **Whatever the last run of a dead entry answers concerns that entry only.** -/
theorem sparesOthers_conclude {e : Entry} (settled : s.Settled) (found : s.entry? n = some e)
    (dead : e.cancelled = true) (now m : Nat) (at_ : Int) (result : RunResult) :
    SparesOthers n s (s.conclude now m n at_ result) := by
  unfold conclude
  rw [found]
  have forgiven : SparesOthers n s (s.modifyManager m fun k => k.succeeded e.name) :=
    sparesOthers_modifyManager fun _ => rfl
  cases result with
  | suspended => exact forgiven
  | reschedule delay =>
      dsimp only
      rw [scheduleEntry_of_cancelled (s := s.modifyManager m _) found dead]
      exact forgiven
  | done =>
      dsimp only
      rw [cancelEntry_of_dead (s := s.modifyManager m _) found (settled _ _ found dead)]
      have cancelled := forgiven.trans (sparesOthers_modifyEntry Entry.cancel)
      split
      · next leads => exact cancelled.trans (sparesOthers_forget (by simpa using leads))
      · exact cancelled
  | failed =>
      dsimp only
      split
      · exact .refl n s
      · next k manages =>
          have counted :
              SparesOthers n s (s.modifyManager m fun _ => (k.failed e.name at_).2) := by
            refine sparesOthers_modifyManager fun same => ?_
            rw [manages] at same
            cases same
            exact (k.tallies_failed e.name at_).names
          split
          · rw [scheduleEntry_of_cancelled (s := s.modifyManager m _) found dead]
            exact counted
          · exact counted

/-! ### Removal -/

theorem dead_cancelEntry {e : Entry} (found : s.entry? n = some e) : (s.cancelEntry n).Dead n :=
  ⟨e.cancel, by rw [entry?_cancelEntry, if_pos rfl, found]; rfl, rfl⟩

theorem dead_remove (named : s.Named) {m : Nat} {name : String}
    (leads : s.registered? m name = some n) : (s.remove m name).2.Dead n := by
  obtain ⟨e, found, -⟩ := named leads
  rw [remove, leads]
  exact dead_cancelEntry (s := s.modifyManager m _) found

/-- A name leads where it led, unless the entry there is dead by now. -/
theorem Changes.registered (c : Changes s t) (sound : s.Sound) {m : Nat} {name : String}
    (leads : s.registered? m name = some n) : t.registered? m name = some n ∨ t.Dead n := by
  induction c with
  | refl => exact .inl leads
  | tail before last ih =>
      rcases ih with still | dead
      · exact last.registered still
      · exact .inr (last.retires (sound.changes before).numbered dead).dead

/-- **A manager that stops leaves none of its entries alive.** -/
theorem dead_stop (sound : s.Sound) {m : Nat} {name : String}
    (leads : s.registered? m name = some n) : (s.stop m).Dead n := by
  have changes : Changes s (s.stop m) := changes_perform sound 0 (.stop m)
  rcases changes.registered sound leads with still | dead
  · rw [registered?_stop] at still
    cases still
  · exact dead

end ActorSystem

namespace Fleet

open ActorSystem

/-- How an entry dies. -/
inductive Death (n : Nat) : Fleet → Fleet → Prop
  /-- Its name is removed. -/
  | removed {f : Fleet} {m : Nat} {name : String} : f.system.registered? m name = some n →
      Death n f { f with system := (Call.remove m name).perform f.elapsed f.system }
  /-- Its node does not coordinate any more. -/
  | relieved {f : Fleet} {m : Nat} {name : String} (actor : Nat) (delay : Int) {view : View} :
      f.system.registered? m name = some n → view.isCoordinator = false →
      Death n f
        { f with system := (Call.heed m name actor delay view).perform f.elapsed f.system }
  /-- Its manager stops. -/
  | stopped {f : Fleet} {m : Nat} {name : String} : f.system.registered? m name = some n →
      Death n f { f with system := (Call.stop m).perform f.elapsed f.system }
  /-- A run of it is done for good. -/
  | finished {f g : Fleet} {x : Flight} {at_ : Int} : Ends x at_ (some .done) f g →
      x.entry = n → Death n f g

theorem Death.step {n : Nat} {f g : Fleet} (h : Death n f g) : Step f g := by
  cases h with
  | removed => exact .calls _
  | relieved => exact .calls _
  | stopped => exact .calls _
  | finished ends => exact .ends ends

theorem Death.dead {n : Nat} {f g : Fleet} (h : Death n f g) (sound : f.Sound) :
    g.system.Dead n := by
  cases h with
  | removed leads => exact dead_remove sound.manned.system.named leads
  | @relieved m name actor delay view leads elsewhere =>
      show ((f.system.heedView f.elapsed m name actor delay view)).Dead n
      rw [heedView]
      simp only [elsewhere, leads]
      exact dead_remove sound.manned.system.named leads
  | stopped leads => exact dead_stop sound.manned.system leads
  | @finished _ x at_ ends same =>
      subst same
      obtain ⟨e, found, -⟩ := sound.owns ends.mem_running
      rw [ends.system]
      have ended : (f.system.conclude f.elapsed x.manager x.entry at_ .done).Alike _ :=
        alike_over _ x.entry x.job
      refine (ended.retires ?_).dead
      rw [conclude, found]
      dsimp only
      split
      · exact dead_cancelEntry (s := f.system.modifyManager x.manager _) found
      · exact dead_cancelEntry (s := f.system.modifyManager x.manager _) found

/-- A firing that does not run its actor leaves the runs as they are. -/
theorem mem_running_accept {f : Fleet} {x y : Flight} {a : Arrival} {s : ActorSystem}
    (mem : y ∈ (f.accept x a s).running) : y ∈ f.running ∨ y = x ∧ a = .runs := by
  cases a with
  | runs =>
      rcases List.mem_cons.mp mem with rfl | mem
      · exact .inr ⟨rfl, rfl⟩
      · exact .inl mem
  | waits => exact .inl mem
  | dropped => exact .inl mem
  | skipped => exact .inl mem

/-- No run of a dead entry starts by itself. -/
theorem Moves.starts_none_of_dead {f g : Fleet} {n : Nat} {e : Entry} (mv : Moves f g)
    (found : f.system.entry? n = some e) (dead : e.cancelled = true) {x : Flight}
    (mem : x ∈ g.running) (same : x.entry = n) : x ∈ f.running := by
  cases mv with
  | @begins y _ begins =>
      obtain @⟨_, s, begins⟩ := begins
      rcases mem_running_accept mem with old | ⟨rfl, runs⟩
      · exact old
      · have here : s.entry? x.entry = some e := by
          obtain ⟨-, begun⟩ := attend_begin_inv begins
          rw [begun, ← found, ← same]
          rfl
        rw [fire, move_of_found here] at runs
        exact absurd runs (Entry.arrival_fire_of_dead dead x.job)
  | continues continues =>
      cases continues with
      | passes | lapses | hears => exact mem
      | resumes resumes =>
          cases resumes
          rcases mem_running_accept mem with old | ⟨rfl, runs⟩
          · exact old
          · rw [← same] at found
            rw [proceed, move_of_found found] at runs
            exact absurd runs (Entry.arrival_proceed_of_dead dead)

/-- **No step starts a run of a dead entry**, and none schedules a firing of it. -/
theorem Step.retires {f g : Fleet} {n : Nat} (sound : f.Sound) (dead : f.system.Dead n)
    (st : Step f g) :
    Retires n f.system g.system ∧ ∀ x ∈ g.running, x.entry = n → x ∈ f.running := by
  have owned : ∀ x ∈ f.running, f.system.Owns x.manager x.entry :=
    fun x mem => sound.manned.owns (List.mem_append_right _ mem)
  obtain ⟨u, changes, alike⟩ := st.changes sound.manned.system owned
  have first := changes.retires sound.manned.system dead
  refine ⟨first.trans (alike.retires first.dead), ?_⟩
  obtain ⟨e, found, dead⟩ := dead
  intro x mem same
  cases st with
  | calls => exact mem
  | ends ends =>
      cases ends
      rcases List.mem_append.mp mem with mem | mem
      · exact List.mem_append_left _ mem
      · exact List.mem_append_right _ (List.mem_cons_of_mem _ mem)
  | moves mv => exact mv.starts_none_of_dead found dead mem same

/-! ### Runs -/

theorem Steps.retires {f g : Fleet} {n : Nat} (sound : f.Sound) (dead : f.system.Dead n)
    (run : Steps f g) : g.system.Dead n := by
  induction run with
  | refl => exact dead
  | tail before st ih => exact (st.retires (sound.steps before) ih).1.dead

theorem Reachable.settled {f : Fleet} (h : f.Reachable) : f.system.Settled := by
  obtain ⟨s, blank, run⟩ := h
  induction run with
  | refl =>
      intro n e found
      rw [ActorSystem.entry?, blank.entries] at found
      cases found
  | tail before st ih =>
      have sound := blank.sound.steps before
      obtain ⟨u, changes, alike⟩ := st.changes sound.manned.system
        fun x mem => sound.manned.owns (List.mem_append_right _ mem)
      exact Settled.alike (Settled.changes ih changes) alike

/-- **The end of the last run of a dead entry concerns that entry only.** -/
theorem sparesOthers_endRun {f : Fleet} {x : Flight} (sound : f.Sound) (settled : f.system.Settled)
    (mem : x ∈ f.running) (dead : f.system.Dead x.entry) (at_ : Int) (result : Option RunResult) :
    SparesOthers x.entry f.system
      ((f.system.endRun f.elapsed x.manager x.entry at_ result).finishJob x.job) := by
  obtain ⟨e, found, dead⟩ := dead
  obtain ⟨j, job, -, duty⟩ := sound.manned.started (List.mem_append_right f.waiting mem)
  have owns := sound.manned.owns (List.mem_append_right f.waiting mem)
  have ends : ∀ u : ActorSystem, (u.job? x.job).map Job.duty = some (.firing x.manager x.entry) →
      SparesOthers x.entry u ((u.leave x.entry).finishJob x.job) := by
    intro u does
    rw [← (u.alike_leave x.entry).duty] at does
    obtain ⟨i, there, fires⟩ := Option.map_eq_some_iff.mp does
    exact (sparesOthers_leave u x.entry).trans (sparesOthers_finishJob there fires)
  cases result with
  | none => exact ends _ (by rw [job]; exact congrArg some duty)
  | some r =>
      refine (sparesOthers_conclude settled found dead f.elapsed x.manager at_ r).trans (ends _ ?_)
      obtain ⟨i, there, same, -⟩ :=
        (changes_conclude owns f.elapsed at_ r).job sound.manned.system job
      rw [there]
      exact congrArg some (same.trans duty)

/-- **A dead entry never runs again.** Whatever happens after its death, it stays dead, no step
schedules a firing of it, and none starts a run of it. A run of it that was in flight leaves
every other entry as it is when it ends, whatever it answers. -/
theorem Reachable.retirement {f g h : Fleet} {n : Nat} (reached : f.Reachable)
    (death : Death n f g) (later : Steps g h) :
    h.system.Dead n ∧
    (∀ i, Step h i → Retires n h.system i.system ∧
      ∀ x ∈ i.running, x.entry = n → x ∈ h.running) ∧
    ∀ x ∈ h.running, x.entry = n → ∀ at_ result, SparesOthers n h.system
      ((h.system.endRun h.elapsed x.manager x.entry at_ result).finishJob x.job) := by
  have died : g.Reachable := reached.steps (.single death.step)
  have dead : h.system.Dead n := later.retires died.sound (death.dead reached.sound)
  have reached' : h.Reachable := died.steps later
  refine ⟨dead, fun i st => st.retires reached'.sound dead, fun x mem same at_ result => ?_⟩
  subst same
  exact sparesOthers_endRun reached'.sound reached'.settled mem dead at_ result

/-- An actor that is removed and registered again during its first run keeps its new entry when
that run is done for good. -/
theorem retirement_of_registered_again :
    ∃ f g h : Fleet, f.Reachable ∧ Death 0 f g ∧ Steps g h ∧ h.system.Dead 0 ∧
      ⟨⟨0, 1⟩, 0, 0⟩ ∈ h.running ∧ h.system.registered? 0 "x" = some 1 ∧
      ((h.system.endRun h.elapsed 0 0 0 (some .done)).finishJob ⟨0, 1⟩).registered? 0 "x" =
        some 1 := by
  let removed : Fleet :=
    { inFirstRun with system := (Call.remove 0 "x").perform 0 inFirstRun.system }
  let again : Fleet := { removed with system := (Call.register 0 "x" 0 0).perform 0 removed.system }
  have death : Death 0 inFirstRun removed := .removed rfl
  have later : Steps removed again := .single (.calls _)
  obtain ⟨dead, -, spares⟩ := reachable_inFirstRun.retirement death later
  refine ⟨_, _, _, reachable_inFirstRun, death, later, dead, List.mem_singleton.mpr rfl, rfl, ?_⟩
  have kept := spares ⟨⟨0, 1⟩, 0, 0⟩ (List.mem_singleton.mpr rfl) rfl 0 (some .done)
  exact kept.names (by decide) rfl

end Fleet

end RecurringWork
