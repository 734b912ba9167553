import RecurringWork.Proofs.Actor.Coming
import RecurringWork.Proofs.Actor.Fleet

/-!
# RecurringWork.Proofs.Actor.Exclusion

**When two runs of one actor can be in flight together.** The lock that keeps runs apart
is that of an entry, and an entry lives as long as its registration. So two runs of one
name are runs of different entries, and one of these has been cancelled
(`Sound.cancelled_of_overlap`). That is all it takes: a registration that ends during a
run takes the lock with it, and the same actor registered again under the same name
runs beside the old run (`overlap_of_running`).
-/

namespace RecurringWork.Fleet

/-- Two different runs in flight of one actor, registered with one manager under one
name. -/
structure Overlap (f : Fleet) (x y : Flight) (d e : Entry) : Prop where
  first : x ∈ f.running
  second : y ∈ f.running
  different : x ≠ y
  first_entry : f.system.entry? x.entry = some d
  second_entry : f.system.entry? y.entry = some e
  manager : x.manager = y.manager
  name : d.name = e.name
  actor : d.actor = e.actor

/-- Two runs in flight are of different entries. -/
theorem Sound.entry_ne {f : Fleet} (h : f.Sound) {x y : Flight} (hx : x ∈ f.running)
    (hy : y ∈ f.running) (different : x ≠ y) : x.entry ≠ y.entry := by
  intro same
  obtain ⟨e, found, -⟩ := h.manned.owns (List.mem_append_right f.waiting hx)
  have short : (jobsOf x.entry f.running).length ≤ 1 := (h.laned found).tidy.running_short
  have first : x.job ∈ jobsOf x.entry f.running := mem_jobsOf.mpr ⟨x, hx, rfl, rfl⟩
  have second : y.job ∈ jobsOf x.entry f.running := mem_jobsOf.mpr ⟨y, hy, same.symm, rfl⟩
  have jobs : x.job = y.job := by
    match listed : jobsOf x.entry f.running, short with
    | [], _ =>
        rw [listed] at first
        cases first
    | [r], _ =>
        rw [listed, List.mem_singleton] at first second
        exact first.trans second.symm
  refine different (h.manned.eq_of_job ?_ ?_ jobs)
  · exact List.mem_append_right _ hx
  · exact List.mem_append_right _ hy

/-- **Runs of one name overlap only if the entry of one of them is cancelled.** -/
theorem Sound.cancelled_of_overlap {f : Fleet} (h : f.Sound) {x y : Flight} {d e : Entry}
    (o : f.Overlap x y d e) : x.entry ≠ y.entry ∧ (d.cancelled = true ∨ e.cancelled = true) := by
  have entries := h.entry_ne o.first o.second o.different
  refine ⟨entries, ?_⟩
  cases first : d.cancelled with
  | true => exact .inl rfl
  | false =>
      cases second : e.cancelled with
      | true => exact .inr rfl
      | false =>
          -- Both live, so the one name of both would have to lead to both.
          obtain ⟨d', found, leads⟩ := h.manned.owns (List.mem_append_right f.waiting o.first)
          obtain ⟨e', found', leads'⟩ := h.manned.owns (List.mem_append_right f.waiting o.second)
          rw [o.first_entry] at found
          rw [o.second_entry] at found'
          cases found
          cases found'
          have one := leads first
          rw [o.manager, o.name, leads' second] at one
          exact absurd (Option.some.inj one).symm entries

/-- A name that is free can be registered at once. Its first job begins in a system that
knows the new entry and all others. -/
theorem register_begins {s : ActorSystem} {m : Nat} {k : Manager} {name : String}
    (free : s.registered? m name = none) (manages : s.manager? m = some k)
    (live : s.Live k.scheduler) (now actor : Nat) :
    ∃ r t latest, ((Call.register m name actor 0).perform now s).attend now r =
        (.begin (.firing m s.entries.length), t) ∧
      ∀ n, t.entry? n = if s.entries.length = n then
        some { Entry.ofActor name actor with latest } else s.entry? n := by
  have performed : (Call.register m name actor 0).perform now s =
      (s.enrol m name actor).scheduleEntry now m s.entries.length (.ofMillis 0) := by
    show s.after (s.register now m name actor 0) = _
    rw [ActorSystem.register_of_free free now actor (Int.le_refl 0)]
    rfl
  have found : ActorSystem.entry? (s.enrol m name actor) s.entries.length =
      some (.ofActor name actor) := by
    rw [ActorSystem.entry?_enrol, if_pos rfl]
  have manages' : (s.enrol m name actor).manager? m =
      some { k with names := k.names ++ [(name, s.entries.length)] } := by
    rw [ActorSystem.enrol, ActorSystem.manager?_modifyManager, if_pos rfl]
    exact congrArg (Option.map _) manages
  have live' : (s.enrol m name actor).Live k.scheduler := ⟨live.known, live.open_⟩
  rw [performed]
  have job := ActorSystem.job?_scheduleEntry_of_live found rfl manages' live' now (.ofMillis 0)
    ⟨k.scheduler, ((s.enrol m name actor).scheduler k.scheduler).jobs.length + 1⟩
  rw [if_pos rfl] at job
  obtain ⟨t, begins⟩ := ActorSystem.attend_of_due job rfl rfl
    ((ActorSystem.stopped_scheduleEntry _ now m _ _ _).trans live.open_) (Nat.le_refl now)
  obtain ⟨-, same⟩ := ActorSystem.attend_begin_inv begins
  refine ⟨_, t, some (((s.enrol m name actor).schedule now k.scheduler
    (.firing m s.entries.length) (.ofMillis 0)).1), begins, fun n => ?_⟩
  rw [same, ActorSystem.entry?_modifyScheduler,
    ActorSystem.scheduleEntry_of_live found rfl manages', ActorSystem.entry?_modifyEntry]
  by_cases new : s.entries.length = n
  · subst new
    rw [if_pos rfl, if_pos rfl]
    exact congrArg (Option.map _) found
  · rw [if_neg new, if_neg new]
    exact (s.entry?_enrol m name actor n).trans (if_neg (Ne.symm new))

/-! ### A name that is removed during a run -/

/-- After a name has been removed, it is free. The manager keeps its scheduler. -/
theorem remove_frees {s : ActorSystem} {m : Nat} {k : Manager} (manages : s.manager? m = some k)
    (name : String) : (s.remove m name).2.registered? m name = none ∧
      ∃ c, (s.remove m name).2.manager? m = some c ∧ c.scheduler = k.scheduler := by
  unfold ActorSystem.remove
  split
  · next none => exact ⟨none, k, manages, rfl⟩
  · next n _ =>
      have forgets : (s.modifyManager m fun k => k.forget name).manager? m =
          some (k.forget name) := by
        rw [ActorSystem.manager?_modifyManager, if_pos rfl, manages]
        rfl
      refine ⟨?_, k.forget name, ?_, rfl⟩
      · rw [ActorSystem.registered?, ActorSystem.manager?_cancelEntry, ← ActorSystem.registered?,
          ActorSystem.registered?_forget, if_pos ⟨rfl, rfl⟩]
      · rw [ActorSystem.manager?_cancelEntry]
        exact forgets

theorem live_remove {s : ActorSystem} {k : Nat} (live : s.Live k) (m : Nat) (name : String) :
    (s.remove m name).2.Live k := by
  unfold ActorSystem.remove
  split
  · exact live
  · next n _ =>
      rcases (s.modifyManager m fun k => k.forget name).cancelEntry_cases n with
        ⟨same, -⟩ | ⟨e, -, same | ⟨r, same⟩⟩
      · rw [same]
        exact ⟨live.known, live.open_⟩
      · rw [same]
        exact ⟨live.known, live.open_⟩
      · have cancelled : ((s.modifyManager m fun k => k.forget name).modifyEntry n
            Entry.cancel).Live k := ⟨live.known, live.open_⟩
        rw [same]
        exact cancelled.cancelJob r

/-- Entries are known by their names and actors, also after one has been removed. -/
theorem entry?_remove {s : ActorSystem} {n : Nat} {e : Entry} (found : s.entry? n = some e)
    (m : Nat) (name : String) :
    ∃ d, ActorSystem.entry? (s.remove m name).2 n = some d ∧ d.name = e.name ∧
      d.actor = e.actor := by
  unfold ActorSystem.remove
  split
  · exact ⟨e, found, rfl, rfl⟩
  · next r _ =>
      rw [ActorSystem.entry?_cancelEntry, ActorSystem.entry?_modifyManager, found]
      by_cases here : r = n
      · rw [if_pos here]
        exact ⟨e.cancel, rfl, rfl, rfl⟩
      · rw [if_neg here]
        exact ⟨e, rfl, rfl, rfl⟩

/-- A run does not keep its actor from being run again, as soon as the name is free. -/
theorem overlap_of_free {f : Fleet} {x : Flight} {d : Entry} {k : Manager}
    (running : x ∈ f.running) (found : f.system.entry? x.entry = some d)
    (free : f.system.registered? x.manager d.name = none)
    (manages : f.system.manager? x.manager = some k) (live : f.system.Live k.scheduler) :
    ∃ g y e, Steps f g ∧ g.Overlap x y d e := by
  obtain ⟨r, t, latest, begins, entries⟩ :=
    register_begins free manages live f.elapsed d.actor
  have lower : x.entry < f.system.entries.length := (List.getElem?_eq_some_iff.mp found).1
  have new : t.entry? f.system.entries.length =
      some { Entry.ofActor d.name d.actor with latest } := by
    rw [entries, if_pos rfl]
  let registered : Fleet := { f with system :=
    (Call.register x.manager d.name d.actor 0).perform f.elapsed f.system }
  have register : Step f registered := .calls _
  have fires : Step registered _ :=
    .moves (.begins (.intro (x := ⟨r, x.manager, f.system.entries.length⟩) begins))
  rw [ActorSystem.fire, ActorSystem.move_of_found new] at fires
  refine ⟨_, ⟨r, x.manager, f.system.entries.length⟩,
    { Entry.ofActor d.name d.actor with latest, holder := some r },
    (Relation.ReflTransGen.single register).tail fires, ?_⟩
  refine ⟨List.mem_cons_of_mem _ running, List.mem_cons_self, ?_, ?_, ?_, rfl, rfl, rfl⟩
  · intro same
    have : x.entry = f.system.entries.length := congrArg Flight.entry same
    omega
  · rw [entry?_accept, ActorSystem.entry?_alert, ActorSystem.entry?_modifyEntry,
      if_neg (by omega), entries, if_neg (by omega)]
    exact found
  · rw [entry?_accept, ActorSystem.entry?_alert, ActorSystem.entry?_modifyEntry, if_pos rfl, new]
    rfl

/-- **Removing a name during a run and registering its actor again makes two runs of
it.** -/
theorem overlap_of_running {f : Fleet} {x : Flight} {d : Entry} {k : Manager}
    (running : x ∈ f.running) (found : f.system.entry? x.entry = some d)
    (manages : f.system.manager? x.manager = some k) (live : f.system.Live k.scheduler) :
    ∃ g y d' e, Steps f g ∧ g.Overlap x y d' e ∧ d'.name = d.name ∧ d'.actor = d.actor := by
  obtain ⟨d', found', name, actor⟩ := entry?_remove found x.manager d.name
  obtain ⟨free, c, manages', scheduler⟩ := remove_frees manages d.name
  have removes : Step f { f with system := (f.system.remove x.manager d.name).2 } :=
    .calls (.remove x.manager d.name)
  rw [← name] at free found' manages' removes
  obtain ⟨g, y, e, later, overlap⟩ := overlap_of_free
    (f := { f with system := (f.system.remove x.manager d'.name).2 }) running found' free manages'
    (scheduler ▸ live_remove live _ _)
  exact ⟨g, y, d', e, .head removes later, overlap, name, actor⟩

/-- A firing that begins and finds the lock free runs its actor. -/
theorem runs_of_attend {f : Fleet} {r : JobRef} {m n : Nat} {s t : ActorSystem}
    (begins : f.system.attend f.elapsed r = (.begin (.firing m n), s))
    (runs : s.fire n r = (.runs, t)) :
    Step f { f with system := t, running := ⟨r, m, n⟩ :: f.running } := by
  have step : Step f _ := .moves (.begins (.intro (x := ⟨r, m, n⟩) begins))
  rw [runs] at step
  exact step

/-- A manager whose only actor is in its first run. -/
def inFirstRun : Fleet where
  system := ⟨[⟨"x", 0, false, some ⟨0, 1⟩, [], false, some ⟨0, 1⟩⟩],
    [⟨[("x", 0)], 0, none, none, none⟩], [⟨[⟨1, .firing 0 0, 0, false, .started⟩], false⟩], [⟨0, 1⟩]⟩
  elapsed := 0
  waiting := []
  running := [⟨⟨0, 1⟩, 0, 0⟩]

theorem reachable_inFirstRun : inFirstRun.Reachable := by
  let unused : ActorSystem := ⟨[], [⟨[], 0, none, none, none⟩], [.empty], []⟩
  let registered : Fleet := ⟨(Call.register 0 "x" 0 0).perform 0 unused, 0, [], []⟩
  have blank : Blank unused := ⟨rfl, by simp [unused], by simp [unused, Scheduler.empty]⟩
  have first : Step ⟨unused, 0, [], []⟩ registered := .calls _
  have second : Step registered inFirstRun := runs_of_attend (r := ⟨0, 1⟩) rfl rfl
  exact ⟨unused, blank, .head first (.single second)⟩

/-- **Runs of one actor under one name overlap only if the entry of one of them has been
cancelled during it.** And then nothing keeps them apart: any run in flight can be
joined by another one, as long as the scheduler accepts jobs. -/
theorem Reachable.exclusion {f : Fleet} (h : f.Reachable) :
    (∀ x y d e, f.Overlap x y d e →
      x.entry ≠ y.entry ∧ (d.cancelled = true ∨ e.cancelled = true)) ∧
    ∀ x d k, x ∈ f.running → f.system.entry? x.entry = some d →
      f.system.manager? x.manager = some k → f.system.Live k.scheduler →
      ∃ g y d' e, Steps f g ∧ g.Overlap x y d' e ∧ d'.name = d.name ∧ d'.actor = d.actor := by
  refine ⟨fun x y d e overlap => h.sound.cancelled_of_overlap overlap, ?_⟩
  intro x d k running found manages live
  exact overlap_of_running running found manages live

/-- An actor that is removed and registered again during its first run is run twice at a
time. -/
theorem overlap_of_registered_again :
    ∃ f : Fleet, f.Reachable ∧ f.Overlap ⟨⟨0, 1⟩, 0, 0⟩ ⟨⟨0, 2⟩, 0, 1⟩
      ⟨"x", 0, true, some ⟨0, 1⟩, [], false, none⟩
      ⟨"x", 0, false, some ⟨0, 2⟩, [], false, some ⟨0, 2⟩⟩ := by
  let removed : Fleet :=
    { inFirstRun with system := (Call.remove 0 "x").perform 0 inFirstRun.system }
  let again : Fleet := { removed with system := (Call.register 0 "x" 0 0).perform 0 removed.system }
  have first : Step inFirstRun removed := .calls _
  have second : Step removed again := .calls _
  have third : Step again _ := runs_of_attend (r := ⟨0, 2⟩) rfl rfl
  refine ⟨_, reachable_inFirstRun.steps (.head first (.head second (.single third))), ?_⟩
  exact ⟨by decide, by decide, by decide, rfl, rfl, rfl, rfl, rfl⟩

/-- The first run of an actor can be joined by another one, and its entry is cancelled
then. -/
theorem exclusion_of_first_run :
    ∃ f x d, f.Reachable ∧ x ∈ f.running ∧ f.system.entry? x.entry = some d ∧
      d.cancelled = false ∧ ∃ g y d' e, Steps f g ∧ g.Overlap x y d' e ∧
        (d'.cancelled = true ∨ e.cancelled = true) := by
  have reached := reachable_inFirstRun
  obtain ⟨g, y, d, e, run, overlap, -⟩ := reached.exclusion.2 ⟨⟨0, 1⟩, 0, 0⟩
    ⟨"x", 0, false, some ⟨0, 1⟩, [], false, some ⟨0, 1⟩⟩ ⟨[("x", 0)], 0, none, none, none⟩
    (by decide) rfl rfl ⟨by decide, rfl⟩
  refine ⟨inFirstRun, _, _, reached, by decide, rfl, rfl, g, y, d, e, run, overlap, ?_⟩
  exact ((reached.steps run).exclusion.1 _ _ _ _ overlap).2

end RecurringWork.Fleet
