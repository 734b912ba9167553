import Mathlib.Logic.Function.Basic
import RecurringWork.Proofs.Actor.Registry

/-!
# RecurringWork.Proofs.Actor.Aftermath

**What is left of a manager that has been stopped.** To stop a manager removes all its actors and
stops its scheduler. Timers may be left over, a firing may wait for the lock, runs may be in flight,
other nodes may ask for actors, and the views of the cluster go on: the manager heeds them as
before, for whatever actors it has taken charge of. An `Aftermath` is all that can happen then,
unless somebody registers an actor with that manager himself.

None of it starts a run. The firings of the manager are on its scheduler, which accepts no jobs and
begins none, and those that have begun before are firings of entries that are dead
(`Aftermath.Sound`). But a view that says that the node coordinates registers the actor of a charge
as it would have before. The names that are registered are just those for which the last view has
said so (`Aftermath.Reachable.names_and_runs`).
-/

namespace RecurringWork

/-- What has happened since a manager was stopped. -/
structure Aftermath where
  fleet : Fleet
  /-- Whether the last view that was heeded for a name since then says that the node coordinates. -/
  said : String → Bool

namespace Aftermath

open ActorSystem Fleet

/-- One thing that happens, apart from registrations with the manager. -/
inductive Step (m : Nat) : Aftermath → Aftermath → Prop
  /-- The manager heeds a view for an actor of which it has taken charge. -/
  | heeds {a : Aftermath} (name : String) (actor : Nat) {delay : Int} (view : View) : 0 ≤ delay →
      Step m a ⟨a.fleet.call (.heed m name actor delay view),
        Function.update a.said name view.isCoordinator⟩
  /-- An actor is removed. -/
  | removes {a : Aftermath} (name : String) :
      Step m a ⟨a.fleet.call (.remove m name), Function.update a.said name false⟩
  /-- The manager is stopped once more. -/
  | stops {a : Aftermath} : Step m a ⟨a.fleet.call (.stop m), fun _ => false⟩
  /-- An actor is woken, here or by another node, or another manager is called. -/
  | calls {a : Aftermath} (c : Call) : (∀ name, ¬c.Disposes m name) →
      Step m a ⟨a.fleet.call c, a.said⟩
  | ends {f g : Fleet} {x : Flight} {at_ : Int} {result : Option RunResult}
      {said : String → Bool} : Ends x at_ result f g → Step m ⟨f, said⟩ ⟨g, said⟩
  /-- Firings go on by themselves. -/
  | moves {f g : Fleet} {said : String → Bool} : Moves f g → Step m ⟨f, said⟩ ⟨g, said⟩

/-- What can come of a manager that is stopped at any time. -/
def Reachable (m : Nat) (a : Aftermath) : Prop :=
  ∃ f : Fleet, f.Reachable ∧ (f.system.manager? m).isSome ∧
    Relation.ReflTransGen (Step m) ⟨f.call (.stop m), fun _ => false⟩ a

variable {m : Nat} {a b : Aftermath}

theorem Step.fleet (st : Step m a b) : Fleet.Step a.fleet b.fleet := by
  cases st with
  | heeds => exact a.fleet.step_call _
  | removes => exact a.fleet.step_call _
  | stops => exact a.fleet.step_call _
  | calls c => exact a.fleet.step_call c
  | ends ends => exact .ends ends
  | moves mv => exact .moves mv

/-- The scheduler of the manager accepts no jobs, its firings are of dead entries, and its names are
those for which the last view has said that the node coordinates. -/
structure Sound (m : Nat) (a : Aftermath) : Prop where
  fleet : a.fleet.Sound
  registry : a.fleet.system.Registry
  closed : ∃ k, (a.fleet.system.manager? m).map Manager.scheduler = some k ∧
    ¬a.fleet.system.Live k
  dead : ∀ x ∈ a.fleet.flights, x.manager = m → a.fleet.system.Dead x.entry
  names : ∀ name, (a.fleet.system.registered? m name).isSome = a.said name

/-! ### The manager stops -/

theorem not_live_stopScheduler (s : ActorSystem) (k : Nat) : ¬(s.stopScheduler k).Live k := by
  rintro ⟨known, open_⟩
  rw [ActorSystem.stopScheduler, ActorSystem.alert, ActorSystem.modifyScheduler,
    List.length_modify] at known
  rw [ActorSystem.stopScheduler, scheduler_alert, scheduler_modifyScheduler,
    if_pos ⟨rfl, known⟩] at open_
  cases open_

/-- The scheduler of a manager that stops accepts no jobs any more. -/
theorem not_live_stop {s : ActorSystem} {k : Manager} (manages : s.manager? m = some k) :
    ¬(s.stop m).Live k.scheduler := by
  unfold ActorSystem.stop
  rw [manages]
  exact not_live_stopScheduler _ k.scheduler

/-- Whatever a manager had in flight is of a dead entry once it has stopped. -/
theorem dead_of_stop {f : Fleet} (h : f.Sound) {x : Flight} (mem : x ∈ f.flights)
    (manager : x.manager = m) : (f.call (.stop m)).system.Dead x.entry := by
  obtain ⟨e, found, leads⟩ := h.manned.owns mem
  cases cancelled : e.cancelled with
  | true => exact ((f.step_call (.stop m)).retires h ⟨e, found, cancelled⟩).1.dead
  | false =>
      have led := leads cancelled
      rw [manager] at led
      exact dead_stop h.manned.system led

/-- **A manager that has just been stopped has nobody registered and nothing to start.** -/
theorem sound_of_stop {f : Fleet} (h : f.Reachable) (manages : (f.system.manager? m).isSome) :
    Sound m ⟨f.call (.stop m), fun _ => false⟩ := by
  have st := f.step_call (.stop m)
  obtain ⟨k, known⟩ := Option.isSome_iff_exists.mp manages
  refine ⟨h.sound.step st, st.registry h.sound h.registry, ⟨k.scheduler, ?_, ?_⟩, ?_, ?_⟩
  · rw [(st.lasts h.sound).1, known]
    rfl
  · exact not_live_stop known
  · exact fun x mem manager => dead_of_stop h.sound mem manager
  · intro name
    rw [show (f.call (.stop m)).system.registered? m name = none from
      f.system.registered?_stop m name]
    rfl

/-! ### What happens then -/

/-- No run in flight has a name to lose. -/
theorem Sound.registered?_ne (h : a.Sound m) {x : Flight} (mem : x ∈ a.fleet.flights)
    (name : String) : a.fleet.system.registered? m name ≠ some x.entry := by
  intro leads
  have manager : x.manager = m := h.registry.registered_of_owns leads (h.fleet.manned.owns mem)
  obtain ⟨e, found, dead⟩ := h.dead x mem manager
  rw [h.registry.alive leads found] at dead
  cases dead

/-- What a step does to the names is what it says. -/
theorem Sound.names_step (h : a.Sound m) (st : Step m a b) (name : String) :
    (b.fleet.system.registered? m name).isSome = b.said name := by
  have manages : (a.fleet.system.manager? m).isSome := by
    obtain ⟨k, known, -⟩ := h.closed
    rw [← Option.isSome_map (f := Manager.scheduler), known]
    rfl
  -- What is said of one name concerns no other.
  have updated : ∀ {key : String} {v : Bool} {t : ActorSystem},
      (t.registered? m key).isSome = v →
      (key ≠ name → t.registered? m name = a.fleet.system.registered? m name) →
      (t.registered? m name).isSome = Function.update a.said key v name := by
    intro key v t here other
    by_cases same : key = name
    · subst same
      rw [Function.update_self, here]
    · rw [Function.update_of_ne (Ne.symm same), ← h.names name, other same]
  cases st with
  | @heeds _ key actor delay view positive =>
      refine updated (registered?_heedView manages _ actor positive view) fun apart => ?_
      have other : ¬(Call.heed m key actor delay view).Disposes m name := fun same => apart same.2
      exact Call.registered?_perform other a.fleet.elapsed a.fleet.system
  | removes key =>
      refine updated (congrArg Option.isSome (a.fleet.system.registered?_remove_self m key))
        fun apart => ?_
      have other : ¬(Call.remove m key).Disposes m name := fun same => apart same.2
      exact Call.registered?_perform other a.fleet.elapsed a.fleet.system
  | stops => exact congrArg Option.isSome (a.fleet.system.registered?_stop m name)
  | calls c others =>
      exact (congrArg Option.isSome (Call.registered?_perform (others name) _ _)).trans
        (h.names name)
  | @ends f _ x at_ result _ ends =>
      have mem : x ∈ f.flights := List.mem_append_right _ ends.mem_running
      rw [ends.system, registered?_endRun h.registry (h.fleet.owns ends.mem_running),
        if_neg fun both => h.registered?_ne mem name both.2]
      exact h.names name
  | moves mv => exact (congrArg Option.isSome (mv.alike.registered m name)).trans (h.names name)

/-- No firing of the manager begins. -/
theorem Sound.mem_flights (h : a.Sound m) (st : Step m a b) {x : Flight}
    (mem : x ∈ b.fleet.flights) (manager : x.manager = m) : x ∈ a.fleet.flights := by
  rcases st.fleet.mem_flights mem with old | ⟨live, j, found, fires⟩
  · exact old
  · -- The firing would be on the scheduler of the manager.
    obtain ⟨k, known, dead⟩ := h.closed
    have placed := h.registry.filed.placed found fires
    rw [manager, known] at placed
    exact absurd (Option.some.inj placed ▸ live) dead

/-- **Every step keeps an aftermath sound.** -/
theorem Sound.step (h : a.Sound m) (st : Step m a b) : b.Sound m where
  fleet := h.fleet.step st.fleet
  registry := st.fleet.registry h.fleet h.registry
  closed := by
    obtain ⟨k, known, dead⟩ := h.closed
    exact ⟨k, ((st.fleet.lasts h.fleet).1 m).trans known,
      fun live => dead (st.fleet.live h.fleet live)⟩
  dead := by
    intro x mem manager
    have dead := h.dead x (h.mem_flights st mem manager) manager
    exact (st.fleet.retires h.fleet dead).1.dead
  names := h.names_step st

theorem Reachable.sound (h : a.Reachable m) : a.Sound m := by
  obtain ⟨f, reached, manages, run⟩ := h
  induction run with
  | refl => exact sound_of_stop reached manages
  | tail _ st ih => exact ih.step st

/-- **No step starts a run of the manager.** -/
theorem Sound.running (h : a.Sound m) (st : Step m a b) {x : Flight}
    (mem : x ∈ b.fleet.running) (manager : x.manager = m) : x ∈ a.fleet.running := by
  have old := h.mem_flights st (List.mem_append_right _ mem) manager
  exact (st.fleet.retires h.fleet (h.dead x old manager)).2 x mem rfl

/-- A manager has no names if none leads anywhere. -/
theorem names_eq_nil_iff {s : ActorSystem} {k : Manager} (manages : s.manager? m = some k) :
    k.names = [] ↔ ∀ name, s.registered? m name = none := by
  constructor
  · intro none name
    rw [registered?, manages]
    show k.entry? name = Option.none
    rw [Manager.entry?, none]
    rfl
  · intro free
    refine List.eq_nil_iff_forall_not_mem.mpr fun p mem => ?_
    have none := free p.1
    rw [registered?, manages] at none
    have missing := List.find?_eq_none.mp (Option.map_eq_none_iff.mp none) p mem
    simp at missing

/-- **After a manager has been stopped no run of it starts, and its registry is as the views would
have it.** A name is registered exactly if the last view that has been heeded for it since says that
the node coordinates. So the registry stays empty exactly as long as there is no such view; and
whoever is registered is never run, because the scheduler accepts no jobs. -/
theorem Reachable.names_and_runs (h : a.Reachable m) :
    (∀ b, Step m a b → ∀ x ∈ b.fleet.running, x.manager = m → x ∈ a.fleet.running) ∧
    (∀ name, (a.fleet.system.registered? m name).isSome = a.said name) ∧
    ∃ k, a.fleet.system.manager? m = some k ∧ ¬a.fleet.system.Live k.scheduler ∧
      (k.names = [] ↔ ∀ name, a.said name = false) := by
  have sound := h.sound
  refine ⟨fun b st x mem manager => sound.running st mem manager, sound.names, ?_⟩
  obtain ⟨i, known, dead⟩ := sound.closed
  obtain ⟨k, manages, rfl⟩ := Option.map_eq_some_iff.mp known
  refine ⟨k, manages, dead, (names_eq_nil_iff manages).trans (forall_congr' fun name => ?_)⟩
  rw [← sound.names name, Option.isSome_eq_false_iff, Option.isNone_iff_eq_none]

/-! ### A manager that is stopped while its node coordinates -/

/-- A manager that has taken charge of an actor has been stopped during the first run. -/
def stopped : Aftermath := ⟨inFirstRun.call (.stop 0), fun _ => false⟩

theorem reachable_stopped : stopped.Reachable 0 :=
  ⟨inFirstRun, reachable_inFirstRun, rfl, .refl⟩

/-- Nobody is registered, and the run that is in flight is not followed by another one. -/
theorem names_and_runs_of_stopped :
    stopped.Reachable 0 ∧ (∀ name, stopped.fleet.system.registered? 0 name = none) ∧
      ∀ b, Step 0 stopped b → ∀ x ∈ b.fleet.running, x.manager = 0 → x = ⟨⟨0, 1⟩, 0, 0⟩ := by
  obtain ⟨runs, names, -⟩ := reachable_stopped.names_and_runs
  refine ⟨reachable_stopped, fun name => ?_, fun b st x mem manager => ?_⟩
  · exact Option.isNone_iff_eq_none.mp (Option.isSome_eq_false_iff.mp (names name))
  · exact List.mem_singleton.mp (runs b st x mem manager)

/-- **The next view fills the registry of a manager that has been stopped.** -/
theorem registered_when_stopped :
    ∃ a, Step 0 stopped a ∧ a.Reachable 0 ∧ a.fleet.system.registered? 0 "x" = some 1 ∧
      (a.fleet.system.manager? 0).map (fun k => k.names.map Prod.fst) = some ["x"] := by
  have heeds : Step 0 stopped _ := .heeds "x" 0 (.solo 2) (Int.le_refl 0)
  exact ⟨_, heeds, ⟨inFirstRun, reachable_inFirstRun, rfl, .single heeds⟩, by decide, by decide⟩

end Aftermath

end RecurringWork
