import RecurringWork.Proofs.Actor.Exclusion

/-!
# RecurringWork.Proofs.Actor.Registration

**What registers a name and what removes it.** Only some calls of a manager do, and each does
it to the name that it is given; apart from them, a name is removed by a run of its actor that
is done for good. Everything else *spares* it (`ActorSystem.Spares`), whatever it does to
schedulers, entries and failures. In a fleet a name can therefore be left to those who use it
(`Fleet.Sparing`).

A manager that heeds views keeps a name registered exactly as long as the last view that it
heeded says that its node coordinates (`ActorSystem.registered?_heedView`).
-/

namespace RecurringWork

/-- The views of a node that is by itself, and coordinates. -/
def View.solo (version : Nat) : View :=
  .compute ⟨.localhost, 7000⟩ [⟨.localhost, 7000⟩] true version

namespace ActorSystem

/-- No manager is lost, and the names that `spared` picks out lead where they led. -/
structure Spares (spared : Nat → String → Prop) (s t : ActorSystem) : Prop where
  registered : ∀ {m : Nat} {name : String}, spared m name →
    t.registered? m name = s.registered? m name
  managers : ∀ m, (t.manager? m).isSome = (s.manager? m).isSome

variable {spared : Nat → String → Prop} {s t u : ActorSystem} {m : Nat} {name : String}

theorem Spares.refl (spared : Nat → String → Prop) (s : ActorSystem) : Spares spared s s :=
  ⟨fun _ => rfl, fun _ => rfl⟩

theorem Spares.trans (first : Spares spared s t) (second : Spares spared t u) :
    Spares spared s u :=
  ⟨fun here => (second.registered here).trans (first.registered here),
    fun m => (second.managers m).trans (first.managers m)⟩

/-- Whoever leaves the managers alone spares every name. -/
theorem spares_of_manager? (same : ∀ m, t.manager? m = s.manager? m) : Spares spared s t where
  registered := fun _ => by rw [registered?, registered?, same]
  managers := fun m => by rw [same]

theorem spares_scheduleEntry (now n : Nat) (delay : Duration) :
    Spares spared s (s.scheduleEntry now m n delay) :=
  spares_of_manager? (manager?_scheduleEntry s now m n delay)

theorem spares_cancelEntry (n : Nat) : Spares spared s (s.cancelEntry n) :=
  spares_of_manager? (manager?_cancelEntry s n)

theorem isSome_manager?_modifyManager (s : ActorSystem) (m : Nat) (f : Manager → Manager)
    (other : Nat) : ((s.modifyManager m f).manager? other).isSome = (s.manager? other).isSome := by
  rw [manager?_modifyManager]
  split
  · exact Option.isSome_map
  · rfl

theorem spares_modifyManager {f : Manager → Manager}
    (keeps : ∀ {k}, s.manager? m = some k → (f k).names = k.names) :
    Spares spared s (s.modifyManager m f) where
  registered := fun _ => registered?_modifyManager keeps _ _
  managers := isSome_manager?_modifyManager s m f

/-! ### What is done to one name -/

theorem spares_forget (other : ¬spared m name) :
    Spares spared s (s.modifyManager m fun k => k.forget name) where
  registered := by
    intro m' key here
    rw [registered?_forget, if_neg]
    rintro ⟨rfl, rfl⟩
    exact other here
  managers := isSome_manager?_modifyManager s m _

theorem spares_enrol (other : ¬spared m name) (actor : Nat) :
    Spares spared s (s.enrol m name actor) where
  registered := by
    intro m' key here
    have apart : ¬(m = m' ∧ name = key ∧ (s.manager? m).isSome) := by
      rintro ⟨rfl, rfl, -⟩
      exact other here
    rw [registered?_enrol, if_neg apart, Option.or_none]
  managers := isSome_manager?_modifyManager _ m _

theorem spares_insert (other : ¬spared m name) {n actor : Nat}
    (result : s.insert m name actor = .ok (n, t)) : Spares spared s t := by
  rcases insert_inv result with ⟨rfl, -⟩ | ⟨rfl, -, -⟩
  · exact .refl spared t
  · exact spares_enrol other actor

theorem spares_register (other : ¬spared m name) {now actor : Nat} {delay : Int}
    (result : s.register now m name actor delay = .ok t) : Spares spared s t := by
  obtain ⟨n, u, wait, -, inserted, rfl⟩ := register_inv result
  exact (spares_insert other inserted).trans (spares_scheduleEntry now n wait)

theorem spares_remove (other : ¬spared m name) : Spares spared s (s.remove m name).2 := by
  unfold remove
  split
  · exact .refl spared s
  · exact (spares_forget other).trans (spares_cancelEntry _)

theorem spares_wake {now : Nat} {delay : Int} (result : s.wake now m name delay = .ok t) :
    Spares spared s t := by
  obtain ⟨n, wait, -, -, rfl⟩ := wake_inv result
  exact spares_scheduleEntry now n wait

theorem spares_heedRequest (now : Nat) (delay : Int) :
    Spares spared s (s.heedRequest now m name delay) := by
  unfold heedRequest
  split
  · exact spares_scheduleEntry now _ _
  · exact .refl spared s

theorem spares_heedView (other : ¬spared m name) (now actor : Nat) (delay : Int) (view : View) :
    Spares spared s (s.heedView now m name actor delay view) := by
  unfold heedView
  dsimp only
  split
  · split
    · next result => exact spares_register other result
    · exact .refl spared s
  · split
    · exact spares_remove other
    · exact .refl spared s

/-- A manager that stops concerns its own names only. -/
theorem spares_stop (others : ∀ name, ¬spared m name) : Spares spared s (s.stop m) := by
  have removals : ∀ (names : List (String × Nat)) (t : ActorSystem),
      Spares spared t (names.foldl (fun t k => (t.remove m k.1).2) t) := by
    intro names
    induction names with
    | nil => exact fun t => .refl spared t
    | cons k rest ih => exact fun t => (spares_remove (others k.1)).trans (ih _)
  unfold stop
  split
  · exact .refl spared s
  · next k _ => exact (removals k.names s).trans (spares_of_manager? fun _ => rfl)

/-- A name that has been removed is free. -/
theorem registered?_remove_self (s : ActorSystem) (m : Nat) (name : String) :
    (s.remove m name).2.registered? m name = none := by
  cases manages : s.manager? m with
  | none =>
      have free : s.registered? m name = none := by
        rw [registered?, manages]
        rfl
      rw [remove, free]
      exact free
  | some k => exact (Fleet.remove_frees manages name).1

/-- A name that leads somewhere is one of those of its manager. -/
theorem mem_names_of_registered {n : Nat} {k : Manager} (leads : s.registered? m name = some n)
    (manages : s.manager? m = some k) : name ∈ k.names.map Prod.fst := by
  rw [registered?, manages] at leads
  obtain ⟨found, here, -⟩ := Option.map_eq_some_iff.mp leads
  have named := List.find?_some here
  exact List.mem_map.mpr ⟨found, List.mem_of_find?_eq_some here, by simpa using named⟩

/-- **A manager that stops has no name left.** -/
theorem registered?_stop (s : ActorSystem) (m : Nat) (name : String) :
    (s.stop m).registered? m name = none := by
  have removals : ∀ (names : List (String × Nat)) (t : ActorSystem),
      t.registered? m name = none ∨ name ∈ names.map Prod.fst →
      (names.foldl (fun t k => (t.remove m k.1).2) t).registered? m name = none := by
    intro names
    induction names with
    | nil => exact fun t h => h.resolve_right fun h => by simp at h
    | cons k rest ih =>
        intro t h
        refine ih (t.remove m k.1).2 ?_
        by_cases here : k.1 = name
        · rw [here]
          exact .inl (t.registered?_remove_self m name)
        · -- Another name is removed, and this one still has to come, if it is not free.
          have spares : Spares (fun _ key => key = name) t (t.remove m k.1).2 :=
            spares_remove here
          rw [spares.registered rfl]
          exact h.imp_right fun mem => by simpa [Ne.symm here] using mem
  unfold stop
  cases manages : s.manager? m with
  | none =>
      rw [registered?, manages]
      rfl
  | some k =>
      refine removals k.names s ?_
      cases leads : s.registered? m name with
      | none => exact .inl rfl
      | some n => exact .inr (mem_names_of_registered leads manages)

/-! ### Views -/

/-- A view that says that the node coordinates concerns no name that is taken. -/
theorem heedView_of_registered {n now actor : Nat} {delay : Int} {view : View}
    (leads : s.registered? m name = some n) (coordinates : view.isCoordinator = true) :
    s.heedView now m name actor delay view = s := by
  simp [heedView, leads, coordinates]

/-- A view that says otherwise removes whatever has the name. -/
theorem heedView_of_elsewhere {now actor : Nat} {delay : Int} {view : View}
    (elsewhere : view.isCoordinator = false) :
    s.heedView now m name actor delay view = (s.remove m name).2 := by
  cases leads : s.registered? m name with
  | none => simp [heedView, remove, leads, elsewhere]
  | some n => simp [heedView, leads, elsewhere]

/-- A name that is free is registered by a view that says that the node coordinates. -/
theorem heedView_of_free {now actor : Nat} {delay : Int} {view : View}
    (free : s.registered? m name = none) (coordinates : view.isCoordinator = true)
    (positive : 0 ≤ delay) : s.heedView now m name actor delay view =
      (s.enrol m name actor).scheduleEntry now m s.entries.length (.ofMillis delay.toNat) := by
  simp [heedView, free, coordinates, register_of_free free now actor positive]

/-- An actor with a negative delay is never registered by a view. -/
theorem heedView_of_negative {now actor : Nat} {delay : Int} {view : View}
    (negative : ¬0 ≤ delay) (free : s.registered? m name = none) :
    s.heedView now m name actor delay view = s := by
  have refused : s.register now m name actor delay = .error (.invalidDelay delay) := by
    rw [register, Duration.ofDelay, if_pos (Int.not_le.mp negative)]
    rfl
  simp [heedView, refused, free]

/-- **Whoever heeds a view has the name registered exactly if the view says that the node
coordinates.** -/
theorem registered?_heedView (manages : (s.manager? m).isSome) (now actor : Nat) {delay : Int}
    (positive : 0 ≤ delay) (view : View) :
    ((s.heedView now m name actor delay view).registered? m name).isSome =
      view.isCoordinator := by
  cases coordinates : view.isCoordinator with
  | true =>
      cases leads : s.registered? m name with
      | some n =>
          rw [heedView_of_registered leads coordinates, leads]
          rfl
      | none =>
          rw [heedView_of_free leads coordinates positive, registered?, manager?_scheduleEntry,
            ← registered?, registered?_enrol, leads, if_pos ⟨rfl, rfl, manages⟩]
          rfl
  | false =>
      rw [heedView_of_elsewhere coordinates, registered?_remove_self]
      rfl

/-! ### Runs -/

/-- **Only a run that is done for good removes the name of its actor.** -/
theorem spares_conclude {n : Nat} {result : RunResult}
    (other : ∀ e, s.entry? n = some e → spared m e.name → result ≠ .done) (now : Nat) (at_ : Int) :
    Spares spared s (s.conclude now m n at_ result) := by
  unfold conclude
  cases found : s.entry? n with
  | none => exact .refl spared s
  | some e =>
      have forgiven : Spares spared s (s.modifyManager m fun k => k.succeeded e.name) :=
        spares_modifyManager fun _ => rfl
      cases result with
      | reschedule delay => exact forgiven.trans (spares_scheduleEntry now n delay)
      | suspended => exact forgiven
      | done =>
          have elsewhere : ¬spared m e.name := fun here => other e found here rfl
          dsimp only
          split
          · exact (forgiven.trans (spares_cancelEntry n)).trans (spares_forget elsewhere)
          · exact forgiven.trans (spares_cancelEntry n)
      | failed =>
          dsimp only
          split
          · exact .refl spared s
          · next k manages =>
              have counted :
                  Spares spared s (s.modifyManager m fun _ => (k.failed e.name at_).2) := by
                refine spares_modifyManager fun same => ?_
                rw [manages] at same
                cases same
                exact (k.tallies_failed e.name at_).names
              split
              · exact counted.trans (spares_scheduleEntry now n _)
              · exact counted

end ActorSystem

/-! ### Calls -/

/-- The call may register or remove an actor under the name of the manager. One that stops the
manager removes all its names. -/
def Call.Disposes (m : Nat) (name : String) : Call → Prop
  | .register k other _ _ | .registerSuspended k other _ | .remove k other
  | .heed k other _ _ _ => k = m ∧ other = name
  | .wake _ _ _ | .request _ _ _ => False
  | .stop k => k = m

/-- **A call spares the names of which it does not dispose.** -/
theorem Call.spares_perform {spared : Nat → String → Prop} (c : Call)
    (others : ∀ m name, c.Disposes m name → ¬spared m name) (now : Nat) (s : ActorSystem) :
    ActorSystem.Spares spared s (c.perform now s) := by
  cases c with
  | register m name actor delay =>
      show ActorSystem.Spares _ s (s.after (s.register now m name actor delay))
      cases result : s.register now m name actor delay with
      | error e => exact .refl _ s
      | ok t => exact ActorSystem.spares_register (others m name ⟨rfl, rfl⟩) result
  | registerSuspended m name actor =>
      show ActorSystem.Spares _ s (s.after ((s.insert m name actor).map Prod.snd))
      cases result : s.insert m name actor with
      | error e => exact .refl _ s
      | ok p => exact ActorSystem.spares_insert (others m name ⟨rfl, rfl⟩) result
  | wake m name delay =>
      show ActorSystem.Spares _ s (s.after (s.wake now m name delay))
      cases result : s.wake now m name delay with
      | error e => exact .refl _ s
      | ok t => exact ActorSystem.spares_wake result
  | remove m name => exact ActorSystem.spares_remove (others m name ⟨rfl, rfl⟩)
  | request m name delay => exact ActorSystem.spares_heedRequest now delay
  | heed m name actor delay view =>
      exact ActorSystem.spares_heedView (others m name ⟨rfl, rfl⟩) now actor delay view
  | stop m => exact ActorSystem.spares_stop fun name => others m name rfl

/-- A name leads where it led after a call that does not dispose of it. -/
theorem Call.registered?_perform {m : Nat} {name : String} {c : Call} (other : ¬c.Disposes m name)
    (now : Nat) (s : ActorSystem) :
    (c.perform now s).registered? m name = s.registered? m name := by
  have spares : ActorSystem.Spares (fun k key => k = m ∧ key = name) s (c.perform now s) := by
    refine c.spares_perform (fun k key disposes same => ?_) now s
    obtain ⟨rfl, rfl⟩ := same
    exact other disposes
  exact spares.registered ⟨rfl, rfl⟩

/-- The call neither registers nor removes an actor under the name. -/
def Call.Spares (name : String) : Call → Prop
  | .register _ other _ _ | .registerSuspended _ other _ | .remove _ other
  | .heed _ other _ _ _ => other ≠ name
  | .wake _ _ _ | .request _ _ _ => True
  | .stop _ => False

theorem Call.Spares.perform {name : String} {c : Call} (h : c.Spares name) (now : Nat)
    (s : ActorSystem) : ActorSystem.Spares (fun _ key => key = name) s (c.perform now s) := by
  refine c.spares_perform (fun m key disposes same => ?_) now s
  subst same
  cases c with
  | register | registerSuspended | remove | heed => exact h disposes.2
  | wake | request => exact disposes
  | stop => exact h

/-! ### Fleets -/

namespace Fleet

/-- One thing that happens and leaves a name alone: no call registers or removes it, and no run
of its actor is done for good. -/
inductive Sparing (name : String) : Fleet → Fleet → Prop
  /-- A manager is called. -/
  | calls {f : Fleet} (c : Call) : c.Spares name →
      Sparing name f { f with system := c.perform f.elapsed f.system }
  | ends {f g : Fleet} {x : Flight} {at_ : Int} {result : Option RunResult} :
      Ends x at_ result f g →
      (∀ e, f.system.entry? x.entry = some e → e.name = name → result ≠ some .done) →
      Sparing name f g
  /-- Something else happens, which concerns no manager. -/
  | others {f g : Fleet} : Step f g → g.system.managers = f.system.managers → Sparing name f g

/-- **What leaves a name alone leaves it where it leads.** -/
theorem Sparing.spares {name : String} {f g : Fleet} (h : Sparing name f g) :
    ActorSystem.Spares (fun _ key => key = name) f.system g.system := by
  cases h with
  | calls c spares => exact spares.perform _ _
  | @ends _ x at_ result ends other =>
      have finished : ∀ t : ActorSystem,
          ActorSystem.Spares (fun _ key => key = name) t ((t.leave x.entry).finishJob x.job) := by
        intro t
        refine ActorSystem.spares_of_manager? fun m => ?_
        unfold ActorSystem.leave
        split <;> rfl
      rw [ends.system]
      cases result with
      | none => exact finished f.system
      | some r =>
          refine (ActorSystem.spares_conclude (fun e found named done => ?_) f.elapsed at_).trans
            (finished _)
          exact other e found named (congrArg some done)
  | others _ same =>
      refine ActorSystem.spares_of_manager? fun m => ?_
      rw [ActorSystem.manager?, ActorSystem.manager?, same]

end Fleet

end RecurringWork
