import RecurringWork.Proofs.Actor.Change

/-!
# RecurringWork.Proofs.Actor.Call

**The calls of a manager, and the end of a run, as elementary changes.** A `Call` is
whatever asks a manager for something: a user, another node, or a new view of the
cluster. One that is refused leaves everything as it is. `acts_perform` and
`acts_conclude` take calls and runs apart into changes that are done for the names they
are about (`ActorSystem.Act`); where the names do not matter, what is left to prove of the
system are facts about a `Change` (`changes_perform`, `changes_conclude`).
-/

namespace RecurringWork

/-- What a manager can be asked for. -/
inductive Call
  /-- Register an actor and schedule its first run. -/
  | register (manager : Nat) (name : String) (actor : Nat) (delay : Int)
  /-- Register an actor. -/
  | registerSuspended (manager : Nat) (name : String) (actor : Nat)
  /-- Schedule a registered actor. -/
  | wake (manager : Nat) (name : String) (delay : Int)
  /-- Remove an actor. -/
  | remove (manager : Nat) (name : String)
  /-- Schedule an actor for another node. -/
  | request (manager : Nat) (name : String) (delay : Int)
  /-- Heed a view, for an actor that runs on the coordinating node only. -/
  | heed (manager : Nat) (name : String) (actor : Nat) (delay : Int) (view : View)
  /-- Remove every actor and stop the scheduler. -/
  | stop (manager : Nat)

/-- The system after a call that may be refused. -/
def ActorSystem.after (s : ActorSystem) : Except Error ActorSystem → ActorSystem
  | .ok t => t
  | .error _ => s

/-- The system after a call. -/
def Call.perform (now : Nat) (s : ActorSystem) : Call → ActorSystem
  | .register m name actor delay => s.after (s.register now m name actor delay)
  | .registerSuspended m name actor => s.after ((s.insert m name actor).map Prod.snd)
  | .wake m name delay => s.after (s.wake now m name delay)
  | .remove m name => (s.remove m name).2
  | .request m name delay => s.heedRequest now m name delay
  | .heed m name actor delay view => s.heedView now m name actor delay view
  | .stop m => s.stop m

/-- Whether a call is about a name of a manager. One that stops the manager is about all its
names. -/
def Call.Concerns (m : Nat) (name : String) : Call → Prop
  | .register m' other _ _ | .registerSuspended m' other _ | .wake m' other _ | .remove m' other
  | .request m' other _ | .heed m' other _ _ _ => m' = m ∧ other = name
  | .stop m' => m' = m

/-- From one state of a manager to another, only failures of a name are counted or no longer
counted. -/
structure Manager.Tallies (name : String) (k k' : Manager) : Prop where
  names : k'.names = k.names
  scheduler : k'.scheduler = k.scheduler
  retry : ∀ r, k.retry = some r → ∃ r', k'.retry = some r' ∧ r'.maxFailures = r.maxFailures ∧
    r'.tracker.backoff = r.tracker.backoff ∧
    ∀ other, other ≠ name → r'.tracker.log other = r.tracker.log other

namespace FailureTracker

theorem log_put_self (t : FailureTracker) (name : String) (l : FailureLog) :
    log { t with logs := put name l t.logs } name = l := by
  unfold log
  dsimp only
  induction t.logs with
  | nil => simp [put]
  | cons first rest ih =>
      by_cases here : first.1 = name
      · simp [put, here]
      · simpa [put, here] using ih

theorem log_record_self (t : FailureTracker) (name : String) (now : Int) :
    (t.record name now).2.log name = (t.log name).record t.backoff.window now :=
  t.log_put_self name _

theorem log_put_of_ne (t : FailureTracker) {name other : String} (apart : other ≠ name)
    (l : FailureLog) : log { t with logs := put name l t.logs } other = t.log other := by
  unfold log
  dsimp only
  congr 2
  induction t.logs with
  | nil => simp [put, Ne.symm apart]
  | cons first rest ih =>
      by_cases here : first.1 = name
      · simp [put, here, Ne.symm apart]
      · simp only [put, beq_iff_eq, here, if_false, List.find?_cons, ih]

theorem log_clear_of_ne (t : FailureTracker) {name other : String} (apart : other ≠ name) :
    (t.clear name).log other = t.log other := by
  unfold log clear
  dsimp only
  rw [List.find?_map]
  have names : ((fun l : String × FailureLog => l.1 == other) ∘ fun l : String × FailureLog =>
      if l.1 == name then (l.1, { l.2 with recent := [] }) else l) = fun l => l.1 == other := by
    funext l
    dsimp only [Function.comp]
    split <;> rfl
  rw [names]
  cases found : t.logs.find? fun l => l.1 == other with
  | none => rfl
  | some l =>
      have named : l.1 = other := by simpa using List.find?_some found
      simp [named, apart]

theorem log_forget_of_ne (t : FailureTracker) {name other : String} (apart : other ≠ name) :
    (t.forget name).log other = t.log other := by
  unfold log forget
  rw [List.find?_filter]
  congr 3
  funext l
  by_cases here : l.1 = other
  · simp [here, apart]
  · simp [here]

end FailureTracker

namespace Manager

theorem tallies_succeeded (k : Manager) (name : String) : k.Tallies name (k.succeeded name) where
  names := rfl
  scheduler := rfl
  retry := by
    intro r policy
    refine ⟨_, congrArg (Option.map _) policy, rfl, rfl, fun other apart => ?_⟩
    exact r.tracker.log_clear_of_ne apart

theorem tallies_failed (k : Manager) (name : String) (at_ : Int) :
    k.Tallies name (k.failed name at_).2 := by
  unfold failed
  split
  · next none => exact ⟨rfl, rfl, fun r policy => by rw [none] at policy; cases policy⟩
  · next r policy =>
      refine ⟨rfl, rfl, fun r' same => ?_⟩
      rw [policy] at same
      cases same
      exact ⟨_, rfl, rfl, rfl, fun other apart => r.tracker.log_put_of_ne apart _⟩

end Manager

namespace ActorSystem

/-! ### Changes on behalf of names -/

/-- An elementary change that is made for a name of a manager, one of those that `on` picks
out. -/
inductive Act (on : Nat → String → Prop) : ActorSystem → ActorSystem → Prop
  /-- A firing of the entry of the name is scheduled. -/
  | schedules {s : ActorSystem} {m n : Nat} {e : Entry} (now : Nat) (delay : Duration) :
      s.entry? n = some e → (e.cancelled = false → s.registered? m e.name = some n) →
      on m e.name → Act on s (s.scheduleEntry now m n delay)
  /-- The entry of the name is cancelled. -/
  | cancels {s : ActorSystem} {m n : Nat} {e : Entry} :
      s.entry? n = some e → (e.cancelled = false → s.registered? m e.name = some n) →
      on m e.name → Act on s (s.cancelEntry n)
  /-- The name is forgotten, after its entry has been cancelled. -/
  | forgets {s : ActorSystem} {m n : Nat} {e : Entry} {name : String} :
      s.registered? m name = some n → s.entry? n = some e → e.cancelled = true → on m name →
      Act on s (s.modifyManager m fun k => k.forget name)
  /-- The name gets a new entry. -/
  | enrols {s : ActorSystem} {m : Nat} {name : String} (actor : Nat) :
      s.registered? m name = none → on m name → Act on s (s.enrol m name actor)
  /-- Failures of the name are counted or no longer counted. -/
  | tallies {s : ActorSystem} {m : Nat} {name : String} {f : Manager → Manager} :
      (∀ {k}, s.manager? m = some k → k.Tallies name (f k)) → on m name →
      Act on s (s.modifyManager m f)
  /-- A scheduler stops, which concerns no name. -/
  | stops {s : ActorSystem} (k : Nat) : Act on s (s.stopScheduler k)

/-- Any number of elementary changes for some names. -/
abbrev Acts (on : Nat → String → Prop) : ActorSystem → ActorSystem → Prop :=
  Relation.ReflTransGen (Act on)

variable {on : Nat → String → Prop}

theorem Act.change {s t : ActorSystem} (h : Act on s t) : Change s t := by
  cases h with
  | schedules now delay found leads here => exact .schedules now delay ⟨_, found, leads⟩
  | cancels found leads here => exact .cancels _
  | forgets leads found dead here => exact .forgets leads found dead
  | enrols actor none here => exact .enrols actor none
  | tallies keeps here => exact .tallies fun k => ⟨(keeps k).names, (keeps k).scheduler⟩
  | stops k => exact .stops k

theorem Acts.changes {s t : ActorSystem} (h : Acts on s t) : Changes s t := by
  induction h with
  | refl => exact .refl
  | tail _ last ih => exact ih.tail last.change

/-! ### Registration -/

/-- An actor is registered under its name already, or the name is new. -/
theorem insert_inv {s t : ActorSystem} {m n actor : Nat} {name : String}
    (h : s.insert m name actor = .ok (n, t)) :
    (t = s ∧ s.registered? m name = some n) ∨
      (t = s.enrol m name actor ∧ n = s.entries.length ∧ s.registered? m name = none) := by
  unfold insert at h
  split at h
  · next leads =>
      split at h
      · cases h
        exact .inl ⟨rfl, leads⟩
      · cases h
  · next none =>
      cases h
      exact .inr ⟨rfl, rfl, none⟩

/-- Whoever is registered to be run is registered, and then scheduled. -/
theorem register_inv {s t : ActorSystem} {now m actor : Nat} {name : String} {delay : Int}
    (h : s.register now m name actor delay = .ok t) :
    ∃ n u wait, Duration.ofDelay delay = .ok wait ∧ s.insert m name actor = .ok (n, u) ∧
      t = u.scheduleEntry now m n wait := by
  unfold register at h
  cases d : Duration.ofDelay delay with
  | error e =>
      rw [d] at h
      cases h
  | ok wait =>
      cases inserted : s.insert m name actor with
      | error e =>
          rw [d, inserted] at h
          cases h
      | ok p =>
          rw [d, inserted] at h
          cases h
          exact ⟨p.1, p.2, wait, rfl, rfl, rfl⟩

/-- Whoever is woken is registered. -/
theorem wake_inv {s t : ActorSystem} {now m : Nat} {name : String} {delay : Int}
    (h : s.wake now m name delay = .ok t) :
    ∃ n wait, Duration.ofDelay delay = .ok wait ∧ s.registered? m name = some n ∧
      t = s.scheduleEntry now m n wait := by
  unfold wake at h
  cases d : Duration.ofDelay delay with
  | error e =>
      rw [d] at h
      cases h
  | ok wait =>
      simp only [d, bind, Except.bind] at h
      split at h
      · next n leads =>
          cases h
          exact ⟨n, wait, rfl, leads, rfl⟩
      · cases h

theorem acts_insert {s t : ActorSystem} {m n actor : Nat} {name : String} (here : on m name)
    (h : s.insert m name actor = .ok (n, t)) : Acts on s t := by
  rcases insert_inv h with ⟨rfl, -⟩ | ⟨rfl, -, none⟩
  · exact .refl
  · exact .single (.enrols actor none here)

/-- Whoever has been registered is found under the name, if the manager exists. -/
theorem registered?_insert {s t : ActorSystem} {m n actor : Nat} {name : String}
    (h : s.insert m name actor = .ok (n, t)) (manages : (t.manager? m).isSome) :
    t.registered? m name = some n := by
  rcases insert_inv h with ⟨rfl, leads⟩ | ⟨rfl, rfl, none⟩
  · exact leads
  · have known : (s.manager? m).isSome := by
      rw [enrol, manager?_modifyManager, if_pos rfl, Option.isSome_map] at manages
      exact manages
    rw [registered?_enrol, none, if_pos ⟨rfl, rfl, known⟩, Option.none_or]

theorem scheduleEntry_of_no_manager {s : ActorSystem} {m : Nat} (none : s.manager? m = none)
    (now n : Nat) (delay : Duration) : s.scheduleEntry now m n delay = s := by
  unfold scheduleEntry
  rw [none]
  cases s.entry? n <;> rfl

/-- To schedule a firing is an act for the name that leads to the entry, and it is none if
there is no manager. -/
theorem acts_scheduleEntry {s : ActorSystem} (named : s.Named) {m n : Nat} {name : String}
    (here : on m name) (leads : (s.manager? m).isSome → s.registered? m name = some n)
    (now : Nat) (delay : Duration) : Acts on s (s.scheduleEntry now m n delay) := by
  cases manages : s.manager? m with
  | none =>
      rw [scheduleEntry_of_no_manager manages]
  | some k =>
      have led := leads (by rw [manages]; rfl)
      obtain ⟨e, found, rfl⟩ := named led
      exact .single (.schedules now delay found (fun _ => led) here)

theorem acts_register {s t : ActorSystem} (h : s.Sound) {now m actor : Nat} {name : String}
    {delay : Int} (here : on m name) (result : s.register now m name actor delay = .ok t) :
    Acts on s t := by
  obtain ⟨n, u, wait, -, inserted, rfl⟩ := register_inv result
  -- By the time the first run is scheduled, the name leads to the entry.
  have first := acts_insert here inserted
  exact first.trans (acts_scheduleEntry (h.changes first.changes).named here
    (registered?_insert inserted) now wait)

theorem changes_register {s t : ActorSystem} (h : s.Sound) {now m actor : Nat} {name : String}
    {delay : Int} (result : s.register now m name actor delay = .ok t) : Changes s t := by
  have acts : Acts (fun _ _ => True) s t := acts_register h trivial result
  exact acts.changes

theorem acts_wake {s t : ActorSystem} (h : s.Sound) {now m : Nat} {name : String} {delay : Int}
    (here : on m name) (result : s.wake now m name delay = .ok t) : Acts on s t := by
  obtain ⟨n, wait, -, leads, rfl⟩ := wake_inv result
  exact acts_scheduleEntry h.named here (fun _ => leads) now wait

theorem acts_heedRequest {s : ActorSystem} (h : s.Sound) (now : Nat) {m : Nat} {name : String}
    (here : on m name) (delay : Int) : Acts on s (s.heedRequest now m name delay) := by
  unfold heedRequest
  split
  · next n leads => exact acts_scheduleEntry h.named here (fun _ => leads) now _
  · exact .refl

/-! ### Removal -/

/-- It does not matter whether an entry is cancelled or a manager changed first. -/
theorem cancelEntry_modifyManager (s : ActorSystem) (m n : Nat) (f : Manager → Manager) :
    (s.modifyManager m f).cancelEntry n = (s.cancelEntry n).modifyManager m f := by
  unfold cancelEntry
  rw [entry?_modifyManager]
  cases s.entry? n with
  | none => rfl
  | some e =>
      dsimp only
      cases e.latest <;> rfl

/-- An entry is cancelled, and the name that leads to it is forgotten. -/
theorem acts_cancelEntry_forget {s : ActorSystem} {m n : Nat} {e : Entry}
    (found : s.entry? n = some e) (leads : s.registered? m e.name = some n) (here : on m e.name) :
    Acts on s ((s.cancelEntry n).modifyManager m fun k => k.forget e.name) := by
  have cancels : Act on s (s.cancelEntry n) := .cancels found (fun _ => leads) here
  refine (Relation.ReflTransGen.single cancels).tail
    (.forgets (n := n) (e := e.cancel) ?_ ?_ rfl here)
  · unfold registered? at leads ⊢
    rw [manager?_cancelEntry]
    exact leads
  · rw [entry?_cancelEntry, if_pos rfl, found]
    rfl

theorem acts_remove {s : ActorSystem} (h : s.Sound) {m : Nat} {name : String} (here : on m name) :
    Acts on s (s.remove m name).2 := by
  unfold remove
  split
  · exact .refl
  · next n leads =>
      -- Cancelled first, the entry is never without its name while it lives.
      rw [cancelEntry_modifyManager]
      obtain ⟨e, found, rfl⟩ := h.named leads
      exact acts_cancelEntry_forget found leads here

theorem changes_remove {s : ActorSystem} (h : s.Sound) (m : Nat) (name : String) :
    Changes s (s.remove m name).2 := by
  have acts : Acts (fun _ _ => True) s (s.remove m name).2 := acts_remove h trivial
  exact acts.changes

theorem acts_heedView {s : ActorSystem} (h : s.Sound) (now : Nat) {m : Nat} {name : String}
    (here : on m name) (actor : Nat) (delay : Int) (view : View) :
    Acts on s (s.heedView now m name actor delay view) := by
  unfold heedView
  dsimp only
  split
  · split
    · next result => exact acts_register h here result
    · exact .refl
  · split
    · exact acts_remove h here
    · exact .refl

theorem acts_stop {s : ActorSystem} (h : s.Sound) {m : Nat} (here : ∀ name, on m name) :
    Acts on s (s.stop m) := by
  unfold stop
  split
  · exact .refl
  · next k _ =>
      have removals : ∀ (names : List (String × Nat)) (t : ActorSystem), t.Sound →
          Acts on t (names.foldl (fun t n => (t.remove m n.1).2) t) := by
        intro names
        induction names with
        | nil => exact fun _ _ => .refl
        | cons n rest ih =>
            intro t sound
            have first := acts_remove sound (here n.1)
            exact first.trans (ih _ (sound.changes first.changes))
      exact (removals k.names s h).tail (.stops k.scheduler)

/-- **Every call is made of elementary changes for the names that it concerns.** -/
theorem acts_perform {s : ActorSystem} (h : s.Sound) (now : Nat) (c : Call) :
    Acts (fun m name => c.Concerns m name) s (c.perform now s) := by
  cases c with
  | register m name actor delay =>
      show Acts _ s (s.after (s.register now m name actor delay))
      cases result : s.register now m name actor delay with
      | error e => exact .refl
      | ok t => exact acts_register h ⟨rfl, rfl⟩ result
  | registerSuspended m name actor =>
      show Acts _ s (s.after ((s.insert m name actor).map Prod.snd))
      cases result : s.insert m name actor with
      | error e => exact .refl
      | ok p => exact acts_insert ⟨rfl, rfl⟩ result
  | wake m name delay =>
      show Acts _ s (s.after (s.wake now m name delay))
      cases result : s.wake now m name delay with
      | error e => exact .refl
      | ok t => exact acts_wake h ⟨rfl, rfl⟩ result
  | remove m name => exact acts_remove h ⟨rfl, rfl⟩
  | request m name delay => exact acts_heedRequest h now ⟨rfl, rfl⟩ delay
  | heed m name actor delay view => exact acts_heedView h now ⟨rfl, rfl⟩ actor delay view
  | stop m => exact acts_stop h fun _ => rfl

/-- **Every call is made of elementary changes.** -/
theorem changes_perform {s : ActorSystem} (h : s.Sound) (now : Nat) (c : Call) :
    Changes s (c.perform now s) :=
  (acts_perform h now c).changes

/-! ### The end of a run -/

/-- A run that is done for good cancels its entry, and has the name forgotten if it is
still that of the entry. -/
theorem acts_done {s : ActorSystem} {m n : Nat} {e : Entry} (found : s.entry? n = some e)
    (leads : e.cancelled = false → s.registered? m e.name = some n) (here : on m e.name) :
    Acts on s (if (s.cancelEntry n).registered? m e.name == some n then
      (s.cancelEntry n).modifyManager m fun k => k.forget e.name else s.cancelEntry n) := by
  split
  · next led =>
      refine acts_cancelEntry_forget found ?_ here
      unfold registered? at led ⊢
      rw [manager?_cancelEntry] at led
      simpa using led
  · exact .single (.cancels found leads here)

/-- **The end of a run is made of elementary changes for the name of its actor.** -/
theorem acts_conclude {s : ActorSystem} {m n : Nat} {e : Entry} (found : s.entry? n = some e)
    (leads : e.cancelled = false → s.registered? m e.name = some n) (here : on m e.name) (now : Nat)
    (at_ : Int) (result : RunResult) : Acts on s (s.conclude now m n at_ result) := by
  unfold conclude
  rw [found]
  -- Whatever is counted, the name leads where it led.
  have tallied : ∀ {f : Manager → Manager},
      (∀ {k}, s.manager? m = some k → k.Tallies e.name (f k)) →
      Acts on s (s.modifyManager m f) ∧
        (e.cancelled = false → (s.modifyManager m f).registered? m e.name = some n) := by
    intro f keeps
    refine ⟨.single (.tallies keeps here), fun alive => ?_⟩
    exact (registered?_modifyManager (fun k => (keeps k).names) m e.name).trans (leads alive)
  have forgiven := tallied fun {k} _ => k.tallies_succeeded e.name
  cases result with
  | reschedule delay => exact forgiven.1.tail (.schedules now delay found forgiven.2 here)
  | suspended => exact forgiven.1
  | done => exact forgiven.1.trans (acts_done found forgiven.2 here)
  | failed =>
      dsimp only
      split
      · exact .refl
      · next k manages =>
          have counted := tallied (f := fun _ => (k.failed e.name at_).2) fun same => by
            rw [manages] at same
            cases same
            exact k.tallies_failed e.name at_
          split
          · exact counted.1.tail (.schedules now _ found counted.2 here)
          · exact counted.1

/-- **The end of a run is made of elementary changes.** -/
theorem changes_conclude {s : ActorSystem} {m n : Nat} (owns : s.Owns m n) (now : Nat) (at_ : Int)
    (result : RunResult) : Changes s (s.conclude now m n at_ result) := by
  obtain ⟨e, found, leads⟩ := owns
  have acts : Acts (fun _ _ => True) s (s.conclude now m n at_ result) :=
    acts_conclude found leads trivial now at_ result
  exact acts.changes

end ActorSystem

end RecurringWork
