import Mathlib.Logic.Relation
import RecurringWork.Proofs.Actor.Tables

/-!
# RecurringWork.Proofs.Actor.Change

**What calls and runs can do to an actor system, in elementary changes.** A call of a
manager and the end of a run do several things at once. Each of them is a `Change`: a
firing is scheduled for an entry that its manager owns, an entry is cancelled, a name is
forgotten whose entry is cancelled, a new name gets a new entry, failures are counted,
or a scheduler stops. What is kept by these is kept by everything that is made of them
(`changes_perform`, `changes_conclude`).

A manager *owns* an entry if the name of the entry leads to it, unless the entry is
cancelled (`ActorSystem.Owns`). Firings are scheduled for owned entries only, and an
entry that was owned once stays so.
-/

namespace RecurringWork

/-- What may be done to an entry from outside. -/
inductive Entry.Touched (e : Entry) : Entry → Prop
  | same : Touched e e
  /-- A firing is scheduled. -/
  | scheduled (r : JobRef) : Touched e { e with latest := some r }
  | cancelled : Touched e e.cancel

theorem Entry.Touched.name {e e' : Entry} (h : e.Touched e') : e'.name = e.name := by
  cases h <;> rfl

theorem Entry.Touched.actor {e e' : Entry} (h : e.Touched e') : e'.actor = e.actor := by
  cases h <;> rfl

/-- An entry does not come back once it is cancelled. -/
theorem Entry.Touched.dead {e e' : Entry} (h : e.Touched e') (dead : e.cancelled = true) :
    e'.cancelled = true := by
  cases h with
  | same => exact dead
  | scheduled => exact dead
  | cancelled => rfl

namespace Manager

/-- A name that is forgotten leads nowhere, and the others lead where they did. -/
theorem entry?_forget (m : Manager) (name other : String) :
    entry? (m.forget name) other = if name = other then none else m.entry? other := by
  unfold entry? forget
  rw [List.find?_filter]
  by_cases same : name = other
  · subst same
    rw [if_pos rfl, Option.map_eq_none_iff, List.find?_eq_none]
    simp
  · rw [if_neg same]
    congr 2
    funext n
    by_cases h : n.1 = other
    · simp [h, Ne.symm same]
    · simp [h]

/-- A name that is added leads to its entry, if it led nowhere before. -/
theorem entry?_append (m : Manager) (name : String) (n : Nat) (other : String) :
    entry? { m with names := m.names ++ [(name, n)] } other =
      (m.entry? other).or (if name = other then some n else none) := by
  unfold entry?
  rw [List.find?_append]
  cases m.names.find? fun n => n.1 == other with
  | some found => rfl
  | none =>
      by_cases same : name = other
      · simp [same]
      · simp [same]

end Manager

namespace ActorSystem

/-! ### Names -/

theorem registered?_forget (s : ActorSystem) (m : Nat) (name : String) (other : Nat)
    (key : String) : (s.modifyManager m fun k => k.forget name).registered? other key =
      if m = other ∧ name = key then none else s.registered? other key := by
  unfold registered?
  rw [manager?_modifyManager]
  by_cases here : m = other
  · subst here
    rw [if_pos rfl]
    cases s.manager? m with
    | none => exact (ite_self _).symm
    | some k =>
        show Manager.entry? (k.forget name) key = _
        rw [Manager.entry?_forget]
        by_cases same : name = key
        · rw [if_pos same, if_pos ⟨rfl, same⟩]
        · rw [if_neg same, if_neg (fun h => same h.2)]
          rfl
  · rw [if_neg here, if_neg (fun h => here h.1)]

/-- What keeps the names of a manager keeps where they lead. -/
theorem registered?_modifyManager {s : ActorSystem} {m : Nat} {f : Manager → Manager}
    (keeps : ∀ {k}, s.manager? m = some k → (f k).names = k.names) (other : Nat) (key : String) :
    (s.modifyManager m f).registered? other key = s.registered? other key := by
  unfold registered?
  rw [manager?_modifyManager]
  split
  · next here =>
      subst here
      cases manages : s.manager? m with
      | none => rfl
      | some k =>
          show Manager.entry? (f k) key = k.entry? key
          unfold Manager.entry?
          rw [keeps manages]
  · rfl

/-- The system with a name that leads to a new entry. -/
def enrol (s : ActorSystem) (m : Nat) (name : String) (actor : Nat) : ActorSystem :=
  ({ s with entries := s.entries ++ [Entry.ofActor name actor] } : ActorSystem).modifyManager m
    fun k => { k with names := k.names ++ [(name, s.entries.length)] }

theorem registered?_enrol (s : ActorSystem) (m : Nat) (name : String) (actor other : Nat)
    (key : String) : (s.enrol m name actor).registered? other key =
      (s.registered? other key).or
        (if m = other ∧ name = key ∧ (s.manager? m).isSome then some s.entries.length
          else none) := by
  unfold registered? enrol
  rw [manager?_modifyManager]
  show Option.bind (if m = other then (s.manager? other).map _ else s.manager? other) _ = _
  by_cases here : m = other
  · subst here
    rw [if_pos rfl]
    cases s.manager? m with
    | none => simp
    | some k =>
        show Manager.entry? { k with names := k.names ++ [(name, s.entries.length)] } key = _
        rw [Manager.entry?_append]
        by_cases same : name = key
        · simp [same]
        · simp [same]
  · simp [here]

theorem entry?_enrol (s : ActorSystem) (m : Nat) (name : String) (actor n : Nat) :
    entry? (s.enrol m name actor) n =
      if n = s.entries.length then some (.ofActor name actor) else s.entry? n := by
  show (s.entries ++ [Entry.ofActor name actor])[n]? = _
  by_cases h : n = s.entries.length
  · subst h
    simp
  · rw [if_neg h]
    by_cases lower : n < s.entries.length
    · rw [List.getElem?_append_left lower]
      rfl
    · rw [List.getElem?_eq_none (by simp; omega), entry?, List.getElem?_eq_none (by omega)]

/-! ### Elementary changes -/

/-- The name of an entry leads to it, unless the entry is cancelled. -/
def Owns (s : ActorSystem) (m n : Nat) : Prop :=
  ∃ e, s.entry? n = some e ∧ (e.cancelled = false → s.registered? m e.name = some n)

/-- One thing that a call of a manager or the end of a run does. -/
inductive Change : ActorSystem → ActorSystem → Prop
  /-- A firing is scheduled. -/
  | schedules {s : ActorSystem} {m n : Nat} (now : Nat) (delay : Duration) :
      s.Owns m n → Change s (s.scheduleEntry now m n delay)
  /-- An entry is cancelled. -/
  | cancels {s : ActorSystem} (n : Nat) : Change s (s.cancelEntry n)
  /-- The name of a cancelled entry is forgotten. -/
  | forgets {s : ActorSystem} {m n : Nat} {e : Entry} {name : String} :
      s.registered? m name = some n → s.entry? n = some e → e.cancelled = true →
      Change s (s.modifyManager m fun k => k.forget name)
  /-- A new name gets a new entry. -/
  | enrols {s : ActorSystem} {m : Nat} {name : String} (actor : Nat) :
      s.registered? m name = none → Change s (s.enrol m name actor)
  /-- Failures are counted or forgotten. -/
  | tallies {s : ActorSystem} {m : Nat} {f : Manager → Manager} :
      (∀ {k}, s.manager? m = some k → (f k).names = k.names ∧ (f k).scheduler = k.scheduler) →
      Change s (s.modifyManager m f)
  /-- A scheduler stops. -/
  | stops {s : ActorSystem} (k : Nat) : Change s (s.stopScheduler k)

/-- Any number of elementary changes. -/
abbrev Changes : ActorSystem → ActorSystem → Prop := Relation.ReflTransGen Change

/-- **A change touches an entry, if at all, from outside.** -/
theorem Change.entry {s t : ActorSystem} (c : Change s t) {n : Nat} {e : Entry}
    (found : s.entry? n = some e) : ∃ e', t.entry? n = some e' ∧ e.Touched e' := by
  cases c with
  | schedules now delay owns =>
      rcases s.entry?_scheduleEntry now _ _ delay n with same | ⟨e', r, here, changed⟩
      · exact ⟨e, same.trans found, .same⟩
      · rw [found] at here
        cases here
        exact ⟨_, changed, .scheduled r⟩
  | cancels m =>
      rw [entry?_cancelEntry, found]
      by_cases here : m = n
      · rw [if_pos here]
        exact ⟨e.cancel, rfl, .cancelled⟩
      · rw [if_neg here]
        exact ⟨e, rfl, .same⟩
  | forgets => exact ⟨e, found, .same⟩
  | enrols actor =>
      have lower : n < s.entries.length := (List.getElem?_eq_some_iff.mp found).1
      rw [entry?_enrol, if_neg (by omega)]
      exact ⟨e, found, .same⟩
  | tallies => exact ⟨e, found, .same⟩
  | stops => exact ⟨e, found, .same⟩

/-- An entry that was not there is fresh. -/
theorem Change.fresh {s t : ActorSystem} (c : Change s t) {n : Nat} {e : Entry}
    (found : t.entry? n = some e) (new : s.entry? n = none) :
    ∃ name actor, e = .ofActor name actor := by
  cases c with
  | schedules now delay owns =>
      rcases s.entry?_scheduleEntry now _ _ delay n with same | ⟨_, _, here, -⟩
      · rw [same, new] at found
        cases found
      · rw [new] at here
        cases here
  | cancels m =>
      rw [entry?_cancelEntry, new] at found
      split at found <;> cases found
  | forgets => exact absurd (new.symm.trans found) (by simp)
  | enrols actor =>
      rw [entry?_enrol] at found
      split at found
      · cases found
        exact ⟨_, _, rfl⟩
      · exact absurd (new.symm.trans found) (by simp)
  | tallies => exact absurd (new.symm.trans found) (by simp)
  | stops => exact absurd (new.symm.trans found) (by simp)

/-- A name leads where it led, unless the entry there is cancelled by now. -/
theorem Change.registered {s t : ActorSystem} (c : Change s t) {m n : Nat} {name : String}
    (leads : s.registered? m name = some n) :
    t.registered? m name = some n ∨ ∃ e, t.entry? n = some e ∧ e.cancelled = true := by
  cases c with
  | schedules now delay owns =>
      refine .inl ?_
      unfold registered? at leads ⊢
      rw [manager?_scheduleEntry]
      exact leads
  | cancels k =>
      refine .inl ?_
      unfold registered? at leads ⊢
      rw [manager?_cancelEntry]
      exact leads
  | @forgets m' n' e key led found dead =>
      rw [registered?_forget]
      by_cases same : m' = m ∧ key = name
      · -- A name is forgotten only after its entry has been cancelled.
        obtain ⟨rfl, rfl⟩ := same
        rw [led] at leads
        cases leads
        exact .inr ⟨e, found, dead⟩
      · rw [if_neg same]
        exact .inl leads
  | enrols actor =>
      rw [registered?_enrol, leads]
      exact .inl rfl
  | tallies keeps =>
      rw [registered?_modifyManager fun manages => (keeps manages).1]
      exact .inl leads
  | stops => exact .inl leads

/-- Where a name leads, it led before, unless the entry there is new. -/
theorem Change.led {s t : ActorSystem} (c : Change s t) {m n : Nat} {name : String}
    (leads : t.registered? m name = some n) :
    s.registered? m name = some n ∨ s.entry? n = none := by
  cases c with
  | schedules now delay owns =>
      rw [registered?, manager?_scheduleEntry] at leads
      exact .inl leads
  | cancels k =>
      rw [registered?, manager?_cancelEntry] at leads
      exact .inl leads
  | forgets =>
      rw [registered?_forget] at leads
      split at leads
      · cases leads
      · exact .inl leads
  | enrols actor =>
      rw [registered?_enrol, Option.or_eq_some_iff] at leads
      rcases leads with led | ⟨-, added⟩
      · exact .inl led
      · split at added
        · cases added
          exact .inr (List.getElem?_eq_none (Nat.le_refl _))
        · cases added
  | tallies keeps =>
      rw [registered?_modifyManager fun manages => (keeps manages).1] at leads
      exact .inl leads
  | stops => exact .inl leads

/-- **What a manager owns it owns from then on.** -/
theorem Owns.change {s t : ActorSystem} {m n : Nat} (h : s.Owns m n) (c : Change s t) :
    t.Owns m n := by
  obtain ⟨e, found, leads⟩ := h
  obtain ⟨e', found', touched⟩ := c.entry found
  refine ⟨e', found', fun live => ?_⟩
  -- An entry that lives now has lived before, so its name has led to it all the while.
  have alive : e.cancelled = false := by
    cases dead : e.cancelled with
    | false => rfl
    | true =>
        rw [touched.dead dead] at live
        cases live
  rcases c.registered (leads alive) with still | ⟨d, here, dead⟩
  · rw [touched.name]
    exact still
  · rw [found'] at here
    cases here
    rw [live] at dead
    cases dead

/-- A name of a manager leads to an entry of that name. -/
def Named (s : ActorSystem) : Prop :=
  ∀ {m n : Nat} {name : String}, s.registered? m name = some n →
    ∃ e, s.entry? n = some e ∧ e.name = name

theorem Named.change {s t : ActorSystem} (h : s.Named) (c : Change s t) : t.Named := by
  intro m n name leads
  have old : s.registered? m name = some n → ∃ e, t.entry? n = some e ∧ e.name = name := by
    intro led
    obtain ⟨e, found, named⟩ := h led
    obtain ⟨e', found', touched⟩ := c.entry found
    exact ⟨e', found', touched.name.trans named⟩
  cases c with
  | schedules now delay owns =>
      unfold registered? at leads
      rw [manager?_scheduleEntry] at leads
      exact old leads
  | cancels k =>
      unfold registered? at leads
      rw [manager?_cancelEntry] at leads
      exact old leads
  | forgets =>
      rw [registered?_forget] at leads
      split at leads
      · cases leads
      · exact old leads
  | @enrols m' key actor none =>
      rw [registered?_enrol, Option.or_eq_some_iff] at leads
      rcases leads with led | ⟨-, added⟩
      · exact old led
      · split at added
        · next same =>
            obtain ⟨rfl, rfl, -⟩ := same
            cases added
            exact ⟨_, by rw [entry?_enrol, if_pos rfl], rfl⟩
        · cases added
  | tallies keeps =>
      rw [registered?_modifyManager fun manages => (keeps manages).1] at leads
      exact old leads
  | stops => exact old leads

/-! ### Jobs -/

theorem Numbered.change {s t : ActorSystem} (h : s.Numbered) (c : Change s t) : t.Numbered := by
  cases c with
  | schedules now delay owns => exact h.scheduleEntry now _ _ delay
  | cancels n => exact h.cancelEntry n
  | forgets => exact h
  | enrols => exact h
  | tallies => exact h
  | stops k => exact h.stopScheduler k

/-- **A job stays what it is, but for being cancelled.** -/
theorem Change.job {s t : ActorSystem} (c : Change s t) (h : s.Numbered) {r : JobRef}
    {j : Job Duty} (found : s.job? r = some j) :
    ∃ j', t.job? r = some j' ∧ j'.duty = j.duty ∧ j'.phase = j.phase := by
  cases c with
  | schedules now delay owns =>
      rcases job?_scheduleEntry h now _ _ delay r with same | ⟨none, -⟩
      · exact ⟨j, same.trans found, rfl, rfl⟩
      · rw [found] at none
        cases none
  | cancels n =>
      rcases s.job?_cancelEntry n r with same | same
      · exact ⟨j, same.trans found, rfl, rfl⟩
      · rw [found] at same
        exact ⟨_, same, rfl, rfl⟩
  | forgets => exact ⟨j, found, rfl, rfl⟩
  | enrols => exact ⟨j, found, rfl, rfl⟩
  | tallies => exact ⟨j, found, rfl, rfl⟩
  | stops k => exact ⟨j, (s.job?_stopScheduler k r).trans found, rfl, rfl⟩

/-- **A job that was not there waits, and fires an entry that its manager owns.** -/
theorem Change.job_new {s t : ActorSystem} (c : Change s t) (h : s.Numbered) {r : JobRef}
    {j : Job Duty} (found : t.job? r = some j) (new : s.job? r = none) :
    j.phase = .waiting ∧ ∃ m n, j.duty = .firing m n ∧ s.Owns m n := by
  cases c with
  | @schedules m n now delay owns =>
      rcases job?_scheduleEntry h now m n delay r with same | ⟨-, j', here, does, waits⟩
      · rw [same, new] at found
        cases found
      · rw [here] at found
        cases found
        exact ⟨waits, m, n, does, owns⟩
  | cancels n =>
      rcases s.job?_cancelEntry n r with same | same
      · rw [same, new] at found
        cases found
      · rw [same, new] at found
        cases found
  | forgets => exact absurd (new.symm.trans found) (by simp)
  | enrols => exact absurd (new.symm.trans found) (by simp)
  | tallies => exact absurd (new.symm.trans found) (by simp)
  | stops k =>
      rw [job?_stopScheduler, new] at found
      cases found

/-- **A job that was not there fires an entry that is not cancelled.** -/
theorem Change.alive_of_new {s t : ActorSystem} (c : Change s t) {r : JobRef} {j : Job Duty}
    {m n : Nat} (h : s.Numbered) (found : t.job? r = some j) (new : s.job? r = none)
    (does : j.duty = .firing m n) : ∃ e, s.entry? n = some e ∧ e.cancelled = false := by
  cases c with
  | @schedules m' n' now delay owns =>
      rcases job?_scheduleEntry h now m' n' delay r with same | ⟨-, j', here, fires, -⟩
      · rw [same, new] at found
        cases found
      · rw [here] at found
        cases found
        rw [fires] at does
        cases does
        rcases s.scheduleEntry_cases now m n delay with same | ⟨e, -, exists_, alive, -⟩
        · rw [same, new] at here
          cases here
        · exact ⟨e, exists_, alive⟩
  | cancels k =>
      rcases s.job?_cancelEntry k r with same | same <;> rw [same, new] at found <;> cases found
  | forgets => exact absurd (new.symm.trans found) (by simp)
  | enrols => exact absurd (new.symm.trans found) (by simp)
  | tallies => exact absurd (new.symm.trans found) (by simp)
  | stops k =>
      rw [job?_stopScheduler, new] at found
      cases found

/-! ### What every system keeps -/

/-- Names lead to entries of that name, jobs have numbers of their own, and whatever is
to be fired is owned. -/
structure Sound (s : ActorSystem) : Prop where
  numbered : s.Numbered
  named : s.Named
  owned : ∀ {r : JobRef} {j : Job Duty} {m n : Nat}, s.job? r = some j → j.duty = .firing m n →
    s.Owns m n

theorem Sound.change {s t : ActorSystem} (h : s.Sound) (c : Change s t) : t.Sound where
  numbered := h.numbered.change c
  named := Named.change h.named c
  owned := by
    intro r j m n found does
    cases before : s.job? r with
    | some i =>
        obtain ⟨j', here, same, -⟩ := c.job h.numbered before
        rw [found] at here
        cases here
        exact (h.owned before (same ▸ does)).change c
    | none =>
        obtain ⟨-, m', n', does', owns⟩ := c.job_new h.numbered found before
        rw [does] at does'
        cases does'
        exact owns.change c

theorem Sound.changes {s t : ActorSystem} (h : s.Sound) (c : Changes s t) : t.Sound := by
  induction c with
  | refl => exact h
  | tail _ last ih => exact ih.change last

theorem Changes.job {s t : ActorSystem} (c : Changes s t) (h : s.Sound) {r : JobRef}
    {j : Job Duty} (found : s.job? r = some j) :
    ∃ j', t.job? r = some j' ∧ j'.duty = j.duty ∧ j'.phase = j.phase := by
  induction c with
  | refl => exact ⟨j, found, rfl, rfl⟩
  | tail before last ih =>
      obtain ⟨j', here, same, phase⟩ := ih
      obtain ⟨j'', there, same', phase'⟩ := last.job (h.changes before).numbered here
      exact ⟨j'', there, same'.trans same, phase'.trans phase⟩

/-! ### What firings do -/

/-- The systems differ in the locks of entries, in the phases of jobs and in who has
been told, and in nothing else. -/
structure Alike (s t : ActorSystem) : Prop where
  numbered : s.Numbered → t.Numbered
  manager : ∀ m, t.manager? m = s.manager? m
  core : ∀ n, (t.entry? n).map Entry.core = (s.entry? n).map Entry.core
  duty : ∀ r, (t.job? r).map Job.duty = (s.job? r).map Job.duty

theorem Alike.refl (s : ActorSystem) : s.Alike s := ⟨id, fun _ => rfl, fun _ => rfl, fun _ => rfl⟩

theorem Alike.trans {s t u : ActorSystem} (first : s.Alike t) (second : t.Alike u) :
    s.Alike u where
  numbered := second.numbered ∘ first.numbered
  manager := fun m => (second.manager m).trans (first.manager m)
  core := fun n => (second.core n).trans (first.core n)
  duty := fun r => (second.duty r).trans (first.duty r)

theorem Alike.entry {s t : ActorSystem} (h : s.Alike t) {n : Nat} {e : Entry}
    (found : s.entry? n = some e) : ∃ e', t.entry? n = some e' ∧ e'.core = e.core := by
  have same := h.core n
  rw [found] at same
  cases after : t.entry? n with
  | none =>
      rw [after] at same
      cases same
  | some e' =>
      rw [after] at same
      exact ⟨e', rfl, Option.some.inj same⟩

theorem Alike.registered {s t : ActorSystem} (h : s.Alike t) (m : Nat) (name : String) :
    t.registered? m name = s.registered? m name := by
  unfold registered?
  rw [h.manager]

theorem Owns.alike {s t : ActorSystem} {m n : Nat} (owns : s.Owns m n) (h : s.Alike t) :
    t.Owns m n := by
  obtain ⟨e, found, leads⟩ := owns
  obtain ⟨e', found', core⟩ := h.entry found
  refine ⟨e', found', fun live => ?_⟩
  rw [h.registered, Entry.name_eq_of_core core]
  exact leads (Entry.cancelled_eq_of_core core ▸ live)

theorem Sound.alike {s t : ActorSystem} (h : s.Sound) (a : s.Alike t) : t.Sound where
  numbered := a.numbered h.numbered
  named := by
    intro m n name leads
    rw [a.registered] at leads
    obtain ⟨e, found, named⟩ := h.named leads
    obtain ⟨e', found', core⟩ := a.entry found
    exact ⟨e', found', (Entry.name_eq_of_core core).trans named⟩
  owned := by
    intro r j m n found does
    have same := a.duty r
    rw [found] at same
    cases before : s.job? r with
    | none =>
        rw [before] at same
        cases same
    | some i =>
        rw [before] at same
        exact (h.owned before ((Option.some.inj same).symm.trans does)).alike a

theorem alike_modifyJob {s : ActorSystem} {r : JobRef} {f : Job Duty → Job Duty}
    (number : ∀ j, (f j).number = j.number) (duty : ∀ j, (f j).duty = j.duty) :
    s.Alike (s.modifyScheduler r.scheduler fun c => c.modify r.number f) where
  numbered := fun h => Numbered.modifyScheduler h ((h r.scheduler).modify number)
  manager := fun _ => rfl
  core := fun _ => rfl
  duty := by
    intro q
    rw [job?_modifyScheduler_modify number]
    split
    · cases s.job? q with
      | none => rfl
      | some j => exact congrArg some (duty j)
    · rfl

theorem alike_finishJob (s : ActorSystem) (r : JobRef) : s.Alike (s.finishJob r) :=
  alike_modifyJob (fun _ => rfl) fun _ => rfl

theorem alike_attend_begin {s t : ActorSystem} {now : Nat} {r : JobRef} {duty : Duty}
    (h : s.attend now r = (.begin duty, t)) : s.Alike t := by
  obtain ⟨-, rfl⟩ := attend_begin_inv h
  exact alike_modifyJob (fun _ => rfl) fun _ => rfl

/-- A move on an entry concerns the lock only. -/
theorem alike_moved {s : ActorSystem} {n : Nat} {e d : Entry} (found : s.entry? n = some e)
    (core : d.core = e.core) (jobs : List JobRef) :
    s.Alike ((s.modifyEntry n fun _ => d).alert jobs) where
  numbered := id
  manager := fun _ => rfl
  core := by
    intro m
    rw [entry?_alert, entry?_modifyEntry]
    split
    · next same =>
        rw [← same, found]
        exact congrArg some core
    · rfl
  duty := fun _ => rfl

theorem alike_move (s : ActorSystem) (n : Nat) {f : Entry → Move}
    (core : ∀ e, (f e).entry.core = e.core) : s.Alike (s.move n f).2 := by
  cases found : s.entry? n with
  | none =>
      rw [move, found]
      exact .refl s
  | some e =>
      rw [move_of_found found]
      exact alike_moved found (core e) _

theorem alike_leave (s : ActorSystem) (n : Nat) : s.Alike (s.leave n) := by
  cases found : s.entry? n with
  | none =>
      rw [leave, found]
      exact .refl s
  | some e =>
      rw [leave_of_found found]
      exact alike_moved found e.core_leave _

/-- What is left to do at the end of a run concerns its lock and its job. -/
theorem alike_over (s : ActorSystem) (i : Nat) (r : JobRef) : s.Alike ((s.leave i).finishJob r) :=
  (s.alike_leave i).trans (alike_finishJob _ r)

end ActorSystem

end RecurringWork
