import RecurringWork.Proofs.Actor.Coming
import RecurringWork.Proofs.Actor.Fleet

/-!
# RecurringWork.Proofs.Actor.Tenancy

**A name that is left to its actor.** A name of a manager is free, or it leads to an entry that
lives (`ActorSystem.Tenure`); if the manager has a retry policy, failures are counted for the
name as well (`ActorSystem.Tenancy`). As long as nobody calls for that name, this stays so, the
failures that count for it stay the same, and no firing of its entry is scheduled
(`Tenancy.acts`): what is done for other names goes to other entries, for the entry has no other
name. Firings by themselves schedule nothing either (`Fleet.Moves.ebbs`).
-/

namespace RecurringWork

/-- How long a failure counts. -/
def RetryPolicy.window (p : RetryPolicy) : Duration := .ofMillis p.failureWindow

namespace ActorSystem

variable {on : Nat → String → Prop} {s t u : ActorSystem} {m n : Nat} {name : String}

/-! ### Firings that are not over -/

/-- A firing of an entry waits for its time or is under way. -/
def Pending (s : ActorSystem) (n : Nat) (r : JobRef) : Prop :=
  ∃ j m, s.job? r = some j ∧ j.duty = .firing m n ∧ j.phase ≠ .ended

/-- No firing is added, and none that is over comes back. -/
def Ebbs (s t : ActorSystem) : Prop := ∀ n r, t.Pending n r → s.Pending n r

theorem Ebbs.refl (s : ActorSystem) : s.Ebbs s := fun _ _ => id

theorem Ebbs.trans (first : s.Ebbs t) (second : t.Ebbs u) : s.Ebbs u :=
  fun n r h => first n r (second n r h)

theorem ebbs_of_job? (same : ∀ r, t.job? r = s.job? r) : s.Ebbs t := by
  rintro n r ⟨j, m, found, rest⟩
  exact ⟨j, m, (same r).symm.trans found, rest⟩

/-- A firing that is over does not count any more, and the others are as before. -/
theorem pending_finishJob {r q : JobRef} (h : (s.finishJob r).Pending n q) :
    s.Pending n q ∧ q ≠ r := by
  obtain ⟨j, m, found, does, open_⟩ := h
  rw [job?_finishJob] at found
  split at found
  · obtain ⟨i, -, rfl⟩ := Option.map_eq_some_iff.mp found
    exact absurd rfl open_
  · next other => exact ⟨⟨j, m, found, does, open_⟩, other⟩

theorem ebbs_finishJob (s : ActorSystem) (r : JobRef) : s.Ebbs (s.finishJob r) :=
  fun _ _ h => (pending_finishJob h).1

theorem ebbs_attend_begin {now : Nat} {r : JobRef} {duty : Duty}
    (h : s.attend now r = (.begin duty, t)) : s.Ebbs t := by
  rintro n q ⟨j, m, found, does, open_⟩
  rw [job?_attend_begin h] at found
  split at found
  · next same =>
      obtain ⟨⟨i, here, waits, -⟩, -⟩ := attend_begin_inv h
      rw [same, here] at found
      obtain rfl := Option.some.inj found
      exact ⟨i, m, same ▸ here, does, by rw [waits]; simp⟩
  · exact ⟨j, m, found, does, open_⟩

theorem ebbs_move (s : ActorSystem) (n : Nat) (f : Entry → Move) : s.Ebbs (s.move n f).2 := by
  refine ebbs_of_job? fun r => ?_
  unfold move
  split <;> rfl

theorem ebbs_leave (s : ActorSystem) (n : Nat) : s.Ebbs (s.leave n) := by
  refine ebbs_of_job? fun r => ?_
  unfold leave
  split <;> rfl

/-! ### What is done for other names -/

/-- What a manager has counted for a name, under a retry policy. -/
def Books (p : RetryPolicy) (m : Nat) (name : String) (recent : List Int) (s : ActorSystem) :
    Prop :=
  ∃ k r, s.manager? m = some k ∧ k.retry = some r ∧ r.maxFailures = p.maxFailures ∧
    r.tracker.backoff = .ofPolicy p ∧ (r.tracker.log name).recent = recent

/-- What is done for other names leaves a name where it leads. -/
theorem Act.registered? (a : Act on s t) (apart : ¬on m name) :
    t.registered? m name = s.registered? m name := by
  have other : ∀ {m' : Nat} {key : String}, on m' key → ¬(m' = m ∧ key = name) := by
    rintro m' key here ⟨rfl, rfl⟩
    exact apart here
  cases a with
  | schedules now delay found leads here =>
      rw [ActorSystem.registered?, manager?_scheduleEntry, ← ActorSystem.registered?]
  | cancels found leads here =>
      rw [ActorSystem.registered?, manager?_cancelEntry, ← ActorSystem.registered?]
  | forgets leads found dead here => rw [registered?_forget, if_neg (other here)]
  | enrols actor none here =>
      rw [registered?_enrol, if_neg fun same => other here ⟨same.1, same.2.1⟩, Option.or_none]
  | tallies keeps here => exact registered?_modifyManager (fun k => (keeps k).names) m name
  | stops k => rfl

/-- What is done for other names is not counted for a name. -/
theorem Books.act {p : RetryPolicy} {recent : List Int} (h : Books p m name recent s)
    (a : Act on s t) (apart : ¬on m name) : Books p m name recent t := by
  obtain ⟨k, r, manages, policy, most, backoff, counted⟩ := h
  have kept : (∀ i, t.manager? i = s.manager? i) → Books p m name recent t := fun same =>
    ⟨k, r, (same m).trans manages, policy, most, backoff, counted⟩
  cases a with
  | schedules now delay found leads here => exact kept (manager?_scheduleEntry s now _ _ delay)
  | cancels found leads here => exact kept (s.manager?_cancelEntry _)
  | @forgets m' n e key leads found dead here =>
      unfold Books
      rw [manager?_modifyManager]
      split
      · next same =>
          subst same
          rw [manages]
          have other : name ≠ key := fun same => apart (same ▸ here)
          refine ⟨_, { r with tracker := r.tracker.forget key }, rfl,
            congrArg (Option.map _) policy, most, backoff, ?_⟩
          rw [← counted]
          exact congrArg FailureLog.recent (r.tracker.log_forget_of_ne other)
      · exact ⟨k, r, manages, policy, most, backoff, counted⟩
  | @enrols m' key actor none here =>
      unfold Books enrol
      rw [manager?_modifyManager]
      split
      · exact ⟨_, r, congrArg (Option.map _) manages, policy, most, backoff, counted⟩
      · exact ⟨k, r, manages, policy, most, backoff, counted⟩
  | @tallies m' key f keeps here =>
      unfold Books
      rw [manager?_modifyManager]
      split
      · next same =>
          subst same
          have other : name ≠ key := fun same => apart (same ▸ here)
          obtain ⟨r', policy', most', backoff', logs⟩ := (keeps manages).retry r policy
          refine ⟨f k, r', congrArg (Option.map f) manages, policy', most'.trans most,
            backoff'.trans backoff, ?_⟩
          rw [logs name other]
          exact counted
      · exact ⟨k, r, manages, policy, most, backoff, counted⟩
  | stops c => exact kept fun _ => rfl

/-- A live entry stays alive unless something is done for its name. -/
theorem Act.survives {e : Entry} (a : Act on s t) (found : s.entry? n = some e)
    (alive : e.cancelled = false) (safe : ∀ m, s.registered? m e.name = some n → ¬on m e.name) :
    ∃ e', t.entry? n = some e' ∧ e'.cancelled = false := by
  cases a with
  | @schedules m k d now delay here leads on_ =>
      rcases s.entry?_scheduleEntry now m k delay n with same | ⟨e', r, there, changed⟩
      · exact ⟨e, same.trans found, alive⟩
      · rw [found] at there
        cases there
        exact ⟨_, changed, alive⟩
  | @cancels m k d here leads on_ =>
      rw [entry?_cancelEntry]
      by_cases same : k = n
      · subst same
        rw [found] at here
        cases here
        exact absurd on_ (safe m (leads alive))
      · rw [if_neg same]
        exact ⟨e, found, alive⟩
  | forgets => exact ⟨e, found, alive⟩
  | enrols actor =>
      have lower : n < s.entries.length := (List.getElem?_eq_some_iff.mp found).1
      rw [entry?_enrol, if_neg (by omega)]
      exact ⟨e, found, alive⟩
  | tallies => exact ⟨e, found, alive⟩
  | stops => exact ⟨e, found, alive⟩

/-- A firing is scheduled for the entry of a name for which something is done. -/
theorem Act.scheduled (a : Act on s t) (h : s.Numbered) {r : JobRef} {j : Job Duty}
    (found : t.job? r = some j) (new : s.job? r = none) (does : j.duty = .firing m n) :
    ∃ e, s.entry? n = some e ∧ s.registered? m e.name = some n ∧ on m e.name := by
  cases a with
  | @schedules m' k e now delay here leads on_ =>
      rcases job?_scheduleEntry h now m' k delay r with same | ⟨-, i, there, fires, -⟩
      · rw [same, new] at found
        cases found
      · rw [found] at there
        cases there
        rw [does] at fires
        cases fires
        rcases s.scheduleEntry_cases now m n delay with same | ⟨d, -, there, alive, -⟩
        · rw [same, new] at found
          cases found
        · rw [here] at there
          cases there
          exact ⟨e, here, leads alive, on_⟩
  | @cancels m' k e here leads on_ =>
      rcases s.job?_cancelEntry k r with same | same <;> rw [same, new] at found <;> cases found
  | forgets => exact absurd (new.symm.trans found) (by simp)
  | enrols => exact absurd (new.symm.trans found) (by simp)
  | tallies => exact absurd (new.symm.trans found) (by simp)
  | stops k =>
      rw [job?_stopScheduler, new] at found
      cases found

/-- A firing that is there has been there before, or is scheduled for the entry of a name for
which something is done. -/
theorem Act.firing_cases (a : Act on s t) (h : s.Numbered) {r : JobRef} {j : Job Duty}
    (found : t.job? r = some j) (does : j.duty = .firing m n) :
    (∃ i, s.job? r = some i ∧ i.duty = .firing m n ∧ i.phase = j.phase) ∨
      ∃ e, s.entry? n = some e ∧ s.registered? m e.name = some n ∧ on m e.name := by
  cases before : s.job? r with
  | some i =>
      obtain ⟨j', there, duty, phase⟩ := a.change.job h before
      rw [found] at there
      cases there
      exact .inl ⟨i, rfl, duty.symm.trans does, phase.symm⟩
  | none => exact .inr (a.scheduled h found before does)

/-! ### Names and their entries -/

/-- A name of a manager is free, or it leads to an entry that lives and has no other name.
Nothing else of that name is fired. -/
structure Tenure (m : Nat) (name : String) (tenant : Option Nat) (s : ActorSystem) : Prop where
  leads : s.registered? m name = tenant
  alive : ∀ {n}, tenant = some n → ∃ e, s.entry? n = some e ∧ e.cancelled = false
  alone : ∀ {n m' key}, tenant = some n → s.registered? m' key = some n → m' = m
  firings : ∀ {r j k e}, s.job? r = some j → j.duty = .firing m k → s.entry? k = some e →
    e.name = name → tenant = some k

variable {tenant : Option Nat}

namespace Tenure

/-- The tenant has the name that leads to it. -/
theorem name_eq (h : Tenure m name tenant s) (named : s.Named) (here : tenant = some n)
    {e : Entry} (found : s.entry? n = some e) : e.name = name := by
  obtain ⟨d, there, same⟩ := named (h.leads.trans here)
  rw [found] at there
  cases there
  exact same

/-- An entry for which something is done under another name is not the tenant. -/
theorem foreign (h : Tenure m name tenant s) (named : s.Named) (apart : ¬on m name) {k : Nat}
    {e : Entry} (found : s.entry? n = some e) (leads : s.registered? k e.name = some n)
    (here : on k e.name) : tenant ≠ some n := by
  intro tenant_
  rw [h.alone tenant_ leads, h.name_eq named tenant_ found] at here
  exact apart here

/-- **What is done for other names leaves the name to its entry.** -/
theorem act (h : Tenure m name tenant s) (sound : s.Sound) (a : Act on s t) (apart : ¬on m name) :
    Tenure m name tenant t where
  leads := (a.registered? apart).trans h.leads
  alive := by
    intro n here
    obtain ⟨e, found, alive⟩ := h.alive here
    exact a.survives found alive fun k leads on_ =>
      h.foreign sound.named apart found leads on_ here
  alone := by
    intro n m' key here leads
    obtain ⟨e, found, -⟩ := h.alive here
    rcases a.change.led leads with led | none
    · exact h.alone here led
    · rw [found] at none
      cases none
  firings := by
    intro r j k e found does here same
    have named {d : Entry} (was : s.entry? k = some d) : d.name = name := by
      obtain ⟨e', now, touched⟩ := a.change.entry was
      rw [here] at now
      cases now
      exact touched.name.symm.trans same
    rcases a.firing_cases sound.numbered found does with
      ⟨i, before, fires, -⟩ | ⟨d, was, -, on_⟩
    · obtain ⟨d, was, -⟩ := sound.owned before fires
      exact h.firings before fires was (named was)
    · exact absurd (named was ▸ on_) apart

/-- **What is done for other names schedules no firing of the tenant.** -/
theorem firing_before (h : Tenure m name tenant s) (sound : s.Sound) (a : Act on s t)
    (apart : ¬on m name) (here : tenant = some n) {r : JobRef} {j : Job Duty} {k : Nat}
    (found : t.job? r = some j) (does : j.duty = .firing k n) :
    ∃ i, s.job? r = some i ∧ i.duty = .firing k n ∧ i.phase = j.phase := by
  rcases a.firing_cases sound.numbered found does with before | ⟨e, was, leads, on_⟩
  · exact before
  · exact absurd here (h.foreign sound.named apart was leads on_)

theorem alike (h : Tenure m name tenant s) (a : s.Alike t) : Tenure m name tenant t where
  leads := (a.registered m name).trans h.leads
  alive := by
    intro n here
    obtain ⟨e, found, alive⟩ := h.alive here
    obtain ⟨e', found', core⟩ := a.entry found
    exact ⟨e', found', (Entry.cancelled_eq_of_core core).trans alive⟩
  alone := fun here leads => h.alone here ((a.registered _ _).symm.trans leads)
  firings := by
    intro r j k e found does here same
    have duty := a.duty r
    have core := a.core k
    rw [found] at duty
    rw [here] at core
    obtain ⟨i, was, duty⟩ := Option.map_eq_some_iff.mp duty.symm
    obtain ⟨d, there, core⟩ := Option.map_eq_some_iff.mp core.symm
    exact h.firings was (duty.trans does) there ((Entry.name_eq_of_core core).trans same)

/-- What is counted for names does not matter for them. -/
theorem tallies {f : Manager → Manager} (h : Tenure m name tenant s) {k : Nat}
    (keeps : ∀ {d}, s.manager? k = some d → (f d).names = d.names) :
    Tenure m name tenant (s.modifyManager k f) where
  leads := (registered?_modifyManager keeps m name).trans h.leads
  alive := h.alive
  alone := fun here leads => h.alone here ((registered?_modifyManager keeps _ _).symm.trans leads)
  firings := h.firings

/-- The tenant stays when a firing of it is scheduled. -/
theorem scheduleEntry (h : Tenure m name (some n) s) (sound : s.Sound) (now : Nat)
    (delay : Duration) : Tenure m name (some n) (s.scheduleEntry now m n delay) where
  leads := by
    rw [registered?, manager?_scheduleEntry, ← registered?]
    exact h.leads
  alive := by
    intro k here
    obtain ⟨e, found, alive⟩ := h.alive here
    rcases s.entry?_scheduleEntry now m n delay k with same | ⟨e', r, there, changed⟩
    · exact ⟨e, same.trans found, alive⟩
    · rw [found] at there
      cases there
      exact ⟨_, changed, alive⟩
  alone := by
    intro k m' key here leads
    rw [registered?, manager?_scheduleEntry, ← registered?] at leads
    exact h.alone here leads
  firings := by
    intro r j k e found does here same
    rcases job?_scheduleEntry sound.numbered now m n delay r with kept | ⟨-, i, there, fires, -⟩
    · have named : ∃ d, s.entry? k = some d ∧ d.name = name := by
        rcases s.entry?_scheduleEntry now m n delay k with kept | ⟨d, q, was, changed⟩
        · exact ⟨e, kept.symm.trans here, same⟩
        · rw [here] at changed
          cases changed
          exact ⟨d, was, same⟩
      obtain ⟨d, was, called⟩ := named
      exact h.firings (kept.symm.trans found) does was called
    · rw [found] at there
      cases there
      rw [does] at fires
      cases fires
      rfl

end Tenure

theorem entry?_length (s : ActorSystem) : s.entry? s.entries.length = none :=
  List.getElem?_eq_none (Nat.le_refl _)

/-- No name leads to an entry that is not there yet. -/
theorem Sound.registered?_ne_length (h : s.Sound) (m : Nat) (name : String) :
    s.registered? m name ≠ some s.entries.length := by
  intro leads
  obtain ⟨e, found, -⟩ := h.named leads
  rw [entry?_length] at found
  cases found

/-- Nothing fires an entry that is not there yet. -/
theorem Sound.firing_ne_length (h : s.Sound) {r : JobRef} {j : Job Duty}
    (found : s.job? r = some j) : j.duty ≠ .firing m s.entries.length := by
  intro does
  obtain ⟨e, here, -⟩ := h.owned found does
  rw [entry?_length] at here
  cases here

/-- A new entry is a tenant of its name. -/
theorem Tenure.enrol (h : Tenure m name none s) (sound : s.Sound)
    (manages : (s.manager? m).isSome) (actor : Nat) :
    Tenure m name (some s.entries.length) (s.enrol m name actor) where
  leads := by
    rw [registered?_enrol, h.leads, if_pos ⟨rfl, rfl, manages⟩]
    rfl
  alive := by
    rintro n ⟨⟩
    exact ⟨_, by rw [entry?_enrol, if_pos rfl], rfl⟩
  alone := by
    rintro n m' key ⟨⟩ leads
    rw [registered?_enrol, Option.or_eq_some_iff] at leads
    rcases leads with led | ⟨-, added⟩
    · exact absurd led (sound.registered?_ne_length m' key)
    · split at added
      · next same => exact same.1.symm
      · cases added
  firings := by
    intro r j k e found does here same
    have old : k ≠ s.entries.length := by
      rintro rfl
      exact sound.firing_ne_length (r := r) found does
    rw [entry?_enrol, if_neg old] at here
    cases h.firings (r := r) found does here same

/-! ### Tenants -/

/-- A name that is left to its actor, of a manager with a retry policy that has counted these
failures for it. -/
structure Tenancy (p : RetryPolicy) (m : Nat) (name : String) (tenant : Option Nat)
    (recent : List Int) (s : ActorSystem) : Prop extends Tenure m name tenant s where
  books : Books p m name recent s

variable {p : RetryPolicy} {recent : List Int}

/-- **What is done for other names does not concern the tenant.** No firing of it is
scheduled. -/
theorem Tenancy.act (h : Tenancy p m name tenant recent s) (sound : s.Sound) (a : Act on s t)
    (apart : ¬on m name) :
    Tenancy p m name tenant recent t ∧
      ∀ {n r}, tenant = some n → t.Pending n r → s.Pending n r := by
  refine ⟨⟨h.toTenure.act sound a apart, h.books.act a apart⟩, ?_⟩
  rintro n r here ⟨j, k, found, does, open_⟩
  obtain ⟨i, before, fires, phase⟩ := h.toTenure.firing_before sound a apart here found does
  exact ⟨i, k, before, fires, phase ▸ open_⟩

theorem Tenancy.acts (h : Tenancy p m name tenant recent s) (sound : s.Sound) (a : Acts on s t)
    (apart : ¬on m name) :
    Tenancy p m name tenant recent t ∧
      ∀ {n r}, tenant = some n → t.Pending n r → s.Pending n r := by
  induction a with
  | refl => exact ⟨h, fun _ => id⟩
  | tail before last ih =>
      obtain ⟨kept, ebbs⟩ := ih
      obtain ⟨kept', ebbs'⟩ := kept.act (sound.changes (Acts.changes before)) last apart
      exact ⟨kept', fun here open_ => ebbs here (ebbs' here open_)⟩

theorem Tenancy.alike (h : Tenancy p m name tenant recent s) (a : s.Alike t) :
    Tenancy p m name tenant recent t := by
  obtain ⟨k, r, manages, rest⟩ := h.books
  exact ⟨h.toTenure.alike a, k, r, (a.manager m).trans manages, rest⟩

/-! ### What is done for the tenant -/

/-- Scheduling a firing adds one job at most. -/
theorem job?_scheduleEntry_of_ne (s : ActorSystem) (now m n : Nat) (delay : Duration) :
    ∃ r, ∀ q, q ≠ r → (s.scheduleEntry now m n delay).job? q = s.job? q := by
  rcases s.scheduleEntry_cases now m n delay with same | ⟨e, k, -, -, -, same⟩
  · exact ⟨⟨0, 0⟩, fun q _ => by rw [same]⟩
  · rw [same]
    by_cases live : s.Live k.scheduler
    · refine ⟨⟨k.scheduler, (s.scheduler k.scheduler).jobs.length + 1⟩, fun q other => ?_⟩
      rw [job?_modifyEntry, job?_schedule_of_live live, if_neg other]
    · exact ⟨⟨0, 0⟩, fun q _ => job?_schedule_of_not_live live _ _ _ q⟩

/-- A firing of the tenant is scheduled, one at most. -/
theorem Tenancy.scheduleEntry (h : Tenancy p m name (some n) recent s) (sound : s.Sound)
    (now : Nat) (delay : Duration) :
    Tenancy p m name (some n) recent (s.scheduleEntry now m n delay) ∧
      ∃ r, ∀ q, (s.scheduleEntry now m n delay).Pending n q → s.Pending n q ∨ q = r := by
  constructor
  · obtain ⟨k, r, manages, rest⟩ := h.books
    exact ⟨h.toTenure.scheduleEntry sound now delay,
      k, r, (manager?_scheduleEntry s now m n delay m).trans manages, rest⟩
  · obtain ⟨r, others⟩ := s.job?_scheduleEntry_of_ne now m n delay
    refine ⟨r, fun q open_ => ?_⟩
    by_cases new : q = r
    · exact .inr new
    · obtain ⟨j, k, found, rest⟩ := open_
      exact .inl ⟨j, k, (others q new).symm.trans found, rest⟩

/-- A new entry is a tenant of its name. -/
theorem Tenancy.enrol (h : Tenancy p m name none recent s) (sound : s.Sound) (actor : Nat) :
    Tenancy p m name (some s.entries.length) recent (s.enrol m name actor) := by
  obtain ⟨k, retry, manages, rest⟩ := h.books
  refine ⟨h.toTenure.enrol sound (by rw [manages]; rfl) actor,
    { k with names := k.names ++ [(name, s.entries.length)] }, retry, ?_, rest⟩
  rw [ActorSystem.enrol, manager?_modifyManager, if_pos rfl]
  exact congrArg (Option.map _) manages

/-- **A free name gets a tenant**, with one firing at most. -/
theorem Tenancy.register (h : Tenancy p m name none recent s) (sound : s.Sound)
    {now actor : Nat} {delay : Int} (result : s.register now m name actor delay = .ok t) :
    Tenancy p m name (some s.entries.length) recent t ∧
      ∃ r, ∀ q, t.Pending s.entries.length q → q = r := by
  have positive : 0 ≤ delay := by
    unfold ActorSystem.register Duration.ofDelay at result
    by_cases negative : delay < 0
    · rw [if_pos negative] at result
      cases result
    · omega
  rw [register_of_free h.leads now actor positive] at result
  obtain rfl := Except.ok.inj result
  have enrols : Changes s (s.enrol m name actor) := .single (.enrols actor h.leads)
  obtain ⟨kept, r, only⟩ :=
    (h.enrol sound actor).scheduleEntry (sound.changes enrols) now (.ofMillis delay.toNat)
  refine ⟨kept, r, fun q open_ => (only q open_).resolve_left ?_⟩
  rintro ⟨j, k, found, does, -⟩
  exact sound.firing_ne_length (r := q) found does

/-- The failure of a run is counted for its name. -/
theorem Books.failed (h : Books p m name recent s) (at_ : Int) :
    ∃ k, s.manager? m = some k ∧
      Books p m name (recent.filter (FailureLog.counts p.window at_) ++ [at_])
        (s.modifyManager m fun _ => (k.failed name at_).2) ∧
      ((k.failed name at_).1.isSome →
        (recent.filter (FailureLog.counts p.window at_)).length + 1 < p.maxFailures) := by
  obtain ⟨k, r, manages, policy, most, backoff, rfl⟩ := h
  have win : r.tracker.backoff.window = p.window := congrArg Backoff.window backoff
  refine ⟨k, manages, ?_, ?_⟩
  · unfold Books
    rw [manager?_modifyManager, if_pos rfl, manages]
    refine ⟨_, { r with tracker := (r.tracker.record name at_).2 }, rfl, ?_, most, backoff, ?_⟩
    · rw [Manager.failed, policy]
    · rw [r.tracker.log_record_self, FailureLog.record, win]
  · unfold Manager.failed
    rw [policy]
    dsimp only [FailureTracker.record, FailureLog.record]
    rw [win, most, List.length_append, List.length_singleton]
    split
    · next fewer => exact fun _ => fewer
    · intro none
      cases none

/-- **When a run of the tenant fails, it is counted**, and one more firing is scheduled, if at
all, only as long as fewer failures count than the policy allows. -/
theorem Tenancy.failed (h : Tenancy p m name (some n) recent s) (sound : s.Sound) (now : Nat)
    (at_ : Int) :
    Tenancy p m name (some n) (recent.filter (FailureLog.counts p.window at_) ++ [at_])
        (s.conclude now m n at_ .failed) ∧
      ∃ r, ∀ q, (s.conclude now m n at_ .failed).Pending n q → s.Pending n q ∨ q = r ∧
        (recent.filter (FailureLog.counts p.window at_)).length + 1 < p.maxFailures := by
  obtain ⟨e, found, alive⟩ := h.alive rfl
  obtain rfl := h.name_eq sound.named rfl found
  obtain ⟨k, manages, counted, fewer⟩ := h.books.failed at_
  -- Counting changes nothing but the books.
  have keeps : ∀ {k'}, s.manager? m = some k' → k'.Tallies e.name (k.failed e.name at_).2 := by
    intro k' same
    rw [manages] at same
    cases same
    exact k.tallies_failed e.name at_
  have tallies : Change s (s.modifyManager m fun _ => (k.failed e.name at_).2) :=
    .tallies fun same => ⟨(keeps same).names, (keeps same).scheduler⟩
  have kept : Tenancy p m e.name (some n)
      (recent.filter (FailureLog.counts p.window at_) ++ [at_])
      (s.modifyManager m fun _ => (k.failed e.name at_).2) :=
    ⟨h.tallies fun same => (keeps same).names, counted⟩
  cases wait : (k.failed e.name at_).1 with
  | none =>
      have concluded : s.conclude now m n at_ .failed =
          s.modifyManager m fun _ => (k.failed e.name at_).2 := by
        simp only [conclude, found, manages, wait]
      rw [concluded]
      exact ⟨kept, ⟨0, 0⟩, fun q open_ => .inl open_⟩
  | some delay =>
      have concluded : s.conclude now m n at_ .failed =
          (s.modifyManager m fun _ => (k.failed e.name at_).2).scheduleEntry now m n delay := by
        simp only [conclude, found, manages, wait]
      rw [concluded]
      obtain ⟨kept', r, only⟩ := kept.scheduleEntry (sound.change tallies) now delay
      refine ⟨kept', r, fun q open_ => (only q open_).imp id fun same => ⟨same, ?_⟩⟩
      exact fewer (by rw [wait]; rfl)

end ActorSystem

namespace Fleet

/-- **Firings by themselves schedule nothing.** -/
theorem Moves.ebbs {f g : Fleet} (h : Moves f g) : f.system.Ebbs g.system := by
  have accepts : ∀ (f : Fleet) (x : Flight) (a : Arrival) (s : ActorSystem),
      s.Ebbs (f.accept x a s).system := by
    intro f x a s
    cases a with
    | runs => exact .refl s
    | waits => exact .refl s
    | dropped => exact ActorSystem.ebbs_finishJob s x.job
    | skipped => exact ActorSystem.ebbs_finishJob s x.job
  cases h with
  | begins begins =>
      obtain ⟨begins⟩ := begins
      exact ((ActorSystem.ebbs_attend_begin begins).trans (ActorSystem.ebbs_move _ _ _)).trans
        (accepts _ _ _ _)
  | continues continues =>
      cases continues with
      | passes d => exact .refl _
      | lapses lapses =>
          rcases ActorSystem.attend_over_inv lapses with rfl | ⟨-, rfl⟩
          · exact .refl _
          · exact ActorSystem.ebbs_finishJob _ _
      | resumes resumes =>
          cases resumes
          exact (ActorSystem.ebbs_move _ _ _).trans (accepts _ _ _ _)
      | hears => exact ActorSystem.ebbs_of_job? fun _ => rfl

end Fleet

end RecurringWork
