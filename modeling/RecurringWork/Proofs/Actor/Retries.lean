import RecurringWork.Proofs.Actor.Tenancy
import RecurringWork.Settings

/-!
# RecurringWork.Proofs.Actor.Retries

**How often an actor is run that always fails.** A `Trial` is a fleet in which an actor is
registered once, under a name that nobody else uses, and fails whenever it is run. Nobody asks
for a run of it; whatever else happens, happens elsewhere.

What decides about the next run is how many failures are younger than the window of the
policy (`RetryPolicy.lately`). Once there are as many as the policy allows, the actor stays
registered and idle, and until then at most one firing of it is there (`Trial.Kept`). So there
are no more runs than the policy allows as long as all failures lie within one window
(`Trial.Reachable.retries_bounded`). Failures that have left the window do not count, and a
policy may have a window that is shorter than its waits; then the actor is run more often
(`Trial.runs_of_no_window`).
-/

namespace RecurringWork

namespace RetryPolicy

variable {p : RetryPolicy} {failures : List Int}

/-- Of some failures, the latest first, those that count at the time of the latest. -/
def lately (p : RetryPolicy) : List Int → List Int
  | [] => []
  | t :: earlier => t :: earlier.filter (FailureLog.counts p.window t)

/-- As many failures count as the policy allows. -/
def Spent (p : RetryPolicy) (failures : List Int) : Prop :=
  p.maxFailures ≤ (p.lately failures).length

/-- All failures lie within one window. -/
def Together (p : RetryPolicy) (failures : List Int) : Prop :=
  ∀ a ∈ failures, ∀ b ∈ failures, a - b < p.window.nanos

instance (p : RetryPolicy) (failures : List Int) : Decidable (p.Together failures) :=
  inferInstanceAs (Decidable (∀ a ∈ failures, ∀ b ∈ failures, a - b < p.window.nanos))

/-- What is kept of the failures is enough to tell which of them count later. -/
theorem lately_cons {at_ : Int} (later : ∀ t ∈ failures, t ≤ at_) :
    (p.lately failures).reverse.filter (FailureLog.counts p.window at_) ++ [at_] =
      (p.lately (at_ :: failures)).reverse := by
  have same : (p.lately failures).filter (FailureLog.counts p.window at_) =
      failures.filter (FailureLog.counts p.window at_) := by
    cases failures with
    | nil => rfl
    | cons t earlier =>
        rw [lately, List.filter_cons, List.filter_cons, List.filter_filter]
        -- A failure that does not count at `t` does not count later either.
        have absorb : earlier.filter (fun u => FailureLog.counts p.window at_ u &&
            FailureLog.counts p.window t u) =
            earlier.filter (FailureLog.counts p.window at_) := by
          refine List.filter_congr fun u _ => ?_
          have := later t List.mem_cons_self
          simp only [FailureLog.counts, Bool.and_eq_left_iff_imp, decide_eq_true_eq]
          intro counts
          omega
        rw [absorb]
  rw [List.filter_reverse, same, lately, List.reverse_cons]

theorem lately_of_together (h : p.Together failures) : p.lately failures = failures := by
  cases failures with
  | nil => rfl
  | cons t earlier =>
      rw [lately, List.filter_eq_self.mpr fun u mem => ?_]
      exact decide_eq_true (h t List.mem_cons_self u (List.mem_cons_of_mem t mem))

/-- An engine accepts only policies that allow a failure. -/
theorem maxFailures_pos {c : Settings} (valid : c.validate = .ok c) (policy : c.retry = some p) :
    0 < p.maxFailures := by
  have sound := (Settings.validate_eq_ok.mp valid).1
  refine Nat.pos_of_ne_zero fun none => ?_
  unfold Settings.flaw? at sound
  repeat' split at sound
  all_goals simp_all [Settings.retryFlaw?]

theorem Together.tail (h : p.Together failures) : p.Together failures.tail :=
  fun a ha b hb => h a (List.mem_of_mem_tail ha) b (List.mem_of_mem_tail hb)

end RetryPolicy

/-- A fleet in which an actor is registered that fails whenever it is run. -/
structure Trial where
  fleet : Fleet
  /-- Its entry, once it is registered. -/
  entry : Option Nat
  /-- When its runs failed, the latest first, in nanoseconds. -/
  failures : List Int

namespace Trial

open ActorSystem Fleet

/-- Something happens that concerns neither the name of the actor nor its runs. -/
inductive Elsewhere (m : Nat) (name : String) (entry : Option Nat) : Fleet → Fleet → Prop
  /-- A manager is called for other names. -/
  | calls {f : Fleet} (c : Call) : ¬c.Concerns m name →
      Elsewhere m name entry f { f with system := c.perform f.elapsed f.system }
  /-- A run of another entry ends. -/
  | ends {f g : Fleet} {x : Flight} {at_ : Int} {result : Option RunResult} :
      Ends x at_ result f g → entry ≠ some x.entry → Elsewhere m name entry f g
  /-- Time passes, or a firing goes on by itself. -/
  | moves {f g : Fleet} : Moves f g → Elsewhere m name entry f g

/-- One thing that happens. -/
inductive Step (m : Nat) (name : String) : Trial → Trial → Prop
  /-- The actor is registered. -/
  | registers {f : Fleet} {s : ActorSystem} {failures : List Int} (actor : Nat) (delay : Int) :
      f.system.register f.elapsed m name actor delay = .ok s →
      Step m name ⟨f, none, failures⟩
        ⟨{ f with system := s }, some f.system.entries.length, failures⟩
  /-- A run of it fails. Time does not go back. -/
  | fails {f g : Fleet} {x : Flight} {at_ : Int} {failures : List Int} :
      Ends x at_ (some .failed) f g → (∀ t ∈ failures, t ≤ at_) →
      Step m name ⟨f, some x.entry, failures⟩ ⟨g, some x.entry, at_ :: failures⟩
  | elsewhere {f g : Fleet} {entry : Option Nat} {failures : List Int} :
      Elsewhere m name entry f g → Step m name ⟨f, entry, failures⟩ ⟨g, entry, failures⟩

/-- What can come of managers and schedulers that nobody has used, one of which has a retry
policy. -/
def Reachable (p : RetryPolicy) (m : Nat) (name : String) (t : Trial) : Prop :=
  ∃ s k, Blank s ∧ s.manager? m = some k ∧ k.retry = some (.ofPolicy p) ∧
    Relation.ReflTransGen (Step m name) ⟨⟨s, 0, [], []⟩, none, []⟩ t

/-- The runs of the actor that were started. Each of them has failed or is in flight. -/
def runs (t : Trial) : Nat :=
  t.failures.length + (t.entry.elim [] fun n => jobsOf n t.fleet.running).length

/-! ### What every trial keeps -/

/-- At most one firing of the actor is there, and none once its failures are spent. -/
structure Kept (p : RetryPolicy) (m : Nat) (name : String) (t : Trial) : Prop where
  sound : t.fleet.Sound
  tenancy : Tenancy p m name t.entry (p.lately t.failures).reverse t.fleet.system
  fresh : t.entry = none → t.failures = []
  single : ∀ {n r q}, t.entry = some n → t.fleet.system.Pending n r →
    t.fleet.system.Pending n q → q = r
  unspent : ∀ {n r}, t.entry = some n → t.fleet.system.Pending n r → ¬p.Spent t.failures
  before : ¬p.Spent t.failures.tail

variable {p : RetryPolicy} {m : Nat} {name : String} {t u : Trial}

/-- What schedules no firing of the actor keeps a trial as it is. -/
theorem Kept.ebb (h : Kept p m name t) {g : Fleet} (sound : g.Sound)
    (tenancy : Tenancy p m name t.entry (p.lately t.failures).reverse g.system)
    (ebbs : ∀ {n r}, t.entry = some n → g.system.Pending n r → t.fleet.system.Pending n r) :
    Kept p m name ⟨g, t.entry, t.failures⟩ where
  sound := sound
  tenancy := tenancy
  fresh := h.fresh
  single := fun here first second => h.single here (ebbs here first) (ebbs here second)
  unspent := fun here open_ => h.unspent here (ebbs here open_)
  before := h.before

/-- A firing in flight is not over. -/
theorem pending_of_flight {f : Fleet} (h : f.Sound) {x : Flight} (mem : x ∈ f.running) :
    f.system.Pending x.entry x.job := by
  obtain ⟨j, found, started, does⟩ := h.manned.started (List.mem_append_right f.waiting mem)
  exact ⟨j, x.manager, found, does, by rw [started]; simp⟩

theorem Elsewhere.step {entry : Option Nat} {f g : Fleet} (h : Elsewhere m name entry f g) :
    Fleet.Step f g := by
  cases h with
  | calls c => exact .calls c
  | ends ends => exact .ends ends
  | moves mv => exact .moves mv

/-- **What happens elsewhere does not concern the actor.** -/
theorem Kept.elsewhere (h : Kept p m name t) {g : Fleet} (st : Elsewhere m name t.entry t.fleet g) :
    Kept p m name ⟨g, t.entry, t.failures⟩ := by
  have sound : g.Sound := h.sound.step st.step
  obtain ⟨f, entry, failures⟩ := t
  cases st with
  | calls c apart =>
      obtain ⟨tenancy, ebbs⟩ := h.tenancy.acts h.sound.manned.system
        (acts_perform h.sound.manned.system f.elapsed c) apart
      exact h.ebb sound tenancy ebbs
  | @ends _ x at_ result ends other =>
      have mem := ends.mem_running
      obtain ⟨j, job, -, does⟩ := h.sound.manned.started (List.mem_append_right f.waiting mem)
      obtain ⟨e, found, leads⟩ := h.sound.owns mem
      -- Its name is another one, for all firings of this name are those of the actor.
      have apart : ¬(x.manager = m ∧ e.name = name) := by
        rintro ⟨rfl, named⟩
        exact other (h.tenancy.firings job does found named)
      have ended : ∀ v : ActorSystem, v.Ebbs ((v.leave x.entry).finishJob x.job) := fun v =>
        (ebbs_leave v x.entry).trans (ebbs_finishJob _ x.job)
      cases result with
      | none =>
          refine h.ebb sound ?_ fun _ open_ => ended f.system _ _ (ends.system ▸ open_)
          rw [ends.system]
          exact h.tenancy.alike (f.system.alike_over x.entry x.job)
      | some r =>
          have acts : Acts (fun m' key => m' = x.manager ∧ key = e.name) f.system
              (f.system.conclude f.elapsed x.manager x.entry at_ r) :=
            acts_conclude found leads ⟨rfl, rfl⟩ f.elapsed at_ r
          obtain ⟨tenancy, ebbs⟩ := h.tenancy.acts h.sound.manned.system acts fun here =>
            apart ⟨here.1.symm, here.2.symm⟩
          refine h.ebb sound ?_ fun here open_ => ebbs here (ended _ _ _ (ends.system ▸ open_))
          rw [ends.system]
          exact tenancy.alike (ActorSystem.alike_over _ x.entry x.job)
  | moves moves =>
      exact h.ebb sound (h.tenancy.alike moves.alike) fun _ open_ => moves.ebbs _ _ open_

/-- **A failure is followed by one firing, or by none if the failures are spent.** -/
theorem Kept.fails {f g : Fleet} {x : Flight} {at_ : Int} {failures : List Int}
    (h : Kept p m name ⟨f, some x.entry, failures⟩) (ends : Ends x at_ (some .failed) f g)
    (later : ∀ t ∈ failures, t ≤ at_) :
    Kept p m name ⟨g, some x.entry, at_ :: failures⟩ := by
  have sound := h.sound.ends ends
  have mem := ends.mem_running
  have pending : f.system.Pending x.entry x.job := pending_of_flight h.sound mem
  -- The firing is one of the manager that has the name.
  have manager : x.manager = m := by
    obtain ⟨e, found, leads⟩ := h.sound.owns mem
    obtain ⟨d, here, alive⟩ := h.tenancy.alive rfl
    rw [show f.system.entry? x.entry = some e from found] at here
    cases here
    exact h.tenancy.alone rfl (leads alive)
  obtain ⟨tenancy, r, only⟩ := h.tenancy.failed h.sound.manned.system f.elapsed at_
  rw [RetryPolicy.lately_cons later] at tenancy
  -- The firing that failed is over, so only one can be there that was scheduled now.
  have left : ∀ {q}, g.system.Pending x.entry q → q = r ∧ ¬p.Spent (at_ :: failures) := by
    intro q open_
    rw [ends.system] at open_
    obtain ⟨open_, other⟩ := pending_finishJob open_
    have open_ := ebbs_leave _ _ _ _ open_
    rw [manager] at open_
    rcases only q open_ with old | ⟨new, fewer⟩
    · exact absurd (h.single rfl pending old) other
    · refine ⟨new, Nat.not_le_of_lt ?_⟩
      have count := congrArg List.length (p.lately_cons later)
      dsimp only at fewer
      rw [List.length_append, List.length_singleton, List.length_reverse] at count
      omega
  refine ⟨sound, ?_, nofun, ?_, ?_, h.unspent rfl pending⟩
  · rw [← manager] at tenancy ⊢
    rw [ends.system]
    exact tenancy.alike (ActorSystem.alike_over _ x.entry x.job)
  · rintro n q q' ⟨⟩ first second
    rw [(left first).1, (left second).1]
  · rintro n q ⟨⟩ open_
    exact (left open_).2

/-- **The first firing of an actor is scheduled when it is registered.** -/
theorem Kept.registers {f : Fleet} {s : ActorSystem} {failures : List Int} {actor : Nat}
    {delay : Int} (positive : 0 < p.maxFailures) (h : Kept p m name ⟨f, none, failures⟩)
    (result : f.system.register f.elapsed m name actor delay = .ok s) :
    Kept p m name ⟨{ f with system := s }, some f.system.entries.length, failures⟩ := by
  obtain ⟨tenancy, r, only⟩ := h.tenancy.register h.sound.manned.system result
  obtain rfl : failures = [] := h.fresh rfl
  refine ⟨?_, tenancy, nofun, ?_, ?_, ?_⟩
  · exact h.sound.changes (changes_register h.sound.manned.system result)
  · rintro n q q' ⟨⟩ first second
    rw [only q first, only q' second]
  · exact fun _ _ => Nat.not_le_of_lt positive
  · exact Nat.not_le_of_lt positive

theorem Kept.step (positive : 0 < p.maxFailures) (h : Kept p m name t) (st : Step m name t u) :
    Kept p m name u := by
  cases st with
  | registers actor delay result => exact h.registers positive result
  | fails ends later => exact h.fails ends later
  | elsewhere elsewhere => exact h.elsewhere elsewhere

theorem Reachable.kept (positive : 0 < p.maxFailures) (h : Reachable p m name t) :
    Kept p m name t := by
  obtain ⟨s, k, blank, manages, policy, run⟩ := h
  have start : Kept p m name ⟨⟨s, 0, [], []⟩, none, []⟩ := by
    have sound := blank.sound
    have entries : ∀ n, s.entry? n = none := by
      intro n
      rw [ActorSystem.entry?, blank.entries]
      rfl
    refine ⟨sound, ⟨⟨?_, by simp, by simp, ?_⟩, k, _, manages, policy, rfl, rfl, rfl⟩,
      fun _ => rfl, by simp, by simp, Nat.not_le_of_lt positive⟩
    · cases leads : s.registered? m name with
      | none => rfl
      | some n =>
          obtain ⟨e, found, -⟩ := sound.manned.system.named leads
          rw [entries] at found
          cases found
    · intro r j i e _ _ found _
      rw [show s.entry? i = none from entries i] at found
      cases found
  induction run with
  | refl => exact start
  | tail _ last ih => exact ih.step positive last

/-! ### How many runs there are -/

/-- A firing in flight is one that is not over. -/
theorem pending_of_mem_jobsOf {f : Fleet} (h : f.Sound) {n : Nat} {r : JobRef}
    (mem : r ∈ jobsOf n f.running) : f.system.Pending n r := by
  obtain ⟨x, here, rfl, rfl⟩ := mem_jobsOf.mp mem
  exact pending_of_flight h here

theorem Kept.runs_le (h : Kept p m name t) (together : p.Together t.failures) :
    t.runs ≤ p.maxFailures := by
  -- The last failure but one left room for one more run.
  have failed : t.failures.length ≤ p.maxFailures := by
    have room := Nat.lt_of_not_le h.before
    rw [p.lately_of_together together.tail, List.length_tail] at room
    omega
  unfold runs
  cases entry : t.entry with
  | none => exact failed
  | some n =>
      show t.failures.length + (jobsOf n t.fleet.running).length ≤ p.maxFailures
      cases flying : jobsOf n t.fleet.running with
      | nil => exact failed
      | cons r rest =>
          have mem : r ∈ jobsOf n t.fleet.running := by
            rw [flying]
            exact List.mem_cons_self
          have room := Nat.lt_of_not_le (h.unspent entry (pending_of_mem_jobsOf h.sound mem))
          rw [p.lately_of_together together] at room
          obtain ⟨x, here, named, -⟩ := mem_jobsOf.mp mem
          obtain ⟨e, found, -⟩ := h.sound.manned.owns (List.mem_append_right _ here)
          have short : (jobsOf n t.fleet.running).length ≤ 1 :=
            (h.sound.laned (named ▸ found)).tidy.running_short
          rw [flying] at short
          omega

/-- **Retries are bounded by the failures within the window.** An actor that always fails
stays registered. It is not run again, and no firing of it is left, once as many of its
failures count as the policy allows, and no run but the last has left as many behind. So as
long as all its failures lie within one window, it is run at most as often as the policy
allows, and has no firing left when it has failed so often. -/
theorem Reachable.retries_bounded {c : Settings} (valid : c.validate = .ok c)
    (policy : c.retry = some p) (h : Reachable p m name t) :
    t.fleet.system.registered? m name = t.entry ∧
    (∀ n, t.entry = some n → p.Spent t.failures → ∀ r, ¬t.fleet.system.Pending n r) ∧
    ¬p.Spent t.failures.tail ∧
    (p.Together t.failures →
      t.runs ≤ p.maxFailures ∧
      ∀ n, t.entry = some n → t.failures.length = p.maxFailures →
        ∀ r, ¬t.fleet.system.Pending n r) := by
  have kept := h.kept (RetryPolicy.maxFailures_pos valid policy)
  have idle : ∀ n, t.entry = some n → p.Spent t.failures → ∀ r, ¬t.fleet.system.Pending n r :=
    fun n here spent r open_ => kept.unspent here open_ spent
  refine ⟨kept.tenancy.leads, idle, kept.before, fun together => ⟨kept.runs_le together, ?_⟩⟩
  intro n here all
  refine idle n here ?_
  rw [RetryPolicy.Spent, p.lately_of_together together]
  omega

/-! ### An actor that fails at once -/

/-- The trial after the actor has run and failed at once, as the first one of its manager. -/
def attempt (t : Trial) (job : JobRef) : Trial :=
  let begun := (t.fleet.system.attend t.fleet.elapsed job).2
  let at_ : Int := t.fleet.elapsed * 1000000
  ⟨⟨((begun.fire 0 job).2.endRun t.fleet.elapsed 0 0 at_ (some .failed)).finishJob job,
    t.fleet.elapsed, [], []⟩, some 0, at_ :: t.failures⟩

/-- The trial after some milliseconds. -/
def wait (t : Trial) (ms : Nat) : Trial :=
  { t with fleet := { t.fleet with elapsed := t.fleet.elapsed + ms } }

theorem Reachable.wait (h : Reachable p m name t) (ms : Nat) : Reachable p m name (t.wait ms) := by
  obtain ⟨s, k, blank, manages, policy, run⟩ := h
  exact ⟨s, k, blank, manages, policy, run.tail (.elsewhere (.moves (.continues (.passes ms))))⟩

theorem Reachable.attempt (h : Reachable p m name t) (job : JobRef) {s : ActorSystem}
    (entry : t.entry = some 0) (waiting : t.fleet.waiting = []) (running : t.fleet.running = [])
    (begins : t.fleet.system.attend t.fleet.elapsed job = (.begin (.firing 0 0), s))
    (runs : (s.fire 0 job).1 = .runs)
    (later : ∀ u ∈ t.failures, u ≤ (t.fleet.elapsed : Int) * 1000000) :
    Reachable p m name (t.attempt job) := by
  obtain ⟨s₀, k, blank, manages, policy, run⟩ := h
  obtain ⟨⟨system, elapsed, _, _⟩, _, failures⟩ := t
  subst entry waiting running
  have begun : Step m name ⟨⟨system, elapsed, [], []⟩, some 0, failures⟩
      ⟨⟨(s.fire 0 job).2, elapsed, [], [⟨job, 0, 0⟩]⟩, some 0, failures⟩ := by
    have step : Moves ⟨system, elapsed, [], []⟩ _ :=
      .begins (.intro (x := ⟨job, 0, 0⟩) begins)
    rw [runs] at step
    exact .elsewhere (.moves step)
  refine ⟨s₀, k, blank, manages, policy, (run.tail begun).tail ?_⟩
  unfold Trial.attempt
  dsimp only
  rw [begins]
  exact .fails (ends_alone ⟨job, 0, 0⟩ _ _ _ _ _) later

/-- An actor that is registered as the first one of the only manager. -/
def registered (p : RetryPolicy) : Trial :=
  ⟨⟨(Call.register 0 "x" 0 0).perform 0
    ⟨[], [⟨[], 0, none, some (.ofPolicy p), none⟩], [.empty], []⟩, 0, [], []⟩, some 0, []⟩

theorem reachable_registered (p : RetryPolicy) : Reachable p 0 "x" (registered p) := by
  refine ⟨⟨[], [⟨[], 0, none, some (.ofPolicy p), none⟩], [.empty], []⟩, _,
    ⟨rfl, by simp, by simp [Scheduler.empty]⟩, rfl, rfl, .single ?_⟩
  exact .registers 0 0 rfl

/-- The same trial, when the actor has failed some times and waits for its next run. -/
def retrying (p : RetryPolicy) (log : FailureLog) (done : List (Job Duty)) (elapsed : Nat)
    (failures : List Int) : Trial :=
  let next := log.total + 1
  ⟨⟨⟨[⟨"x", 0, false, none, [], false, some ⟨0, next⟩⟩],
    [⟨[("x", 0)], 0, none, some ⟨p.maxFailures, ⟨.ofPolicy p, [("x", log)]⟩⟩, none⟩],
    [⟨⟨next, .firing 0 0, elapsed, false, .waiting⟩ :: done, false⟩],
    (List.range next).map fun k => ⟨0, k + 1⟩⟩, elapsed, [], []⟩, some 0, failures⟩

/-- A policy that allows two failures within a window, with waits of ten milliseconds. -/
def twoWithin (window : Nat) : RetryPolicy := ⟨2, 10, 10, window⟩

/-- The first firing of the actor, when it is over. -/
def firstEnded : Job Duty := ⟨1, .firing 0 0, 0, false, .ended⟩

/-- The actor has failed at once and waits for its second run. -/
def second (window : Nat) : Trial := retrying (twoWithin window) ⟨[0], 1⟩ [firstEnded] 10 [0]

theorem reachable_second {window : Nat}
    (same : ((registered (twoWithin window)).attempt ⟨0, 1⟩).wait 10 = second window) :
    Reachable (twoWithin window) 0 "x" (second window) := by
  have failed := (reachable_registered (twoWithin window)).attempt ⟨0, 1⟩ rfl rfl rfl rfl rfl
    (by simp [registered])
  exact same ▸ failed.wait 10

/-- Without a window, the first failure is forgotten when the second one happens. -/
theorem wait_second : ((second 0).attempt ⟨0, 2⟩).wait 10 =
    retrying (twoWithin 0) ⟨[10000000], 2⟩ [⟨2, .firing 0 0, 10, false, .ended⟩, firstEnded] 20
      [10000000, 0] := rfl

/-- Two failures are followed by no further run if they lie within the window. -/
theorem retries_bounded_of_two :
    ∃ t : Trial, Reachable (twoWithin 600000) 0 "x" t ∧ t.failures = [10000000, 0] ∧ t.runs ≤ 2 ∧
      t.fleet.system.registered? 0 "x" = some 0 ∧ ∀ r, ¬t.fleet.system.Pending 0 r := by
  have second : Reachable (twoWithin 600000) 0 "x" (second 600000) := reachable_second rfl
  have both := second.attempt ⟨0, 2⟩ rfl rfl rfl rfl rfl (by decide)
  obtain ⟨leads, -, -, bounded⟩ :=
    both.retries_bounded (c := { Settings.standard with retry := some (twoWithin 600000) }) rfl rfl
  obtain ⟨few, idle⟩ := bounded (by decide)
  exact ⟨_, both, rfl, few, leads, idle 0 rfl rfl⟩

/-- Three failures do not end the repetition if each has left the window before the next one,
though the policy allows two. -/
theorem runs_of_no_window :
    ∃ (c : Settings) (p : RetryPolicy) (t : Trial), c.validate = .ok c ∧ c.retry = some p ∧
      Reachable p 0 "x" t ∧ p.maxFailures < t.runs := by
  have second : Reachable (twoWithin 0) 0 "x" (second 0) := reachable_second rfl
  have both := (second.attempt ⟨0, 2⟩ rfl rfl rfl rfl rfl (by decide)).wait 10
  rw [wait_second] at both
  have three := both.attempt ⟨0, 3⟩ rfl rfl rfl rfl rfl (by decide)
  exact ⟨{ Settings.standard with retry := some (twoWithin 0) }, twoWithin 0, _, rfl, rfl, three,
    by decide⟩

end Trial

end RecurringWork
