import RecurringWork.Proofs.Actor.Awaited

/-!
# RecurringWork.Proofs.Actor.Chains

**How many firings there are of an actor that always wants to run again.** A `Repeater` is a
fleet with an actor whose every run asks for the next one. Firings of it are asked for from
outside as well: when it is registered, when somebody wakes it, and by other nodes. What else
happens, happens under other names.

A firing that is scheduled replaces none. So each that is asked for begins a chain: it is
followed by the one that its run schedules, and that one by another. A chain ends only where
one of its firings is dropped, because another one waits for the lock already. Hence there are
always as many firings as were asked for, but for those that were dropped
(`Repeater.Tally`), and whenever no run is in flight or queued, all of them wait for their time
(`Repeater.Reachable.chains`). To wake an actor once is enough to have two of them
(`Repeater.two_chains`).
-/

namespace RecurringWork

/-- A fleet with an actor whose every run asks for the next one. -/
structure Repeater where
  fleet : Fleet
  /-- The firings of it that were asked for from outside, the latest first. -/
  asked : List JobRef
  /-- The firings of it that were dropped because another one waited, the latest first. -/
  dropped : List JobRef

namespace Repeater

open ActorSystem Fleet

/-- Something happens that asks for no firing of the actor, begins none, and ends no run of it. -/
inductive Between (m : Nat) (name : String) : Fleet → Fleet → Prop
  /-- A manager is called for other names. The scheduler goes on. -/
  | calls {f : Fleet} (c : Call) : ¬c.Concerns m name →
      (c.perform f.elapsed f.system).Accepts m →
      Between m name f { f with system := c.perform f.elapsed f.system }
  /-- A firing of another entry begins. -/
  | begins {f g : Fleet} {x : Flight} {a : Arrival} : Begins x a f g →
      f.system.registered? m name ≠ some x.entry → Between m name f g
  /-- A run of another entry ends. -/
  | ends {f g : Fleet} {x : Flight} {at_ : Int} {result : Option RunResult} :
      Ends x at_ result f g → f.system.registered? m name ≠ some x.entry → Between m name f g
  | continues {f g : Fleet} : Continues f g → Between m name f g

/-- One thing that happens. -/
inductive Step (m : Nat) (name : String) : Repeater → Repeater → Prop
  /-- A firing of the actor is asked for, and scheduled. A request that is refused changes
  nothing (`Kept.perform`). -/
  | asks {f : Fleet} {asked dropped : List JobRef} {r : JobRef} (c : Call) : c.Asks m name →
      f.system.job? r = none → ((c.perform f.elapsed f.system).job? r).isSome →
      Step m name ⟨f, asked, dropped⟩
        ⟨{ f with system := c.perform f.elapsed f.system }, r :: asked, dropped⟩
  /-- A firing of it begins. -/
  | begins {f g : Fleet} {asked dropped : List JobRef} {x : Flight} {a : Arrival} :
      Begins x a f g → f.system.registered? m name = some x.entry →
      Step m name ⟨f, asked, dropped⟩
        ⟨g, asked, if a = .dropped then x.job :: dropped else dropped⟩
  /-- A run of it ends, and asks for the next one. -/
  | repeats {f g : Fleet} {x : Flight} {asked dropped : List JobRef} {at_ : Int}
      {delay : Duration} : Ends x at_ (some (.reschedule delay)) f g →
      f.system.registered? m name = some x.entry →
      Step m name ⟨f, asked, dropped⟩ ⟨g, asked, dropped⟩
  /-- Something else happens. -/
  | between {f g : Fleet} {asked dropped : List JobRef} :
      Between m name f g → Step m name ⟨f, asked, dropped⟩ ⟨g, asked, dropped⟩

/-- What can come of managers and schedulers that nobody has used, one of which accepts jobs. -/
def Reachable (m : Nat) (name : String) (t : Repeater) : Prop :=
  ∃ s, Blank s ∧ s.Accepts m ∧ Relation.ReflTransGen (Step m name) ⟨⟨s, 0, [], []⟩, [], []⟩ t

/-- There are as many firings of an entry as were asked for, but for those that were dropped,
and not all of them were. -/
structure Tally (n : Nat) (t : Repeater) : Prop where
  total : (t.fleet.system.awaited n).encard + (jobsOf n t.fleet.waiting).length +
    (jobsOf n t.fleet.running).length + t.dropped.length = t.asked.length
  left : t.dropped.length < t.asked.length

variable {m n : Nat} {name : String} {t u : Repeater}

/-! ### Counting -/

theorem Tally.count (h : Tally n t) : ∃ k : Nat, (t.fleet.system.awaited n).encard = k ∧
    k + (jobsOf n t.fleet.waiting).length + (jobsOf n t.fleet.running).length +
      t.dropped.length = t.asked.length := by
  have finite : (t.fleet.system.awaited n).encard ≠ ⊤ := by
    intro infinite
    have total := h.total
    rw [infinite] at total
    simp at total
  obtain ⟨k, count⟩ := ENat.ne_top_iff_exists.mp finite
  refine ⟨k, count.symm, ?_⟩
  have total := h.total
  rw [← count] at total
  exact_mod_cast total

theorem tally_of_count {k : Nat} (count : (t.fleet.system.awaited n).encard = k)
    (total : k + (jobsOf n t.fleet.waiting).length + (jobsOf n t.fleet.running).length +
      t.dropped.length = t.asked.length)
    (left : t.dropped.length < t.asked.length) : Tally n t where
  total := by
    rw [count]
    exact_mod_cast total
  left := left

/-! ### What every repeater keeps -/

/-- A name of a manager whose scheduler accepts jobs is free, or it leads to an entry that can be
fired. -/
structure Ready (m : Nat) (name : String) (tenant : Option Nat) (f : Fleet) : Prop where
  sound : f.Sound
  filed : f.system.Filed
  accepts : f.system.Accepts m
  tenure : Tenure m name tenant f.system

theorem Ready.serves {f : Fleet} (h : Ready m name (some n) f) : f.system.Serves m name n :=
  h.tenure.serves h.accepts

/-- The name leads where it led when firings go on by themselves. -/
theorem Ready.moves {tenant : Option Nat} {f g : Fleet} (h : Ready m name tenant f)
    (st : Moves f g) : Ready m name tenant g where
  sound := h.sound.moves st
  filed := h.filed.alike st.alike st.keepsOpen
  accepts := st.keepsOpen.accepts h.accepts
    (congrArg (Option.map Manager.scheduler) (st.alike.manager m))
  tenure := h.tenure.alike st.alike

/-- Where nobody is registered, every name is free. -/
theorem ready_of_blank {s : ActorSystem} (blank : Blank s) (accepts : s.Accepts m) :
    Ready m name none ⟨s, 0, [], []⟩ := by
  have nobody : ∀ {i : Nat} {e : Entry}, s.entry? i ≠ some e := by
    intro i e found
    rw [ActorSystem.entry?, blank.entries] at found
    cases found
  have free : s.registered? m name = none := by
    cases leads : s.registered? m name with
    | none => rfl
    | some i =>
        obtain ⟨e, found, -⟩ := blank.sound.manned.system.named leads
        exact absurd found nobody
  refine ⟨blank.sound, blank.filed, accepts, free, ?_, ?_, fun _ _ found _ => absurd found nobody⟩
  · intro n tenant
    cases tenant
  · intro n m' key tenant
    cases tenant

/-- The name is ready, and there are as many firings of its entry as were asked for and not
dropped. -/
structure Kept (m : Nat) (name : String) (t : Repeater) : Prop where
  ready : Ready m name (t.fleet.system.registered? m name) t.fleet
  fresh : t.fleet.system.registered? m name = none → t.asked = [] ∧ t.dropped = []
  tally : ∀ {n}, t.fleet.system.registered? m name = some n → Tally n t

theorem Ready.kept (h : Ready m name (some n) t.fleet) (tally : Tally n t) : Kept m name t where
  ready := h.tenure.leads.symm ▸ h
  fresh := fun none => by
    rw [h.tenure.leads] at none
    cases none
  tally := fun leads => by
    rw [h.tenure.leads] at leads
    cases leads
    exact tally

/-- What neither schedules firings of the actor nor takes any away keeps a repeater as it is. -/
theorem Kept.unchanged (h : Kept m name t) {g : Fleet}
    (ready : Ready m name (t.fleet.system.registered? m name) g)
    (firings : ∀ {n}, t.fleet.system.registered? m name = some n →
      g.system.awaited n = t.fleet.system.awaited n ∧
        (jobsOf n g.waiting).length + (jobsOf n g.running).length =
          (jobsOf n t.fleet.waiting).length + (jobsOf n t.fleet.running).length) :
    Kept m name ⟨g, t.asked, t.dropped⟩ where
  ready := ready.tenure.leads.symm ▸ ready
  fresh := fun none => h.fresh (ready.tenure.leads ▸ none)
  tally := fun {n} leads => by
    have before : t.fleet.system.registered? m name = some n := ready.tenure.leads ▸ leads
    obtain ⟨waits, flights⟩ := firings before
    obtain ⟨k, count, total⟩ := (h.tally before).count
    exact tally_of_count (t := ⟨g, t.asked, t.dropped⟩) ((congrArg Set.encard waits).trans count)
      (by dsimp only; omega) (h.tally before).left

/-! ### Requests -/

/-- A name that is free gets an entry without firings. -/
theorem Ready.enrol {f : Fleet} (h : Ready m name none f) (actor : Nat) :
    Ready m name (some f.system.entries.length)
        { f with system := f.system.enrol m name actor } ∧
      (f.system.enrol m name actor).awaited f.system.entries.length = ∅ ∧
      jobsOf f.system.entries.length f.waiting = [] ∧
      jobsOf f.system.entries.length f.running = [] := by
  obtain ⟨d, manages, -⟩ := h.accepts
  have manager : (f.system.manager? m).isSome := by
    obtain ⟨k, here, -⟩ := Option.map_eq_some_iff.mp manages
    rw [here]
    rfl
  have system := h.sound.manned.system
  have enrols : Change f.system (f.system.enrol m name actor) := .enrols actor h.tenure.leads
  have keeps : f.system.KeepsOpen (f.system.enrol m name actor) := ⟨rfl, fun _ => rfl⟩
  refine ⟨⟨h.sound.change enrols, h.filed.change system enrols,
    keeps.accepts h.accepts (enrols.manager m), h.tenure.enrol system manager actor⟩, ?_, ?_, ?_⟩
  · rw [Set.eq_empty_iff_forall_notMem]
    rintro q ⟨j, k, found, does, -⟩
    exact system.firing_ne_length (r := q) found does
  · exact jobsOf_of_none h.sound.manned (List.subset_append_left _ _) f.system.entry?_length
  · exact jobsOf_of_none h.sound.manned (List.subset_append_right _ _) f.system.entry?_length

/-- A firing is scheduled for the entry of the name. -/
theorem Ready.scheduleEntry {f : Fleet} (h : Ready m name (some n) f) (now : Nat)
    (delay : Duration) :
    Ready m name (some n) { f with system := f.system.scheduleEntry now m n delay } := by
  have system := h.sound.manned.system
  obtain ⟨e, found, -⟩ := h.serves.alive
  obtain ⟨d, there, named⟩ := system.named h.tenure.leads
  rw [found] at there
  cases there
  have schedules : Change f.system (f.system.scheduleEntry now m n delay) :=
    .schedules now delay ⟨e, found, fun _ => named ▸ h.tenure.leads⟩
  exact ⟨h.sound.change schedules, h.filed.change system schedules,
    (f.system.keepsOpen_scheduleEntry now m n delay).accepts h.accepts (schedules.manager m),
    h.tenure.scheduleEntry system now delay⟩

/-- **A request is refused, or one firing more is scheduled.** -/
theorem Kept.perform (h : Kept m name t) {c : Call} (asks : c.Asks m name) :
    c.perform t.fleet.elapsed t.fleet.system = t.fleet.system ∨
      ∃ r, t.fleet.system.job? r = none ∧
        ((c.perform t.fleet.elapsed t.fleet.system).job? r).isSome ∧
        (∀ q, q ≠ r → (c.perform t.fleet.elapsed t.fleet.system).job? q =
          t.fleet.system.job? q) ∧
        Kept m name ⟨{ t.fleet with system := c.perform t.fleet.elapsed t.fleet.system },
          r :: t.asked, t.dropped⟩ := by
  obtain ⟨f, asked, dropped⟩ := t
  dsimp only at *
  refine (perform_of_asks asks f.elapsed f.system).imp id ?_
  rintro ⟨u, n, delay, same, entry⟩
  -- In either case the entry can be fired by now, and has as many firings as it should.
  obtain ⟨ready, jobs, k, count, total⟩ : Ready m name (some n) { f with system := u } ∧
      (∀ q, u.job? q = f.system.job? q) ∧ ∃ k : Nat, (u.awaited n).encard = k ∧
        k + (jobsOf n f.waiting).length + (jobsOf n f.running).length + dropped.length =
          asked.length := by
    rcases entry with ⟨rfl, leads⟩ | ⟨⟨actor, rfl⟩, rfl, free⟩
    · exact ⟨leads ▸ h.ready, fun _ => rfl, (h.tally leads).count⟩
    · obtain ⟨ready, none, waiting, running⟩ := Ready.enrol (free ▸ h.ready) actor
      obtain ⟨rfl, rfl⟩ := h.fresh free
      refine ⟨ready, fun _ => rfl, 0, ?_, ?_⟩
      · rw [none, Set.encard_empty]
        rfl
      · rw [waiting, running]
        rfl
  obtain ⟨r, absent, waits, others⟩ :=
    ready.serves.awaited_scheduleEntry ready.sound.manned.system.numbered f.elapsed delay
  obtain ⟨j, i, scheduled, -⟩ : r ∈ (u.scheduleEntry f.elapsed m n delay).awaited n := by
    rw [waits]
    exact .inr rfl
  rw [same]
  refine ⟨r, (jobs r).symm.trans absent, by rw [scheduled]; rfl,
    fun q other => (others q other).trans (jobs q), ?_⟩
  refine (ready.scheduleEntry f.elapsed delay).kept (tally_of_count (k := k + 1) ?_ ?_ ?_)
  · dsimp only at waits ⊢
    rw [waits, Set.union_singleton, Set.encard_insert_of_notMem (notMem_awaited absent), count]
    rfl
  · dsimp only
    rw [List.length_cons]
    omega
  · dsimp only
    rw [List.length_cons]
    omega

/-- **A firing that is asked for is one more.** -/
theorem Kept.asks (h : Kept m name t) {c : Call} (asks : c.Asks m name) {r : JobRef}
    (new : t.fleet.system.job? r = none)
    (scheduled : ((c.perform t.fleet.elapsed t.fleet.system).job? r).isSome) :
    Kept m name ⟨{ t.fleet with system := c.perform t.fleet.elapsed t.fleet.system },
      r :: t.asked, t.dropped⟩ := by
  rcases h.perform asks with same | ⟨q, -, -, others, kept⟩
  · rw [same, new] at scheduled
    cases scheduled
  · obtain rfl : r = q := by
      by_contra other
      rw [others r other, new] at scheduled
      cases scheduled
    exact kept

/-! ### Firings that begin -/

theorem awaited_accept {f : Fleet} {x : Flight} {s : ActorSystem} (gone : x.job ∉ s.awaited n)
    (a : Arrival) : (f.accept x a s).system.awaited n = s.awaited n := by
  have finished : (s.finishJob x.job).awaited n = s.awaited n := by
    rw [awaited_finishJob]
    exact Set.sdiff_singleton_eq_self gone
  cases a with
  | runs => rfl
  | waits => rfl
  | dropped => exact finished
  | skipped => exact finished

/-- A firing that begins has waited for its time. -/
theorem mem_awaited_iff {x : Flight} {a : Arrival} {f g : Fleet} (begins : Begins x a f g) :
    x.job ∈ f.system.awaited n ↔ x.entry = n := by
  obtain ⟨begins⟩ := begins
  exact mem_awaited_of_begins begins

/-- It does so no more. -/
theorem awaited_begins {x : Flight} {a : Arrival} {f g : Fleet} (begins : Begins x a f g) :
    g.system.awaited n = f.system.awaited n \ {x.job} := by
  obtain @⟨_, s, begins⟩ := begins
  have begun : (s.fire x.entry x.job).2.awaited n = f.system.awaited n \ {x.job} :=
    (awaited_congr fun q => s.job?_move x.entry _ q).trans (awaited_attend_begin begins)
  rw [awaited_accept _ _, begun]
  rw [begun]
  exact fun mem => mem.2 rfl

theorem jobsOf_accept_of_ne {f : Fleet} {x : Flight} (h : x.entry ≠ n) (a : Arrival)
    (s : ActorSystem) : jobsOf n (f.accept x a s).waiting = jobsOf n f.waiting ∧
      jobsOf n (f.accept x a s).running = jobsOf n f.running := by
  cases a <;> simp [accept, jobsOf_cons_of_ne h]

theorem length_accept (f : Fleet) (x : Flight) (a : Arrival) (s : ActorSystem) :
    (jobsOf x.entry (f.accept x a s).waiting).length +
        (jobsOf x.entry (f.accept x a s).running).length +
        (if a = .dropped ∨ a = .skipped then 1 else 0) =
      (jobsOf x.entry f.waiting).length + (jobsOf x.entry f.running).length + 1 := by
  cases a <;> simp [accept, jobsOf_cons_self] <;> omega

theorem jobsOf_begins_of_ne {x : Flight} {a : Arrival} {f g : Fleet} (begins : Begins x a f g)
    (h : x.entry ≠ n) :
    jobsOf n g.waiting = jobsOf n f.waiting ∧ jobsOf n g.running = jobsOf n f.running := by
  cases begins
  exact jobsOf_accept_of_ne h _ _

/-- A firing that begins is in flight from now on, or it is over. -/
theorem length_begins {x : Flight} {a : Arrival} {f g : Fleet} (begins : Begins x a f g) :
    (jobsOf x.entry g.waiting).length + (jobsOf x.entry g.running).length +
        (if a = .dropped ∨ a = .skipped then 1 else 0) =
      (jobsOf x.entry f.waiting).length + (jobsOf x.entry f.running).length + 1 := by
  cases begins
  exact length_accept f x _ _

/-- One less is left when one is taken away. -/
theorem encard_sdiff_of_mem {refs : Set JobRef} {r : JobRef} {k : Nat} (count : refs.encard = k)
    (mem : r ∈ refs) : ∃ l : Nat, k = l + 1 ∧ (refs \ {r}).encard = l := by
  have fewer := Set.encard_sdiff_singleton_add_one mem
  rw [count] at fewer
  cases k with
  | zero =>
      rw [Nat.cast_zero, Set.encard_eq_zero] at count
      rw [count] at mem
      cases mem
  | succ l =>
      rw [Nat.cast_succ] at fewer
      exact ⟨l, rfl, WithTop.add_right_cancel ENat.one_ne_top fewer⟩

/-- **A firing that begins is in flight, or it is dropped.** -/
theorem Kept.begins {x : Flight} {a : Arrival} {f g : Fleet} {asked dropped : List JobRef}
    (h : Kept m name ⟨f, asked, dropped⟩) (begins : Begins x a f g)
    (leads : f.system.registered? m name = some x.entry) :
    Kept m name ⟨g, asked, if a = .dropped then x.job :: dropped else dropped⟩ := by
  have ready : Ready m name (some x.entry) f := leads ▸ h.ready
  obtain ⟨e, found, alive⟩ := ready.serves.alive
  have arrives := begins.arrival ready.sound found alive
  obtain ⟨c, count, total⟩ := (h.tally leads).count
  have left := (h.tally leads).left
  dsimp only at total left
  obtain ⟨l, rfl, fewer⟩ := encard_sdiff_of_mem count ((mem_awaited_iff begins).mpr rfl)
  have waits := awaited_begins (n := x.entry) begins
  have flights := length_begins begins
  refine (ready.moves (.begins begins)).kept (tally_of_count ((congrArg _ waits).trans fewer) ?_ ?_)
  · dsimp only
    by_cases drops : a = .dropped
    · rw [if_pos (.inl drops)] at flights
      rw [if_pos drops, List.length_cons]
      omega
    · have goes : a ≠ .skipped := by
        rintro rfl
        simp at arrives
      rw [if_neg (fun ended => ended.elim drops goes)] at flights
      rw [if_neg drops]
      omega
  · dsimp only
    by_cases drops : a = .dropped
    · -- Another firing waits, so there are more than those that were dropped.
      have folds : jobsOf x.entry f.waiting ≠ [] := by simpa [drops] using arrives
      have queued := List.length_pos_iff.mpr folds
      rw [if_pos drops, List.length_cons]
      omega
    · rw [if_neg drops]
      exact left

/-! ### Runs that end -/

section Ends

variable {s v : ActorSystem} {x : Flight} {at_ : Int} {result : Option RunResult} {f g : Fleet}
  {tenant : Option Nat} {asked dropped : List JobRef}

theorem length_ends (ends : Ends x at_ result f g) :
    (jobsOf x.entry g.waiting).length + (jobsOf x.entry g.running).length + 1 =
      (jobsOf x.entry f.waiting).length + (jobsOf x.entry f.running).length := by
  cases ends
  dsimp only
  rw [jobsOf_append, jobsOf_append, jobsOf_cons_self, List.length_append, List.length_append,
    List.length_cons]
  omega

theorem jobsOf_ends_of_ne (ends : Ends x at_ result f g) (h : x.entry ≠ n) :
    jobsOf n g.waiting = jobsOf n f.waiting ∧ jobsOf n g.running = jobsOf n f.running := by
  cases ends
  exact ⟨rfl, (jobsOf_middle_of_ne h _ _).symm⟩

/-- What is left to do when the result of a run has been acted on touches no firing that waits
for its time. -/
theorem awaited_over {flights : List Flight} (manned : Manned s flights) (mem : x ∈ flights)
    (changes : Changes s v) :
    ((v.leave x.entry).finishJob x.job).awaited n = v.awaited n := by
  obtain ⟨j, found, started, -⟩ := manned.started mem
  obtain ⟨j', found', -, phase⟩ := changes.job manned.system found
  rw [awaited_finishJob_of_started ((v.job?_leave x.entry x.job).trans found')
    (phase.trans started)]
  exact awaited_congr (v.job?_leave x.entry)

/-- The name leads where it led when a run has ended, if it does after the result of the run
has been acted on. -/
theorem Ready.ends (h : Ready m name tenant f) (ends : Ends x at_ result f g)
    (ended : f.system.endRun f.elapsed x.manager x.entry at_ result = v.leave x.entry)
    (changes : Changes f.system v) (keeps : f.system.KeepsOpen v)
    (tenure : Tenure m name tenant v) : Ready m name tenant g where
  sound := h.sound.ends ends
  filed := by
    rw [ends.system, ended]
    exact (h.filed.changes h.sound.manned.system changes).alike (v.alike_over x.entry x.job)
      (v.keepsOpen_over x.entry x.job)
  accepts := by
    rw [ends.system, ended]
    refine (keeps.trans (v.keepsOpen_over x.entry x.job)).accepts h.accepts ?_
    rw [(v.alike_over x.entry x.job).manager, changes.manager]
  tenure := by
    rw [ends.system, ended]
    exact tenure.alike (v.alike_over x.entry x.job)

/-- **A run that asks for the next one is followed by one firing.** -/
theorem Kept.runs_again {delay : Duration} (h : Kept m name ⟨f, asked, dropped⟩)
    (ends : Ends x at_ (some (.reschedule delay)) f g)
    (leads : f.system.registered? m name = some x.entry) :
    Kept m name ⟨g, asked, dropped⟩ := by
  have ready : Ready m name (some x.entry) f := leads ▸ h.ready
  have mem : x ∈ f.flights := List.mem_append_right _ ends.mem_running
  have owns := ready.sound.owns ends.mem_running
  have manager : x.manager = m := ready.serves.manager_eq ready.filed owns
  obtain ⟨e, found, -⟩ := ready.serves.alive
  -- Counting the success changes no job and leads no name elsewhere.
  have forgives : (f.system.modifyManager m fun k => k.succeeded e.name).Serves m name x.entry :=
    (upholds_succeeded m e.name).serves ready.serves
  have counted : Tenure m name (some x.entry)
      (f.system.modifyManager m fun k => k.succeeded e.name) :=
    ready.tenure.tallies fun _ => rfl
  have tallies : Change f.system (f.system.modifyManager m fun k => k.succeeded e.name) :=
    .tallies fun _ => ⟨rfl, rfl⟩
  have sound := ready.sound.manned.system.change tallies
  obtain ⟨r, absent, waits, -⟩ := forgives.awaited_scheduleEntry sound.numbered f.elapsed delay
  have concluded := conclude_reschedule found f.elapsed m at_ delay
  have changes : Changes f.system (f.system.conclude f.elapsed m x.entry at_ (.reschedule delay)) :=
    changes_conclude (manager ▸ owns) f.elapsed at_ _
  have ended : f.system.endRun f.elapsed x.manager x.entry at_ (some (.reschedule delay)) =
      (f.system.conclude f.elapsed m x.entry at_ (.reschedule delay)).leave x.entry := by
    rw [manager]
    rfl
  obtain ⟨k, count, total⟩ := (h.tally leads).count
  have scheduled : (g.system.awaited x.entry).encard = (k + 1 : Nat) := by
    rw [ends.system, ended, awaited_over ready.sound.manned mem changes, concluded, waits,
      Set.union_singleton, Set.encard_insert_of_notMem (notMem_awaited absent)]
    exact congrArg (· + 1) count
  have flights := length_ends ends
  refine (ready.ends ends ended changes (f.system.keepsOpen_conclude f.elapsed m x.entry at_ _)
    ?_).kept (tally_of_count scheduled ?_ (h.tally leads).left)
  · rw [concluded]
    exact counted.scheduleEntry sound f.elapsed delay
  · dsimp only at total ⊢
    omega

/-- A run of another entry ends. -/
theorem Kept.ends (h : Kept m name ⟨f, asked, dropped⟩) (ends : Ends x at_ result f g)
    (other : f.system.registered? m name ≠ some x.entry) :
    Kept m name ⟨g, asked, dropped⟩ := by
  have ready := h.ready
  have system := ready.sound.manned.system
  have mem : x ∈ f.flights := List.mem_append_right _ ends.mem_running
  obtain ⟨j, job, -, does⟩ := ready.sound.manned.started mem
  obtain ⟨e, found, owns⟩ := ready.sound.manned.owns mem
  -- Its name is another one, for all firings of this name are those of the actor.
  have apart : ¬(m = x.manager ∧ name = e.name) := by
    rintro ⟨rfl, rfl⟩
    exact other (ready.tenure.firings job does found rfl)
  obtain ⟨v, acts, keeps, ended⟩ : ∃ v,
      Acts (fun m' key => m' = x.manager ∧ key = e.name) f.system v ∧ f.system.KeepsOpen v ∧
        f.system.endRun f.elapsed x.manager x.entry at_ result = v.leave x.entry := by
    cases result with
    | none => exact ⟨_, .refl, .refl _, rfl⟩
    | some r =>
        exact ⟨_, acts_conclude found owns ⟨rfl, rfl⟩ f.elapsed at_ r,
          f.system.keepsOpen_conclude f.elapsed x.manager x.entry at_ r, rfl⟩
  refine h.unchanged (ready.ends ends ended acts.changes keeps
    (ready.tenure.acts system acts apart)) fun {n} leads => ⟨?_, ?_⟩
  · rw [ends.system, ended, awaited_over ready.sound.manned mem acts.changes]
    exact Tenure.awaited_acts (leads ▸ ready.tenure) system ready.filed acts apart
  · have apart : x.entry ≠ n := fun same => other (same ▸ leads)
    obtain ⟨waiting, running⟩ := jobsOf_ends_of_ne ends apart
    rw [waiting, running]

end Ends

/-! ### Firings that go on -/

/-- A firing that goes on has not been waiting for its time. -/
theorem awaited_resumes {x : Flight} {a : Arrival} {f g : Fleet} (sound : f.Sound)
    (resumes : Resumes x a f g) : g.system.awaited n = f.system.awaited n := by
  obtain @⟨s, elapsed, before, after, running⟩ := resumes
  have same : ∀ q, (s.proceed x.entry).2.job? q = s.job? q := s.job?_move x.entry _
  obtain ⟨j, found, started, -⟩ := sound.manned.started
    (List.mem_append_left _ (List.mem_append_right _ List.mem_cons_self))
  rw [awaited_accept (notMem_awaited_of_phase ((same x.job).trans found) (by rw [started]; simp))]
  exact awaited_congr same

/-- Whoever goes on for an entry that is served waits no more and runs. -/
theorem length_resumes {x : Flight} {a : Arrival} {f g : Fleet} (resumes : Resumes x a f g)
    (serves : f.system.Serves m name x.entry) :
    (jobsOf x.entry g.waiting).length + (jobsOf x.entry g.running).length =
      (jobsOf x.entry f.waiting).length + (jobsOf x.entry f.running).length := by
  obtain ⟨e, found, alive⟩ := serves.alive
  have goes := resumes.arrival found alive
  obtain @⟨s, elapsed, before, after, running⟩ := resumes
  have flights := length_accept ⟨s, elapsed, before ++ after, running⟩ x (s.proceed x.entry).1
    (s.proceed x.entry).2
  dsimp only at flights ⊢
  rw [if_neg (by rw [goes]; simp), jobsOf_append, List.length_append] at flights
  rw [jobsOf_append, jobsOf_cons_self, List.length_append, List.length_cons]
  omega

theorem jobsOf_resumes_of_ne {x : Flight} {a : Arrival} {f g : Fleet} (resumes : Resumes x a f g)
    (h : x.entry ≠ n) :
    jobsOf n g.waiting = jobsOf n f.waiting ∧ jobsOf n g.running = jobsOf n f.running := by
  obtain @⟨s, elapsed, before, after, running⟩ := resumes
  obtain ⟨waits, runs⟩ := jobsOf_accept_of_ne (f := ⟨s, elapsed, before ++ after, running⟩) h
    (s.proceed x.entry).1 (s.proceed x.entry).2
  exact ⟨waits.trans (jobsOf_middle_of_ne h _ _).symm, runs⟩

/-! ### Everything that happens -/

/-- **What happens in between adds no firing of the actor and takes none away.** -/
theorem Kept.between (h : Kept m name t) {g : Fleet} (st : Between m name t.fleet g) :
    Kept m name ⟨g, t.asked, t.dropped⟩ := by
  obtain ⟨f, asked, dropped⟩ := t
  have ready := h.ready
  have system := ready.sound.manned.system
  dsimp only at st ready
  cases st with
  | calls c apart accepts =>
      have acts := acts_perform system f.elapsed c
      refine h.unchanged ⟨ready.sound.step (.calls c), ready.filed.changes system acts.changes,
        accepts, ready.tenure.acts system acts apart⟩ fun {n} leads => ⟨?_, rfl⟩
      exact Tenure.awaited_acts (leads ▸ ready.tenure) system ready.filed acts apart
  | @begins _ x _ begins other =>
      refine h.unchanged (ready.moves (.begins begins)) fun {n} leads => ?_
      have apart : x.entry ≠ n := fun same => other (same ▸ leads)
      obtain ⟨waiting, running⟩ := jobsOf_begins_of_ne begins apart
      refine ⟨?_, by rw [waiting, running]⟩
      rw [awaited_begins begins]
      exact Set.sdiff_singleton_eq_self fun mem => apart ((mem_awaited_iff begins).mp mem)
  | ends ends other => exact h.ends ends other
  | continues continues =>
      refine h.unchanged (ready.moves (.continues continues)) fun {n} leads => ?_
      cases continues with
      | passes d => exact ⟨rfl, rfl⟩
      | lapses lapses =>
          exact ⟨(Ready.serves (leads ▸ ready)).awaited_attend_over system ready.filed lapses, rfl⟩
      | @resumes _ x _ resumes =>
          refine ⟨awaited_resumes ready.sound resumes, ?_⟩
          by_cases same : x.entry = n
          · subst same
            exact length_resumes resumes (Ready.serves (leads ▸ ready))
          · obtain ⟨waiting, running⟩ := jobsOf_resumes_of_ne resumes same
            rw [waiting, running]
      | hears => exact ⟨awaited_congr fun _ => rfl, rfl⟩

theorem Kept.step (h : Kept m name t) (st : Step m name t u) : Kept m name u := by
  cases st with
  | asks c asks new scheduled => exact h.asks asks new scheduled
  | begins begins leads => exact h.begins begins leads
  | repeats ends leads => exact h.runs_again ends leads
  | between st => exact h.between st

theorem Reachable.kept (h : Reachable m name t) : Kept m name t := by
  obtain ⟨s, blank, accepts, run⟩ := h
  have ready : Ready m name none ⟨s, 0, [], []⟩ := ready_of_blank blank accepts
  have start : Kept m name ⟨⟨s, 0, [], []⟩, [], []⟩ := by
    refine ⟨ready.tenure.leads.symm ▸ ready, fun _ => ⟨rfl, rfl⟩, ?_⟩
    intro n leads
    rw [ready.tenure.leads] at leads
    cases leads
  induction run with
  | refl => exact start
  | tail _ last ih => exact ih.step last

/-- **Each firing that is asked for begins a chain.** The firings of an actor that always wants to
run again are at all times as many as were asked for, but for those that were dropped because
another one waited for the lock. So whenever none of them is in flight or queued, as many wait
for their time, whether those that were asked for have begun by then or not, and at least one
does. -/
theorem Reachable.chains (h : Reachable m name t)
    (leads : t.fleet.system.registered? m name = some n) :
    (t.fleet.system.awaited n).encard + (jobsOf n t.fleet.waiting).length +
        (jobsOf n t.fleet.running).length + t.dropped.length = t.asked.length ∧
      (jobsOf n t.fleet.waiting = [] → jobsOf n t.fleet.running = [] →
        (t.fleet.system.awaited n).encard + t.dropped.length = t.asked.length ∧
          (t.fleet.system.awaited n).Nonempty) := by
  have tally := h.kept.tally leads
  refine ⟨tally.total, fun nobody idle => ?_⟩
  have total := tally.total
  rw [nobody, idle, List.length_nil, Nat.cast_zero, add_zero, add_zero] at total
  refine ⟨total, Set.nonempty_iff_ne_empty.mpr fun none => ?_⟩
  have left := tally.left
  rw [none, Set.encard_empty, zero_add, Nat.cast_inj] at total
  omega

/-! ### An actor that is woken once -/

/-- The repeater after a firing has begun and has run the actor at once, as the only one. -/
def attempt (t : Repeater) (job : JobRef) (delay : Duration) : Repeater :=
  let begun := (t.fleet.system.attend t.fleet.elapsed job).2
  ⟨⟨((begun.fire 0 job).2.endRun t.fleet.elapsed 0 0 0 (some (.reschedule delay))).finishJob job,
    t.fleet.elapsed, [], []⟩, t.asked, t.dropped⟩

theorem Reachable.attempt (h : Reachable 0 name t) (job : JobRef) {s : ActorSystem}
    (waiting : t.fleet.waiting = []) (running : t.fleet.running = [])
    (begins : t.fleet.system.attend t.fleet.elapsed job = (.begin (.firing 0 0), s))
    (runs : (s.fire 0 job).1 = .runs) (leads : t.fleet.system.registered? 0 name = some 0)
    (led : (s.fire 0 job).2.registered? 0 name = some 0) (delay : Duration) :
    Reachable 0 name (t.attempt job delay) := by
  obtain ⟨s₀, blank, accepts, run⟩ := h
  obtain ⟨⟨system, elapsed, _, _⟩, asked, dropped⟩ := t
  subst waiting running
  have begun : Step 0 name ⟨⟨system, elapsed, [], []⟩, asked, dropped⟩
      ⟨⟨(s.fire 0 job).2, elapsed, [], [⟨job, 0, 0⟩]⟩, asked, dropped⟩ := by
    have step := @Step.begins 0 name ⟨system, elapsed, [], []⟩ _ asked dropped ⟨job, 0, 0⟩ _
      (.intro begins) leads
    rw [runs] at step
    exact step
  refine ⟨s₀, blank, accepts, (run.tail begun).tail ?_⟩
  unfold Repeater.attempt
  dsimp only
  rw [begins]
  exact .repeats (ends_alone ⟨job, 0, 0⟩ 0 (some (.reschedule delay)) _ _ _) led

/-- The repeater after somebody has woken the actor. -/
def woken (t : Repeater) (job : JobRef) : Repeater :=
  ⟨{ t.fleet with system := (Call.wake 0 "x" 0).perform t.fleet.elapsed t.fleet.system },
    job :: t.asked, t.dropped⟩

theorem Reachable.woken (h : Reachable 0 "x" t) (job : JobRef)
    (new : t.fleet.system.job? job = none)
    (scheduled : ((t.woken job).fleet.system.job? job).isSome) :
    Reachable 0 "x" (t.woken job) := by
  obtain ⟨s, blank, accepts, run⟩ := h
  exact ⟨s, blank, accepts, run.tail (.asks (.wake 0 "x" 0) ⟨rfl, rfl⟩ new scheduled)⟩

/-- An actor that is registered as the first one of the only manager. -/
def registered : Repeater :=
  ⟨⟨(Call.register 0 "x" 0 0).perform 0 ⟨[], [⟨[], 0, none, none, none⟩], [.empty], []⟩, 0, [],
    []⟩, [⟨0, 1⟩], []⟩

theorem reachable_registered : Reachable 0 "x" registered := by
  refine ⟨⟨[], [⟨[], 0, none, none, none⟩], [.empty], []⟩, ⟨rfl, by simp, by simp [Scheduler.empty]⟩,
    ⟨0, rfl, by decide, rfl⟩, .single ?_⟩
  exact .asks (.register 0 "x" 0 0) ⟨rfl, rfl⟩ rfl rfl

/-- It has run, was woken once, and has run again. -/
def twice : Repeater :=
  ((registered.attempt ⟨0, 1⟩ (.ofSeconds 1)).woken ⟨0, 3⟩).attempt ⟨0, 3⟩ (.ofSeconds 1)

theorem reachable_twice : Reachable 0 "x" twice := by
  have first := reachable_registered.attempt ⟨0, 1⟩ rfl rfl rfl rfl rfl rfl (.ofSeconds 1)
  exact (first.woken ⟨0, 3⟩ rfl rfl).attempt ⟨0, 3⟩ rfl rfl rfl rfl rfl rfl (.ofSeconds 1)

/-- Two firings were asked for and none was dropped, so two wait for their time. -/
theorem chains_of_twice :
    ∃ t : Repeater, Reachable 0 "x" t ∧ t.fleet.system.registered? 0 "x" = some 0 ∧
      jobsOf 0 t.fleet.waiting = [] ∧ jobsOf 0 t.fleet.running = [] ∧ t.asked.length = 2 ∧
      (t.fleet.system.awaited 0).encard = 2 := by
  obtain ⟨total, -⟩ := (reachable_twice.chains rfl).2 rfl rfl
  have total : (twice.fleet.system.awaited 0).encard + (0 : Nat) = (2 : Nat) := total
  exact ⟨twice, reachable_twice, rfl, rfl, rfl, rfl, by simpa using total⟩

/-- Though every firing that was asked for has begun and no run is in flight or queued, there is
more than one firing. -/
theorem two_chains :
    ∃ t : Repeater, Reachable 0 "x" t ∧ t.fleet.system.registered? 0 "x" = some 0 ∧
      jobsOf 0 t.fleet.waiting = [] ∧ jobsOf 0 t.fleet.running = [] ∧
      (∀ r ∈ t.asked, r ∉ t.fleet.system.awaited 0) ∧
      1 < (t.fleet.system.awaited 0).encard := by
  refine ⟨twice, reachable_twice, rfl, rfl, rfl, ?_, ?_⟩
  · intro r mem
    rcases List.mem_cons.mp mem with rfl | mem
    · exact notMem_awaited_of_phase (s := twice.fleet.system) rfl (by decide)
    · rw [List.mem_singleton.mp mem]
      exact notMem_awaited_of_phase (s := twice.fleet.system) rfl (by decide)
  · refine Set.one_lt_encard_iff.mpr ⟨⟨0, 2⟩, ⟨0, 4⟩, ?_, ?_, by decide⟩
    · exact ⟨_, 0, rfl, rfl, rfl, rfl⟩
    · exact ⟨_, 0, rfl, rfl, rfl, rfl⟩

end Repeater

end RecurringWork
