import RecurringWork.Proofs.Actor.Lane

/-!
# RecurringWork.Proofs.Actor.Folding

**Firings are folded, and none is lost.** A firing that finds another one waiting is
dropped, because the one that waits will run the actor after it. That it does is shown
in two ways: of a finite trace, by where the waiting firing is at its end
(`Trace.waiting`), and of an execution without end in which runs end and whoever is
given the lock goes on, by the run itself (`Execution.Fair.resumes`).

What firings add up to is counted. While a run is in flight only arrivals touch the
slot, and only the first of them claims it (`Tidy.during_run`). After that, if nothing
more arrives, each firing that waits is worth one run (`Tidy.without_arrivals`).
-/

namespace RecurringWork.Lane

/-! ### Events -/

/-- The firing that begins to run the actor. -/
def Event.starts? : Event → Option JobRef
  | .fired firing .runs | .resumed firing .runs => some firing
  | _ => none

/-- A run begins. -/
def Event.isStart (e : Event) : Bool := e.starts?.isSome

/-- A firing arrives. -/
def Event.isArrival : Event → Bool
  | .fired _ _ => true
  | _ => false

/-! ### The firing that waits -/

/-- A firing that waits goes on waiting until it goes on. -/
theorem Step.waiting {l m : Lane} {e : Event} (st : Step l e m) {w : JobRef}
    (waits : w ∈ l.waiting) : w ∈ m.waiting ∨ ∃ arrival, e = .resumed w arrival := by
  cases st with
  | @fires firing _ _ =>
      left
      unfold accept
      split
      · exact waits
      · exact List.mem_cons_of_mem _ waits
      · exact waits
      · exact waits
  | @resumes firing _ _ =>
      by_cases same : w = firing
      · exact .inr ⟨_, by rw [same]⟩
      · left
        have stays : w ∈ l.waiting.erase firing := (List.mem_erase_of_ne same).mpr waits
        unfold accept
        split
        · exact stays
        · exact List.mem_cons_of_mem _ stays
        · exact stays
        · exact stays
  | ends _ => exact .inl waits
  | cancels => exact .inl waits
  | schedules => exact .inl waits
  | idles => exact .inl waits

/-- Whoever goes on with the lock runs the actor, unless the entry is cancelled. -/
theorem Step.resumed {l m : Lane} {w : JobRef} {arrival : Arrival}
    (st : Step l (.resumed w arrival) m) :
    l.entry.holder = some w ∧
      (arrival = .runs ∨ arrival = .skipped ∧ l.entry.cancelled = true) := by
  cases st with
  | resumes _ holds =>
      refine ⟨holds, ?_⟩
      unfold Entry.proceed Entry.start
      split
      · next dead => exact .inr ⟨rfl, dead⟩
      · exact .inl rfl

theorem entry_accept (l : Lane) (firing : JobRef) (m : Move) :
    (l.accept firing m).entry = m.entry := by
  unfold accept
  split <;> rfl

/-- A cancelled entry stays cancelled. -/
theorem Step.cancelled {l m : Lane} {e : Event} (st : Step l e m)
    (dead : l.entry.cancelled = true) : m.entry.cancelled = true := by
  cases st with
  | @fires firing _ _ =>
      rw [entry_accept, ← Entry.cancelled_core, Entry.core_fire]
      exact dead
  | resumes =>
      rw [entry_accept, ← Entry.cancelled_core, Entry.core_proceed]
      exact dead
  | ends =>
      rw [← Entry.cancelled_core, Entry.core_leave]
      exact dead
  | cancels => rfl
  | schedules => exact dead
  | idles => exact dead

theorem Trace.cancelled {l m : Lane} {es : List Event} (run : Trace l es m)
    (dead : l.entry.cancelled = true) : m.entry.cancelled = true := by
  induction run with
  | refl => exact dead
  | head st _ ih => exact ih (st.cancelled dead)

/-- **A firing that waits still waits at the end of a trace, or it has gone on in it**,
and then it has run the actor unless the entry is cancelled. -/
theorem Trace.waiting {l m : Lane} {es : List Event} (run : Trace l es m) {w : JobRef}
    (waits : w ∈ l.waiting) :
    w ∈ m.waiting ∨ .resumed w .runs ∈ es ∨ m.entry.cancelled = true := by
  induction run with
  | refl => exact .inl waits
  | @head l k m e es st rest ih =>
      rcases st.waiting waits with still | ⟨arrival, rfl⟩
      · rcases ih still with still | began | dead
        · exact .inl still
        · exact .inr (.inl (List.mem_cons_of_mem _ began))
        · exact .inr (.inr dead)
      · -- It has gone on: to a run, or to nothing on an entry that stays cancelled.
        rcases st.resumed.2 with rfl | ⟨-, dead⟩
        · exact .inr (.inl List.mem_cons_self)
        · exact .inr (.inr (rest.cancelled (st.cancelled dead)))

/-- A firing is dropped only while another one waits, and changes nothing. -/
theorem Tidy.dropped {l m : Lane} {firing : JobRef} (h : l.Tidy)
    (st : Step l (.fired firing .dropped) m) : ∃ w, l.waiting = [w] ∧ m = l := by
  generalize event : Event.fired firing .dropped = e at st
  cases st with
  | @fires f _ _ =>
      cases h with
      | @free _ _ cancelled _ => cases cancelled <;> cases event
      | busy => cases event
      | @crowded _ _ _ _ r w other => exact ⟨w, rfl, rfl⟩
      | @handed _ _ _ _ w => exact ⟨w, rfl, rfl⟩
  | resumes => cases event
  | ends => cases event
  | cancels => cases event
  | schedules => cases event
  | idles => cases event

/-! ### What firings add up to -/

/-- A run begins with nobody waiting. -/
theorem Tidy.begun {l m : Lane} {e : Event} {r : JobRef} (h : l.Tidy) (st : Step l e m)
    (begins : e.starts? = some r) : m.running = [r] ∧ m.waiting = [] := by
  cases st with
  | fires =>
      cases h with
      | @free _ _ cancelled _ =>
          cases cancelled with
          | false => cases begins; exact ⟨rfl, rfl⟩
          | true => cases begins
      | busy => cases begins
      | crowded => cases begins
      | handed => cases begins
  | resumes waits holds =>
      obtain ⟨name, actor, cancelled, latest, rfl⟩ := h.alone waits holds
      cases cancelled with
      | false =>
          cases begins
          simp [Entry.proceed, Entry.resume, Entry.start, accept]
      | true => cases begins
  | ends => cases begins
  | cancels => cases begins
  | schedules => cases begins
  | idles => cases begins

/-- While a run is in flight no other one begins, and somebody waits once a firing has
arrived. -/
theorem Tidy.step_during_run {l m : Lane} {e : Event} {r : JobRef} (h : l.Tidy)
    (runs : l.running = [r]) (st : Step l e m) (flight : e ≠ .ended r) :
    m.running = [r] ∧ e.isStart = false ∧
      (l.waiting ≠ [] ∨ e.isArrival = true → m.waiting ≠ []) := by
  cases h with
  | free => cases runs
  | busy =>
      cases runs
      cases st with
      | fires => exact ⟨rfl, rfl, fun _ => List.cons_ne_nil _ _⟩
      | resumes waits => cases waits
      | ends ending =>
          rw [List.mem_singleton] at ending
          exact absurd (congrArg Event.ended ending) flight
      | cancels => exact ⟨rfl, rfl, by simp [Event.isArrival]⟩
      | schedules => exact ⟨rfl, rfl, by simp [Event.isArrival]⟩
      | idles => exact ⟨rfl, rfl, by simp [Event.isArrival]⟩
  | crowded other =>
      cases runs
      cases st with
      | fires => exact ⟨rfl, rfl, fun _ => List.cons_ne_nil _ _⟩
      | resumes waits holds =>
          -- The run has the lock, so nobody can go on with it.
          obtain ⟨_, _, _, _, alone⟩ := (Tidy.crowded other).alone waits holds
          cases alone
      | ends ending =>
          rw [List.mem_singleton] at ending
          exact absurd (congrArg Event.ended ending) flight
      | cancels => exact ⟨rfl, rfl, fun _ => List.cons_ne_nil _ _⟩
      | schedules => exact ⟨rfl, rfl, fun _ => List.cons_ne_nil _ _⟩
      | idles => exact ⟨rfl, rfl, fun _ => List.cons_ne_nil _ _⟩
  | handed => cases runs

theorem Tidy.during_run {l m : Lane} {es : List Event} {r : JobRef} (h : l.Tidy)
    (runs : l.running = [r]) (run : Trace l es m) (flight : .ended r ∉ es) :
    m.running = [r] ∧ es.countP Event.isStart = 0 ∧
      (l.waiting ≠ [] ∨ (∃ e ∈ es, e.isArrival = true) → m.waiting ≠ []) := by
  induction run with
  | refl => exact ⟨runs, rfl, by simp⟩
  | @head l k m e es st rest ih =>
      have now : e ≠ .ended r := fun same => flight (same ▸ List.mem_cons_self)
      obtain ⟨still, none, waits⟩ := h.step_during_run runs st now
      obtain ⟨end_, nobody, later⟩ := ih (h.step st) still fun mem =>
        flight (List.mem_cons_of_mem _ mem)
      refine ⟨end_, ?_, fun somebody => later ?_⟩
      · rw [List.countP_cons_of_neg (by simp [none]), nobody]
      · rcases somebody with before | ⟨f, mem, arrives⟩
        · exact .inl (waits (.inl before))
        · rcases List.mem_cons.mp mem with rfl | mem
          · exact .inl (waits (.inr arrives))
          · exact .inr ⟨f, mem, arrives⟩

/-- Where nothing arrives, each firing that stops waiting is a run that begins. -/
theorem Tidy.step_without_arrivals {l m : Lane} {e : Event} (h : l.Tidy) (st : Step l e m)
    (quiet : e.isArrival = false) (live : m.entry.cancelled = false) :
    [e].countP Event.isStart + m.waiting.length = l.waiting.length := by
  cases st with
  | fires => cases quiet
  | resumes waits holds =>
      obtain ⟨name, actor, cancelled, latest, rfl⟩ := h.alone waits holds
      rw [entry_accept, ← Entry.cancelled_core, Entry.core_proceed] at live
      cases live
      simp [Entry.proceed, Entry.resume, Entry.start, accept, Event.isStart, Event.starts?]
  | ends => exact Nat.zero_add _
  | cancels => exact Nat.zero_add _
  | schedules => exact Nat.zero_add _
  | idles => exact Nat.zero_add _

theorem Tidy.without_arrivals {l m : Lane} {es : List Event} (h : l.Tidy) (run : Trace l es m)
    (quiet : ∀ e ∈ es, e.isArrival = false) (live : m.entry.cancelled = false) :
    es.countP Event.isStart + m.waiting.length = l.waiting.length := by
  induction run with
  | refl => exact Nat.zero_add _
  | @head l k m e es st rest ih =>
      have alive : k.entry.cancelled = false := by
        cases dead : k.entry.cancelled with
        | false => rfl
        | true =>
            rw [rest.cancelled dead] at live
            cases live
      have first := h.step_without_arrivals st (quiet e List.mem_cons_self) alive
      have others := ih (h.step st) (fun f mem => quiet f (List.mem_cons_of_mem _ mem)) live
      rw [List.countP_cons]
      rw [List.countP_singleton] at first
      omega

/-- **However many firings arrive while a run is in flight, they cause one more run.**
Nothing arrives after it, and at the end nobody waits. -/
theorem Reachable.one_more_run {l k m : Lane} {e : Event} {r : JobRef} {during after : List Event}
    (h : l.Reachable) (st : Step l e k) (begins : e.starts? = some r)
    (run : Trace k (during ++ .ended r :: after) m) (flight : .ended r ∉ during)
    (some : ∃ f ∈ during, f.isArrival = true) (quiet : ∀ f ∈ after, f.isArrival = false)
    (live : m.entry.cancelled = false) (rest : m.waiting = []) :
    (during ++ .ended r :: after).countP Event.isStart = 1 := by
  obtain ⟨runs, -⟩ := h.tidy.begun st begins
  obtain ⟨a, first, second⟩ := run.split
  obtain ⟨-, nobody, waits⟩ := (h.tidy.step st).during_run runs first flight
  have tidy : a.Tidy := (h.tidy.step st).trace first
  -- Somebody waits when the run ends, and there is room for no more than one.
  have one : a.waiting.length = 1 := by
    have short := tidy.waiting_short
    have filled := List.length_pos_iff.mpr (waits (.inr some))
    omega
  have after_run := tidy.without_arrivals second (fun f mem => by
    rcases List.mem_cons.mp mem with rfl | mem
    · rfl
    · exact quiet f mem) live
  rw [rest, one] at after_run
  rw [List.countP_append, nobody]
  exact (Nat.zero_add _).trans after_run

/-! ### Executions without end -/

/-- An execution that goes on forever, at least by things that happen elsewhere. -/
structure Execution where
  lane : Nat → Lane
  event : Nat → Event
  start : (lane 0).Reachable
  step : ∀ n, Step (lane n) (event n) (lane (n + 1))

namespace Execution

/-- Every run ends, and whoever has been given the lock goes on. -/
structure Fair (x : Execution) : Prop where
  run_ends : ∀ {n : Nat} {r : JobRef}, r ∈ (x.lane n).running →
    ∃ m, n ≤ m ∧ x.event m = .ended r
  handed_resumes : ∀ {n : Nat} {w : JobRef}, w ∈ (x.lane n).waiting →
    (x.lane n).entry.holder = some w → ∃ m arrival, n ≤ m ∧ x.event m = .resumed w arrival

theorem reachable (x : Execution) (n : Nat) : (x.lane n).Reachable := by
  induction n with
  | zero => exact x.start
  | succ n ih => exact ih.step (x.step n)

/-- A firing that waits does so until it goes on. -/
theorem waiting_or_resumed (x : Execution) {n : Nat} {w : JobRef} (waits : w ∈ (x.lane n).waiting)
    (k : Nat) : w ∈ (x.lane (n + k)).waiting ∨
      ∃ m arrival, n ≤ m ∧ x.event m = .resumed w arrival := by
  induction k with
  | zero => exact .inl waits
  | succ k ih =>
      rcases ih with still | gone
      · rcases (x.step (n + k)).waiting still with still | ⟨arrival, resumed⟩
        · exact .inl still
        · exact .inr ⟨n + k, arrival, Nat.le_add_right n k, resumed⟩
      · exact .inr gone

/-- When a run ends behind which a firing waits, that firing is given the lock. -/
theorem handed_of_ended (x : Execution) {n : Nat} {r w : JobRef} (ended : x.event n = .ended r)
    (waits : w ∈ (x.lane n).waiting) :
    w ∈ (x.lane (n + 1)).waiting ∧ (x.lane (n + 1)).entry.holder = some w := by
  have st := x.step n
  have tidy := (x.reachable n).tidy
  rw [ended] at st
  generalize x.lane (n + 1) = after at st ⊢
  generalize x.lane n = before at st waits tidy
  cases st with
  | ends runs =>
      cases tidy with
      | free => cases runs
      | busy => cases waits
      | crowded =>
          rw [List.mem_singleton] at waits
          subst waits
          exact ⟨List.mem_singleton_self _, rfl⟩
      | handed => cases runs

/-- **A firing that waits runs the actor in the end.** -/
theorem Fair.resumes {x : Execution} (fair : x.Fair)
    (live : ∀ n, (x.lane n).entry.cancelled = false) {n : Nat} {w : JobRef}
    (waits : w ∈ (x.lane n).waiting) : ∃ m, n ≤ m ∧ x.event m = .resumed w .runs := by
  have goes_on : ∃ m arrival, n ≤ m ∧ x.event m = .resumed w arrival := by
    -- It has been given the lock, or will be when the run ends that it waits for.
    rcases (x.reachable n).tidy.waits_for waits with holds | ⟨r, runs⟩
    · exact fair.handed_resumes waits holds
    · obtain ⟨k, later, ended⟩ := fair.run_ends runs
      obtain ⟨d, rfl⟩ := Nat.exists_eq_add_of_le later
      rcases x.waiting_or_resumed waits d with still | gone
      · obtain ⟨waits', holds⟩ := x.handed_of_ended ended still
        obtain ⟨m, arrival, after, resumed⟩ := fair.handed_resumes waits' holds
        exact ⟨m, arrival, by omega, resumed⟩
      · exact gone
  obtain ⟨m, arrival, later, resumed⟩ := goes_on
  have st := x.step m
  rw [resumed] at st
  rcases st.resumed.2 with rfl | ⟨-, dead⟩
  · exact ⟨m, later, resumed⟩
  · rw [live m] at dead
    cases dead

/-- A firing runs the actor at once, or finds or becomes the one that waits. -/
theorem fired (x : Execution) (live : ∀ n, (x.lane n).entry.cancelled = false) {n : Nat}
    {firing : JobRef} {arrival : Arrival} (fires : x.event n = .fired firing arrival) :
    arrival = .runs ∨ (∃ w, w ∈ (x.lane n).waiting ∧ arrival = .dropped) ∨
      firing ∈ (x.lane (n + 1)).waiting ∧ arrival = .waits := by
  have st := x.step n
  have tidy := (x.reachable n).tidy
  have alive := live n
  rw [fires] at st
  generalize x.lane (n + 1) = after at st ⊢
  generalize x.lane n = before at st tidy alive ⊢
  cases st with
  | fires =>
      cases tidy with
      | free => cases alive; exact .inl rfl
      | busy => exact .inr (.inr ⟨List.mem_singleton_self _, rfl⟩)
      | crowded => exact .inr (.inl ⟨_, List.mem_singleton_self _, rfl⟩)
      | handed => exact .inr (.inl ⟨_, List.mem_singleton_self _, rfl⟩)

end Execution

/-! ### The theorem -/

/-- **Folding is exact and loses nothing.** At any time at most one run is in flight and
at most one firing waits, and the slot is claimed exactly while one waits. A firing is
dropped only while another one waits, which goes on to run the actor after it. While
the entry is not cancelled, every firing is followed by a run that begins no earlier:
its own, or that of the firing that waits when it arrives. And the firings that arrive
while one run is in flight cause exactly one more. -/
theorem folding :
    (∀ l : Lane, l.Reachable → l.running.length ≤ 1 ∧ l.waiting.length ≤ 1 ∧
      (l.entry.slotTaken = true ↔ l.waiting ≠ []) ∧ l.entry.queue ⊆ l.waiting) ∧
    (∀ (l k : Lane) (firing : JobRef), l.Reachable → Step l (.fired firing .dropped) k →
      ∃ w, l.waiting = [w] ∧ ∀ es m, Trace k es m →
        w ∈ m.waiting ∨ .resumed w .runs ∈ es ∨ m.entry.cancelled = true) ∧
    (∀ x : Execution, x.Fair → (∀ n, (x.lane n).entry.cancelled = false) →
      ∀ n firing arrival, x.event n = .fired firing arrival →
        ∃ m r, n ≤ m ∧ (x.event m).starts? = some r ∧
          (r = firing ∨ r ∈ (x.lane n).waiting ∧ arrival = .dropped)) ∧
    ∀ (l k m : Lane) (e : Event) (r : JobRef) (during after : List Event), l.Reachable →
      Step l e k → e.starts? = some r → Trace k (during ++ .ended r :: after) m →
      .ended r ∉ during → (∃ f ∈ during, f.isArrival = true) →
      (∀ f ∈ after, f.isArrival = false) → m.entry.cancelled = false → m.waiting = [] →
        (during ++ .ended r :: after).countP Event.isStart = 1 := by
  refine ⟨fun l h => ?_, fun l k firing h st => ?_, fun x fair live n firing arrival fires => ?_,
    fun l k m e r during after h st begins run flight some quiet live rest =>
      h.one_more_run st begins run flight some quiet live rest⟩
  · have tidy := h.tidy
    exact ⟨tidy.running_short, tidy.waiting_short, tidy.slotTaken_iff, tidy.queue_subset⟩
  · obtain ⟨w, waits, rfl⟩ := h.tidy.dropped st
    refine ⟨w, waits, fun es m run => run.waiting ?_⟩
    rw [waits]
    exact List.mem_singleton_self w
  · rcases x.fired live fires with rfl | ⟨w, waits, dropped⟩ | ⟨waits, -⟩
    · exact ⟨n, firing, Nat.le_refl n, by rw [fires]; rfl, .inl rfl⟩
    · obtain ⟨m, later, resumed⟩ := fair.resumes live waits
      exact ⟨m, w, later, by rw [resumed]; rfl, .inr ⟨waits, dropped⟩⟩
    · obtain ⟨m, later, resumed⟩ := fair.resumes live waits
      exact ⟨m, firing, by omega, by rw [resumed]; rfl, .inl rfl⟩

/-- Three firings arrive during the run of another one. Two of them are dropped. -/
theorem folding_of_three :
    let job : Nat → JobRef := fun n => ⟨0, n⟩
    [Event.fired (job 2) .waits, .fired (job 3) .dropped, .fired (job 4) .dropped,
      .ended (job 1), .resumed (job 2) .runs, .ended (job 2)].countP Event.isStart = 1 := by
  intro job
  let busy (firing : Option JobRef) (queue : List JobRef) (slot : Bool) : Entry :=
    ⟨"worker", 0, false, firing, queue, slot, none⟩
  have first : Step (ofActor "worker" 0) (.fired (job 1) .runs)
      ⟨busy (some (job 1)) [] false, [], [job 1]⟩ :=
    Step.fires (by decide) (by decide)
  have queued : Step ⟨busy (some (job 1)) [] false, [], [job 1]⟩ (.fired (job 2) .waits)
      ⟨busy (some (job 1)) [job 2] true, [job 2], [job 1]⟩ :=
    Step.fires (by decide) (by decide)
  have dropped : ∀ n, 2 < n →
      Step ⟨busy (some (job 1)) [job 2] true, [job 2], [job 1]⟩ (.fired (job n) .dropped)
        ⟨busy (some (job 1)) [job 2] true, [job 2], [job 1]⟩ := fun n h =>
    Step.fires (by simp [job]; omega) (by simp [job]; omega)
  have handed : Step ⟨busy (some (job 1)) [job 2] true, [job 2], [job 1]⟩ (.ended (job 1))
      ⟨busy (some (job 2)) [] true, [job 2], []⟩ :=
    Step.ends (List.mem_singleton_self _)
  have resumed : Step ⟨busy (some (job 2)) [] true, [job 2], []⟩ (.resumed (job 2) .runs)
      ⟨busy (some (job 2)) [] false, [], [job 2]⟩ :=
    Step.resumes (List.mem_singleton_self _) rfl
  have ended : Step ⟨busy (some (job 2)) [] false, [], [job 2]⟩ (.ended (job 2))
      ⟨busy none [] false, [], []⟩ :=
    Step.ends (List.mem_singleton_self _)
  exact folding.2.2.2 _ _ _ _ (job 1)
    [.fired (job 2) .waits, .fired (job 3) .dropped, .fired (job 4) .dropped]
    [.resumed (job 2) .runs, .ended (job 2)] ⟨_, _, _, .refl _⟩ first rfl
    (.head queued (.head (dropped 3 (by decide)) (.head (dropped 4 (by decide))
      (.head handed (.head resumed (.head ended (.refl _)))))))
    (by simp) ⟨_, List.mem_cons_self, rfl⟩ (by simp [Event.isArrival]) rfl rfl

end RecurringWork.Lane
