import RecurringWork.Actor.Entry

/-!
# RecurringWork.Proofs.Actor.Lane

**The firings of one entry, in every order in which they can follow each other.** A
`Lane` is an entry with its firings that have arrived and are not over: those that wait
and those that run the actor. A `Step` of it is what one firing does between two awaits
(`Entry.fire`, `Entry.proceed`, `Entry.leave`), or what happens to the entry from
outside.

The lock, the slot and the queue change in different steps, but together they are only
ever in one of four conditions (`Lane.Tidy`):

* nobody is there;
* a firing runs the actor, and nobody waits;
* a firing runs the actor, and another one waits;
* a firing has been given the lock and has not gone on yet, and nobody runs.

That every step leads from one of them to one of them is all that there is to prove
about the lock. What firings come to is in `RecurringWork.Proofs.Actor.Folding`.
-/

namespace RecurringWork

namespace Entry

/-- A firing of an entry that is not cancelled runs the actor, waits, or finds another one
waiting. -/
theorem arrival_fire_of_alive {e : Entry} (alive : e.cancelled = false) (firing : JobRef) :
    (e.fire firing).arrival = .runs ∨ (e.fire firing).arrival = .waits ∨
      (e.fire firing).arrival = .dropped ∧ e.slotTaken = true := by
  unfold fire arrive
  by_cases free : e.holder.isNone
  · left
    simp [free, start, alive]
  · right
    by_cases slot : e.slotTaken
    · right
      simp [free, slot]
    · left
      simp [free, slot]

theorem arrival_proceed_of_alive {e : Entry} (alive : e.cancelled = false) :
    e.proceed.arrival = .runs := by
  simp [proceed, resume, start, alive]

end Entry

/-- An entry with its firings that are not over. -/
structure Lane where
  entry : Entry
  /-- The firings that have claimed the slot and have not gone on since. -/
  waiting : List JobRef
  /-- The firings that run the actor. -/
  running : List JobRef

namespace Lane

/-- The lane of a fresh entry. -/
def ofActor (name : String) (actor : Nat) : Lane := ⟨.ofActor name actor, [], []⟩

/-- What happens on a lane. -/
inductive Event
  /-- A firing arrives, and this becomes of it. -/
  | fired (firing : JobRef) (arrival : Arrival)
  /-- A firing that was given the lock goes on, and this becomes of it. -/
  | resumed (firing : JobRef) (arrival : Arrival)
  /-- A run ends. -/
  | ended (firing : JobRef)
  /-- The entry is cancelled. -/
  | cancelled
  /-- A further firing is scheduled. -/
  | scheduled (firing : JobRef)
  /-- Something happens elsewhere. -/
  | idled

/-- The lane after a firing has made a move on its entry. -/
def accept (l : Lane) (firing : JobRef) (m : Move) : Lane :=
  match m.arrival with
  | .runs => ⟨m.entry, l.waiting, firing :: l.running⟩
  | .waits => ⟨m.entry, firing :: l.waiting, l.running⟩
  | .dropped | .skipped => ⟨m.entry, l.waiting, l.running⟩

/-- One thing that happens. -/
inductive Step : Lane → Event → Lane → Prop
  /-- A firing arrives. It is none of those that are there. -/
  | fires {l : Lane} {firing : JobRef} : firing ∉ l.waiting → firing ∉ l.running →
      Step l (.fired firing (l.entry.fire firing).arrival)
        (l.accept firing (l.entry.fire firing))
  /-- A firing that waits goes on once the lock is its own. -/
  | resumes {l : Lane} {firing : JobRef} : firing ∈ l.waiting → l.entry.holder = some firing →
      Step l (.resumed firing l.entry.proceed.arrival)
        (({ l with waiting := l.waiting.erase firing } : Lane).accept firing l.entry.proceed)
  /-- A run ends, however it ends. -/
  | ends {l : Lane} {firing : JobRef} : firing ∈ l.running →
      Step l (.ended firing) ⟨l.entry.leave.2, l.waiting, l.running.erase firing⟩
  /-- The entry is cancelled, which a run may also do by itself. -/
  | cancels {l : Lane} : Step l .cancelled { l with entry := l.entry.cancel }
  /-- A firing is scheduled. It arrives later, if at all. -/
  | schedules {l : Lane} (firing : JobRef) :
      Step l (.scheduled firing) { l with entry := { l.entry with latest := some firing } }
  | idles {l : Lane} : Step l .idled l

/-- Things that happen one after the other. -/
inductive Trace : Lane → List Event → Lane → Prop
  | refl (l : Lane) : Trace l [] l
  | head {l m n : Lane} {e : Event} {es : List Event} :
      Step l e m → Trace m es n → Trace l (e :: es) n

/-- What can come of the lane of a fresh entry. -/
def Reachable (l : Lane) : Prop := ∃ name actor es, Trace (ofActor name actor) es l

theorem Trace.append {l m n : Lane} {es fs : List Event} (first : Trace l es m)
    (second : Trace m fs n) : Trace l (es ++ fs) n := by
  induction first with
  | refl => exact second
  | head st _ ih => exact .head st (ih second)

theorem Reachable.trace {l m : Lane} {es : List Event} (h : l.Reachable) (run : Trace l es m) :
    m.Reachable := by
  obtain ⟨name, actor, fs, start⟩ := h
  exact ⟨name, actor, fs ++ es, start.append run⟩

theorem Reachable.step {l m : Lane} {e : Event} (h : l.Reachable) (st : Step l e m) :
    m.Reachable :=
  h.trace (.head st (.refl m))

/-- A trace passes through a lane between any two parts of its events. -/
theorem Trace.split {l n : Lane} {es fs : List Event} (h : Trace l (es ++ fs) n) :
    ∃ m, Trace l es m ∧ Trace m fs n := by
  induction es generalizing l with
  | nil => exact ⟨l, .refl l, h⟩
  | cons e es ih =>
      cases h with
      | head st rest =>
          obtain ⟨m, first, second⟩ := ih rest
          exact ⟨m, .head st first, second⟩

/-! ### The four conditions -/

/-- The conditions in which a lane can be. -/
inductive Tidy : Lane → Prop
  /-- Nobody is there. -/
  | free {name : String} {actor : Nat} {cancelled : Bool} {latest : Option JobRef} :
      Tidy ⟨⟨name, actor, cancelled, none, [], false, latest⟩, [], []⟩
  /-- A firing runs the actor. -/
  | busy {name : String} {actor : Nat} {cancelled : Bool} {latest : Option JobRef} {r : JobRef} :
      Tidy ⟨⟨name, actor, cancelled, some r, [], false, latest⟩, [], [r]⟩
  /-- A firing runs the actor, and another one waits. -/
  | crowded {name : String} {actor : Nat} {cancelled : Bool} {latest : Option JobRef}
      {r w : JobRef} : r ≠ w →
      Tidy ⟨⟨name, actor, cancelled, some r, [w], true, latest⟩, [w], [r]⟩
  /-- A firing has been given the lock and has not gone on yet. -/
  | handed {name : String} {actor : Nat} {cancelled : Bool} {latest : Option JobRef}
      {w : JobRef} : Tidy ⟨⟨name, actor, cancelled, some w, [], true, latest⟩, [w], []⟩

theorem Tidy.fire {l : Lane} (h : l.Tidy) {firing : JobRef} (new : firing ∉ l.running) :
    (l.accept firing (l.entry.fire firing)).Tidy := by
  cases h with
  | @free _ _ cancelled _ =>
      cases cancelled with
      | false => exact .busy
      | true => exact .free
  | busy => exact .crowded (by simpa [eq_comm] using new)
  | crowded other => exact .crowded other
  | handed => exact .handed

/-- A firing that waits and holds the lock is alone. -/
theorem Tidy.alone {l : Lane} (h : l.Tidy) {firing : JobRef} (waits : firing ∈ l.waiting)
    (holds : l.entry.holder = some firing) :
    ∃ name actor cancelled latest,
      l = ⟨⟨name, actor, cancelled, some firing, [], true, latest⟩, [firing], []⟩ := by
  cases h with
  | free => cases waits
  | busy => cases waits
  | crowded other =>
      -- Whoever waits behind a run does not hold the lock.
      rw [List.mem_singleton] at waits
      exact absurd (Option.some.inj holds) (waits ▸ other)
  | handed =>
      rw [List.mem_singleton] at waits
      exact ⟨_, _, _, _, by rw [waits]⟩

theorem Tidy.proceed {l : Lane} (h : l.Tidy) {firing : JobRef} (waits : firing ∈ l.waiting)
    (holds : l.entry.holder = some firing) :
    (({ l with waiting := l.waiting.erase firing } : Lane).accept firing
      l.entry.proceed).Tidy := by
  obtain ⟨name, actor, cancelled, latest, rfl⟩ := h.alone waits holds
  cases cancelled with
  | false => simpa [Entry.proceed, Entry.resume, Entry.start, accept] using Tidy.busy
  | true => simpa [Entry.proceed, Entry.resume, Entry.start, Entry.leave, accept] using Tidy.free

theorem Tidy.leave {l : Lane} (h : l.Tidy) {firing : JobRef} (runs : firing ∈ l.running) :
    Tidy ⟨l.entry.leave.2, l.waiting, l.running.erase firing⟩ := by
  cases h with
  | free => cases runs
  | busy =>
      rw [List.mem_singleton] at runs
      subst runs
      simpa [Entry.leave] using Tidy.free
  | crowded =>
      rw [List.mem_singleton] at runs
      subst runs
      simpa [Entry.leave] using Tidy.handed
  | handed => cases runs

/-- What does not touch the lock, the queue and the slot keeps the condition. -/
theorem Tidy.with_entry {l : Lane} (h : l.Tidy) {e : Entry} (holder : e.holder = l.entry.holder)
    (queue : e.queue = l.entry.queue) (slot : e.slotTaken = l.entry.slotTaken) :
    Tidy { l with entry := e } := by
  obtain ⟨name, actor, cancelled, held, queued, taken, latest⟩ := e
  cases h with
  | free => cases holder; cases queue; cases slot; exact .free
  | busy => cases holder; cases queue; cases slot; exact .busy
  | crowded other => cases holder; cases queue; cases slot; exact .crowded other
  | handed => cases holder; cases queue; cases slot; exact .handed

/-- **Every step leads from one of the conditions to one of them.** -/
theorem Tidy.step {l m : Lane} {e : Event} (h : l.Tidy) (st : Step l e m) : m.Tidy := by
  cases st with
  | fires _ new => exact h.fire new
  | resumes waits holds => exact h.proceed waits holds
  | ends runs => exact h.leave runs
  | cancels => exact h.with_entry rfl rfl rfl
  | schedules => exact h.with_entry rfl rfl rfl
  | idles => exact h

theorem Tidy.trace {l m : Lane} {es : List Event} (h : l.Tidy) (run : Trace l es m) : m.Tidy := by
  induction run with
  | refl => exact h
  | head st _ ih => exact ih (h.step st)

theorem Reachable.tidy {l : Lane} (h : l.Reachable) : l.Tidy := by
  obtain ⟨name, actor, es, run⟩ := h
  exact Tidy.trace .free run

theorem Tidy.running_short {l : Lane} (h : l.Tidy) : l.running.length ≤ 1 := by
  cases h <;> simp

theorem Tidy.waiting_short {l : Lane} (h : l.Tidy) : l.waiting.length ≤ 1 := by
  cases h <;> simp

/-- The slot is claimed exactly while a firing waits that has not gone on. -/
theorem Tidy.slotTaken_iff {l : Lane} (h : l.Tidy) : l.entry.slotTaken = true ↔ l.waiting ≠ [] := by
  cases h <;> simp

theorem Tidy.queue_subset {l : Lane} (h : l.Tidy) : l.entry.queue ⊆ l.waiting := by
  cases h <;> simp

/-- A firing that waits has been given the lock, or a run is in flight. -/
theorem Tidy.waits_for {l : Lane} (h : l.Tidy) {w : JobRef} (waits : w ∈ l.waiting) :
    l.entry.holder = some w ∨ ∃ r, r ∈ l.running := by
  cases h with
  | free => cases waits
  | busy => cases waits
  | crowded => exact .inr ⟨_, List.mem_singleton_self _⟩
  | handed =>
      rw [List.mem_singleton] at waits
      exact .inl (by rw [waits])

end Lane

end RecurringWork
