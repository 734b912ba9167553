import RecurringWork.Time

/-!
# RecurringWork.Actor.Entry

**One run at a time.** An actor that is registered under a name has an entry, and the
entry has a lock that a firing must hold to run the actor. A firing that finds the
lock free takes it. One that finds it taken waits for it, but only one may wait: the
*slot* for it is claimed first, and a firing that finds the slot claimed as well is
dropped, because the one that waits will run after it anyhow.

The lock is fair. Given up while a firing waits, it belongs to that firing at once
(`Entry.leave`). The firing learns of it later and only then frees the slot
(`Entry.resume`); what arrives in between is dropped.

A cancelled entry starts nothing and schedules nothing: a firing that comes to hold its
lock gives the lock up again (`Entry.start`).

What a firing does without waiting is one `Move`: `Entry.fire` when it arrives, and
`Entry.proceed` when it has been given the lock.
-/

namespace RecurringWork

/-- A job of a scheduler, both by number. -/
structure JobRef where
  scheduler : Nat
  number : Nat
  deriving DecidableEq, Repr

/-- An actor under a name. -/
structure Entry where
  name : String
  actor : Nat
  cancelled : Bool
  /-- The firing that holds the lock. -/
  holder : Option JobRef
  /-- The firings that wait for the lock, the first to get it first. -/
  queue : List JobRef
  /-- The slot for a waiting firing is claimed. -/
  slotTaken : Bool
  /-- The firing that was scheduled last. -/
  latest : Option JobRef
  deriving DecidableEq, Repr

/-- What becomes of a firing. -/
inductive Arrival
  /-- It holds the lock and runs the actor. -/
  | runs
  /-- It waits for the lock. -/
  | waits
  /-- Another one waits already. -/
  | dropped
  /-- It held the lock, but the entry is cancelled. -/
  | skipped
  deriving DecidableEq, Repr

/-- What a firing does without waiting. -/
structure Move where
  arrival : Arrival
  /-- The firing that has been given the lock and does not know it yet. -/
  handed : Option JobRef
  entry : Entry

namespace Entry

/-- A fresh entry. -/
def ofActor (name : String) (actor : Nat) : Entry := ⟨name, actor, false, none, [], false, none⟩

/-- A firing asks for the lock. -/
def arrive (e : Entry) (firing : JobRef) : Arrival × Entry :=
  if e.holder.isNone then (.runs, { e with holder := some firing })
  else if e.slotTaken then (.dropped, e)
  else (.waits, { e with slotTaken := true, queue := e.queue ++ [firing] })

/-- The firing that was given the lock goes on. -/
def resume (e : Entry) : Entry := { e with slotTaken := false }

/-- The holder gives the lock up. The answer is the firing that has it now. -/
def leave (e : Entry) : Option JobRef × Entry :=
  match e.queue with
  | [] => (none, { e with holder := none })
  | firing :: rest => (some firing, { e with holder := some firing, queue := rest })

/-- A firing that holds the lock runs the actor, or gives the lock up. -/
def start (e : Entry) : Move :=
  if e.cancelled then ⟨.skipped, e.leave.1, e.leave.2⟩ else ⟨.runs, none, e⟩

/-- A firing arrives. -/
def fire (e : Entry) (firing : JobRef) : Move :=
  match e.arrive firing with
  | (.runs, e) => e.start
  | (arrival, e) => ⟨arrival, none, e⟩

/-- The firing that was given the lock goes on, and runs the actor or gives the lock up. -/
def proceed (e : Entry) : Move := e.resume.start

/-- Nothing more is to be done for the entry. -/
def cancel (e : Entry) : Entry := { e with cancelled := true, latest := none }

/-! ### What moves leave alone -/

/-- The entry without what there is to its lock. -/
def core (e : Entry) : Entry := { e with holder := none, queue := [], slotTaken := false }

@[simp] theorem name_core (e : Entry) : e.core.name = e.name := rfl

@[simp] theorem actor_core (e : Entry) : e.core.actor = e.actor := rfl

@[simp] theorem cancelled_core (e : Entry) : e.core.cancelled = e.cancelled := rfl

@[simp] theorem latest_core (e : Entry) : e.core.latest = e.latest := rfl

theorem name_eq_of_core {e d : Entry} (h : d.core = e.core) : d.name = e.name := by
  rw [← name_core d, h, name_core]

theorem actor_eq_of_core {e d : Entry} (h : d.core = e.core) : d.actor = e.actor := by
  rw [← actor_core d, h, actor_core]

theorem cancelled_eq_of_core {e d : Entry} (h : d.core = e.core) : d.cancelled = e.cancelled := by
  rw [← cancelled_core d, h, cancelled_core]

@[simp] theorem core_leave (e : Entry) : e.leave.2.core = e.core := by
  unfold leave
  split <;> rfl

@[simp] theorem core_arrive (e : Entry) (firing : JobRef) : (e.arrive firing).2.core = e.core := by
  unfold arrive
  split
  · rfl
  · split <;> rfl

@[simp] theorem core_start (e : Entry) : e.start.entry.core = e.core := by
  unfold start
  split
  · exact core_leave e
  · rfl

@[simp] theorem core_fire (e : Entry) (firing : JobRef) : (e.fire firing).entry.core = e.core := by
  have arrived := core_arrive e firing
  unfold fire
  split
  · next h =>
      rw [h] at arrived
      rw [core_start]
      exact arrived
  · next h =>
      rw [h] at arrived
      exact arrived

@[simp] theorem core_proceed (e : Entry) : e.proceed.entry.core = e.core :=
  core_start e.resume

/-! ### Order -/

/-- A free lock is never waited for, and nobody waits without the slot. -/
structure Orderly (e : Entry) : Prop where
  queue_of_free : e.holder = none → e.queue = []
  queue_of_slot_free : e.slotTaken = false → e.queue = []
  queue_short : e.queue.length ≤ 1

theorem orderly_ofActor (name : String) (actor : Nat) : (ofActor name actor).Orderly :=
  ⟨fun _ => rfl, fun _ => rfl, by simp [ofActor]⟩

theorem Orderly.arrive {e : Entry} (h : e.Orderly) (firing : JobRef) :
    (e.arrive firing).2.Orderly := by
  unfold Entry.arrive
  split
  · next free =>
      have hq : e.queue = [] := h.queue_of_free (by simpa using free)
      exact ⟨fun _ => hq, fun _ => hq, by simp [hq]⟩
  · next taken =>
      split
      · exact h
      · next slot =>
          have hq : e.queue = [] := h.queue_of_slot_free (by simpa using slot)
          refine ⟨fun hn => absurd hn (by simpa using taken), fun hs => ?_, by simp [hq]⟩
          simp at hs

theorem Orderly.leave {e : Entry} (h : e.Orderly) : e.leave.2.Orderly := by
  unfold Entry.leave
  split
  · next hq => exact ⟨fun _ => hq, fun _ => hq, by simp [hq]⟩
  · next firing rest hq =>
      have hr : rest = [] := by
        have := h.queue_short
        simp only [hq, List.length_cons] at this
        exact List.eq_nil_of_length_eq_zero (by omega)
      exact ⟨fun hn => by simp at hn, fun _ => hr, by simp [hr]⟩

end Entry

end RecurringWork
