import RecurringWork.Proofs.Actor.Registry
import RecurringWork.Proofs.Dispatch.Circulation

/-!
# RecurringWork.Proofs.Cluster.Asking

**What it is to ask managers for a run, and how they are asked.** A manager that is asked
schedules one firing if the name leads to somebody who can be fired (`Serves.oneMore`), and nothing
else (`firingsOn_heedRequest`). Several managers are asked one after the other; as long as none
is asked twice, each schedules one firing (`Serves.oneMore_heedRequests`), and nobody is
registered, removed or stopped by it (`Steady`).

Managers have their *posts* at nodes (`Post`). A request that arrives at a node is heard by the
managers there (`reaches_hear_requests`). A member of a group may have further sinks, which only
take notes of what arrives (`World.Quiet`); what they note tells how many events were sent.
-/

namespace RecurringWork

/-! ### Managers that are asked for a run -/

namespace ActorSystem

variable {s t u : ActorSystem} {m n k : Nat} {name : String}

/-- Names lead to entries that live. -/
def Leads (s : ActorSystem) : Prop :=
  ∀ {m n : Nat} {name : String}, s.registered? m name = some n →
    ∃ e, s.entry? n = some e ∧ e.cancelled = false

/-- So they do in every system that can be reached. -/
theorem Registry.leads (h : s.Registry) : s.Leads := by
  intro m n name led
  obtain ⟨e, found, -, alive⟩ := h.entry led
  exact ⟨e, found, alive⟩

/-- Nobody has been registered or removed, and no scheduler stopped. -/
structure Steady (s t : ActorSystem) : Prop where
  manager : ∀ m, t.manager? m = s.manager? m
  cancelled : ∀ n, (t.entry? n).map Entry.cancelled = (s.entry? n).map Entry.cancelled
  live : ∀ k, t.Live k ↔ s.Live k

namespace Steady

theorem refl (s : ActorSystem) : s.Steady s := ⟨fun _ => rfl, fun _ => rfl, fun _ => Iff.rfl⟩

theorem trans (first : s.Steady t) (second : t.Steady u) : s.Steady u where
  manager := fun m => (second.manager m).trans (first.manager m)
  cancelled := fun n => (second.cancelled n).trans (first.cancelled n)
  live := fun k => (second.live k).trans (first.live k)

theorem registered? (h : s.Steady t) (m : Nat) (name : String) :
    t.registered? m name = s.registered? m name := by
  rw [ActorSystem.registered?, h.manager]
  rfl

theorem alive_iff (h : s.Steady t) (n : Nat) :
    (∃ e, t.entry? n = some e ∧ e.cancelled = false) ↔
      ∃ e, s.entry? n = some e ∧ e.cancelled = false := by
  rw [← Option.map_eq_some_iff, h.cancelled, Option.map_eq_some_iff]

theorem leads (h : s.Steady t) (leads : s.Leads) : t.Leads := by
  intro m n name led
  rw [h.registered?] at led
  exact (h.alive_iff n).mpr (leads led)

theorem serves_iff (h : s.Steady t) : t.Serves m name n ↔ s.Serves m name n := by
  constructor
  · rintro ⟨led, alive, c, manages, live⟩
    exact ⟨h.registered? m name ▸ led, (h.alive_iff n).mp alive, c, h.manager m ▸ manages,
      (h.live _).mp live⟩
  · rintro ⟨led, alive, c, manages, live⟩
    exact ⟨(h.registered? m name).trans led, (h.alive_iff n).mpr alive, c,
      (h.manager m).trans manages, (h.live _).mpr live⟩

end Steady

theorem steady_scheduleEntry (s : ActorSystem) (now m n : Nat) (delay : Duration) :
    s.Steady (s.scheduleEntry now m n delay) where
  manager := s.manager?_scheduleEntry now m n delay
  cancelled := by
    intro i
    rcases s.entry?_scheduleEntry now m n delay i with same | ⟨e, r, found, changed⟩
    · rw [same]
    · rw [changed, found]
      rfl
  live := fun k =>
    ⟨(s.keepsOpen_scheduleEntry now m n delay).live, fun live => live.scheduleEntry ..⟩

theorem steady_heedRequest (s : ActorSystem) (now m : Nat) (name : String) (delay : Int) :
    s.Steady (s.heedRequest now m name delay) := by
  unfold heedRequest
  split
  · exact s.steady_scheduleEntry now m _ _
  · exact .refl s

/-- **A manager that is asked for a run schedules one** if the name leads to somebody who can be
fired. -/
theorem Serves.oneMore (h : s.Serves m name n) {c : Manager} (manages : s.manager? m = some c)
    (now : Nat) (delay : Int) : s.OneMore (s.heedRequest now m name delay) c.scheduler m n
      (now + min delay.toNat Duration.longestTimer) := by
  obtain ⟨e, found, alive⟩ := h.alive
  obtain ⟨d, here, live⟩ := h.live
  cases manages.symm.trans here
  have timer : (Duration.ofMillis delay.toNat).timer = min delay.toNat Duration.longestTimer := by
    rw [Duration.timer, Duration.ticks_ofMillis]
  rw [heedRequest, h.leads, ← timer]
  dsimp only
  rw [scheduleEntry_of_live found alive manages]
  exact oneMore_schedule live ..

/-- **It schedules nothing else.** -/
theorem firingsOn_heedRequest (other : k = m → ¬ s.Serves m name n) (now : Nat) (delay : Int)
    (j : Nat) : (s.heedRequest now k name delay).firingsOn j m n = s.firingsOn j m n := by
  unfold heedRequest
  split
  · next i led =>
      rcases s.scheduleEntry_cases now k i (.ofMillis delay.toNat) with
        same | ⟨e, c, found, alive, manages, same⟩
      · rw [same]
      · rw [same]
        show (s.schedule now c.scheduler (.firing k i) _).2.firingsOn j m n = _
        by_cases here : k = m ∧ i = n
        · obtain ⟨rfl, rfl⟩ := here
          exact schedule_of_not_live
            (fun live => other rfl ⟨led, ⟨e, found, alive⟩, c, manages, live⟩) ..
        · refine firingsOn_schedule_of_ne ?_ ..
          rintro ⟨⟩
          exact here ⟨rfl, rfl⟩
  · rfl

theorem wake_of_negative {delay : Int} (negative : delay < 0) (now : Nat) :
    s.wake now m name delay = .error (.invalidDelay delay) := by
  rw [wake, Duration.ofDelay, if_pos negative]
  rfl

theorem wake_of_unknown {delay : Int} (positive : 0 ≤ delay)
    (unknown : s.registered? m name = none) (now : Nat) :
    s.wake now m name delay = .error (.notRegistered name) := by
  rw [wake, Duration.ofDelay, if_neg (Int.not_lt.mpr positive)]
  simp only [bind, Except.bind, unknown]

/-- Some managers are asked for a run, one after the other. -/
def heedRequests (s : ActorSystem) (now : Nat) (name : String) (delay : Int) (managers : List Nat) :
    ActorSystem :=
  managers.foldl (fun s m => s.heedRequest now m name delay) s

theorem heedRequests_append (s : ActorSystem) (now : Nat) (name : String) (delay : Int)
    (first second : List Nat) : s.heedRequests now name delay (first ++ second) =
      (s.heedRequests now name delay first).heedRequests now name delay second :=
  List.foldl_append

theorem steady_heedRequests (s : ActorSystem) (now : Nat) (name : String) (delay : Int)
    (managers : List Nat) : s.Steady (s.heedRequests now name delay managers) := by
  induction managers generalizing s with
  | nil => exact .refl s
  | cons m rest ih => exact (s.steady_heedRequest now m name delay).trans (ih _)

/-- **Whoever is not among them schedules nothing.** -/
theorem firingsOn_heedRequests {managers : List Nat} (other : m ∈ managers → ¬ s.Serves m name n)
    (now : Nat) (delay : Int) (j : Nat) :
    (s.heedRequests now name delay managers).firingsOn j m n = s.firingsOn j m n := by
  induction managers generalizing s with
  | nil => rfl
  | cons k rest ih =>
      have first := s.steady_heedRequest now k name delay
      refine (ih fun mem => ?_).trans (firingsOn_heedRequest ?_ now delay j)
      · rw [first.serves_iff]
        exact other (List.mem_cons_of_mem _ mem)
      · rintro rfl
        exact other List.mem_cons_self

/-- **Whoever is among them schedules one firing.** -/
theorem Serves.oneMore_heedRequests (h : s.Serves m name n) {c : Manager}
    (manages : s.manager? m = some c) {managers : List Nat} (mem : m ∈ managers)
    (distinct : managers.Nodup) (now : Nat) (delay : Int) :
    s.OneMore (s.heedRequests now name delay managers) c.scheduler m n
      (now + min delay.toNat Duration.longestTimer) := by
  obtain ⟨before, after, rfl⟩ := List.append_of_mem mem
  obtain ⟨-, later, earlier⟩ := List.nodup_append.mp distinct
  have unasked : m ∉ before := fun here => earlier m here m List.mem_cons_self rfl
  have done : m ∉ after := (List.nodup_cons.mp later).1
  rw [heedRequests_append]
  have first := s.steady_heedRequests now name delay before
  obtain ⟨number, one, none⟩ := (first.serves_iff.mpr h).oneMore
    ((first.manager m).trans manages) now delay
  -- Neither those before it nor those after it schedule anything for its entry.
  have kept : ∀ j, firingsOn (s.heedRequests now name delay before) j m n = s.firingsOn j m n :=
    firingsOn_heedRequests (fun here => absurd here unasked) now delay
  have left : ∀ (t : ActorSystem) (j : Nat),
      firingsOn (t.heedRequests now name delay after) j m n = t.firingsOn j m n := fun _ =>
    firingsOn_heedRequests (fun here => absurd here done) now delay
  refine ⟨number, ?_, fun j other => ?_⟩
  · exact (left _ _).trans (one.trans (congrArg _ (kept _)))
  · exact (left _ j).trans ((none j other).trans (kept j))

end ActorSystem

namespace Simulation

open World

/-- A manager that hears the requests of its node. -/
structure Post where
  node : Nat
  manager : Nat
  deriving DecidableEq, Repr

def Post.requests (p : Post) : EventHook := .requests p.manager

/-- The posts at a node. -/
def postsAt (posts : List Post) (n : Nat) : List Post := posts.filter fun p => p.node == n

theorem mem_postsAt {posts : List Post} {n : Nat} {p : Post} :
    p ∈ postsAt posts n ↔ p ∈ posts ∧ p.node = n := by
  rw [postsAt, List.mem_filter, beq_iff_eq]

/-- The node whose listeners take what arrives. -/
def EventSink.node? : EventSink → Option Nat
  | .listeners n => some n
  | .callback _ => none

/-- What a callback notes of an event. -/
def Callback.remark (event : Event) (c : Callback) : Notice :=
  match c.kind with
  | .event node => .heard c.name node event
  | .change | .view => .heard c.name "" event

/-- The callback as it was before its first call. -/
def Callback.uncalled (c : Callback) : Callback := { c with calls := 0 }

variable {u v w : World} {stack : List Frame} {posts : List Post} {event : Event}
  {name : String} {delay : Int}

namespace World

/-- A callback only takes notes. -/
def Quiet (w : World) (c : Nat) : Prop :=
  ∃ b, w.callbacks[c]? = some b ∧ b.reaction.steps = [] ∧ b.reaction.breaksOff = false

/-! ### What requests leave as it is -/

/-- Nobody has been registered, removed or stopped; callbacks differ in how often they have been
called. -/
structure Unaltered (w v : World) : Prop where
  world : ∃ system notices callbacks, v = { w with system, notices, callbacks }
  system : w.system.Steady v.system
  callbacks : ∀ c : Nat, (v.callbacks[c]?).map Callback.uncalled =
    (w.callbacks[c]?).map Callback.uncalled
  retains : w.Retains v

namespace Unaltered

theorem refl (w : World) : w.Unaltered w := ⟨⟨_, _, _, rfl⟩, .refl _, fun _ => rfl, .refl w⟩

theorem trans (first : u.Unaltered v) (second : v.Unaltered w) : u.Unaltered w where
  world := by
    obtain ⟨_, _, _, rfl⟩ := first.world
    obtain ⟨system, notices, callbacks, rfl⟩ := second.world
    exact ⟨system, notices, callbacks, rfl⟩
  system := first.system.trans second.system
  callbacks := fun c => (second.callbacks c).trans (first.callbacks c)
  retains := first.retains.trans second.retains

theorem foldl {α : Type} {f : World → α → World} (one : ∀ w x, Unaltered w (f w x)) (w : World)
    (xs : List α) : w.Unaltered (xs.foldl f w) := by
  induction xs generalizing w with
  | nil => exact .refl w
  | cons x rest ih => exact (one w x).trans (ih _)

theorem elapsed (h : w.Unaltered v) : v.elapsed = w.elapsed := by
  obtain ⟨_, _, _, rfl⟩ := h.world
  rfl

theorem isAlive (h : w.Unaltered v) {x : Thing} {frames more : List Frame}
    (within : frames ⊆ more) (lives : w.isAlive (frames ++ w.waitingFrames) x = true) :
    v.isAlive (more ++ v.waitingFrames) x = true := by
  have waits : v.waitingFrames = w.waitingFrames := by
    obtain ⟨_, _, _, rfl⟩ := h.world
    rfl
  rw [waits]
  exact h.retains.isAlive (List.append_subset.mpr
    ⟨List.Subset.trans within (List.subset_append_left _ _), List.subset_append_right _ _⟩) lives

theorem quiet (h : w.Unaltered v) {c : Nat} (quiet : w.Quiet c) : v.Quiet c := by
  obtain ⟨b, found, idle, sound⟩ := quiet
  have same := h.callbacks c
  rw [found] at same
  obtain ⟨d, there, alike⟩ := Option.map_eq_some_iff.mp same
  have reaction : d.reaction = b.reaction := (congrArg Callback.reaction alike :)
  exact ⟨d, there, reaction ▸ idle, reaction ▸ sound⟩

end Unaltered

/-! ### Those who hear of a request -/

/-- A manager is asked for a run. -/
def asked (name : String) (delay : Int) (w : World) (p : Post) : World :=
  { w with system := w.system.heedRequest w.elapsed p.manager name delay }

/-- A callback takes a note of an event. -/
def observed (event : Event) (w : World) (c : Nat) : World :=
  { w with
    notices := w.notices ++ ((w.callbacks[c]?).map (Callback.remark event)).toList
    callbacks := w.callbacks.modify c fun b => { b with calls := b.calls + 1 } }

/-- A sink takes a request: the managers of its node are asked, or a note is taken. -/
def served (event : Event) (name : String) (delay : Int) (posts : List Post) (w : World) :
    EventSink → World
  | .listeners n => (postsAt posts n).foldl (asked name delay) w
  | .callback c => w.observed event c

theorem unaltered_asked (name : String) (delay : Int) (w : World) (p : Post) :
    w.Unaltered (asked name delay w p) where
  world := ⟨_, _, _, rfl⟩
  system := w.system.steady_heedRequest w.elapsed p.manager name delay
  callbacks := fun _ => rfl
  retains := by
    unfold asked ActorSystem.heedRequest
    split
    · exact (w.undisturbed_scheduleEntry w.elapsed p.manager _ _).retains
    · exact .refl w

theorem unaltered_observed (event : Event) (w : World) (c : Nat) :
    w.Unaltered (w.observed event c) where
  world := ⟨_, _, _, rfl⟩
  system := .refl _
  callbacks := by
    intro i
    show ((w.callbacks.modify c _)[i]?).map _ = _
    rw [List.getElem?_modify]
    split <;> cases w.callbacks[i]? <;> rfl
  retains := ⟨List.Subset.refl _, fun x => by cases x <;> exact List.Subset.refl _,
    fun _ => List.Subset.refl _⟩

theorem unaltered_served (event : Event) (name : String) (delay : Int) (posts : List Post)
    (w : World) (sink : EventSink) : w.Unaltered (w.served event name delay posts sink) := by
  cases sink with
  | listeners n => exact .foldl (unaltered_asked name delay) w (postsAt posts n)
  | callback c => exact unaltered_observed event w c

end World

/-- A manager that hears a request heeds it. -/
theorem run_hear_request (asks : event.kind = .rescheduleActor name delay) {p : Post}
    (lives : w.isAlive (stack ++ w.waitingFrames) (.manager p.manager) = true)
    (node : Option Nat) (rest : List EventHook) :
    (hear node event (p.requests :: rest)).run ⟨w, stack⟩ =
      (.give .nothing, ⟨asked name delay w p, .hearing node event rest :: stack⟩) := by
  have lives := (Unaltered.refl w).isAlive
    (List.subset_cons_self (.hearing node event rest) stack) lives
  rw [Post.requests, hear, Act.run_push, Act.run_look, asks]
  dsimp only
  rw [Act.run_isAlive, lives]
  rfl

theorem reaches_hear_requests (asks : event.kind = .rescheduleActor name delay)
    (lives : ∀ p ∈ posts, w.isAlive (stack ++ w.waitingFrames) (.manager p.manager) = true)
    (node : Option Nat) :
    Reaches ((hear node event (posts.map Post.requests)).run ⟨w, stack⟩)
      (.give .nothing, ⟨posts.foldl (asked name delay) w, stack⟩) := by
  refine reaches_each (hear node event) (.hearing node event) Post.requests _ w.Unaltered
    (fun _ => rfl) (fun _ => rfl) (fun v same p mem rest => ?_) (fun v same p _ => ?_) (.refl w)
  · rw [run_hear_request asks (same.isAlive (List.Subset.refl _) (lives p mem))]
    exact .refl
  · exact same.trans (unaltered_asked name delay v p)

/-- A callback leaves its notice, and goes on to its steps if it is their turn. -/
theorem run_callBack {c : Nat} {b : Callback} (found : w.callbacks[c]? = some b)
    (told : Callback → Notice) :
    (callBack c told).run ⟨w, stack⟩ =
      (if b.calls + 1 = b.reaction.call then Act.sequence .reaction b.reaction.steps
        else Act.nothing).run
        ⟨{ w with
            notices := w.notices ++ [told b]
            callbacks := w.callbacks.modify c fun b => { b with calls := b.calls + 1 } },
          .callbackEnd b.reaction.breaksOff :: stack⟩ := by
  rw [callBack, Act.run_look, found]
  show (react c b.reaction).run ⟨{ w with notices := w.notices ++ [told b] }, stack⟩ = _
  rw [react, Act.run_look]
  dsimp only
  rw [found]
  dsimp only
  rw [Act.run_modifyWorld, Act.run_push]

theorem World.observed_of_found {c : Nat} {b : Callback} (found : w.callbacks[c]? = some b) :
    w.observed event c = { w with
      notices := w.notices ++ [b.remark event]
      callbacks := w.callbacks.modify c fun b => { b with calls := b.calls + 1 } } := by
  rw [observed, found]
  rfl

theorem reaches_observed {c : Nat} (quiet : w.Quiet c) (rest : List EventSink) :
    Reaches ((deliver event (.callback c :: rest)).run ⟨w, stack⟩)
      (.give .nothing, ⟨w.observed event c, .delivery event rest :: stack⟩) := by
  obtain ⟨b, found, idle, sound⟩ := quiet
  rw [deliver, Act.run_push, run_callBack found, sound, idle, observed_of_found found]
  split <;> exact .single rfl

end Simulation

end RecurringWork
