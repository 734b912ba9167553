import RecurringWork.Proofs.Actor.Standing
import RecurringWork.Proofs.Cluster.Lifetimes

/-!
# RecurringWork.Proofs.Dispatch.Seats

**What it is to wake one worker, and to wake several.** A worker has its *seat* (`Seat`): it is
registered under a name with the manager of its node. To wake it for work that is due at `t` is
to move its wake target to the earlier of the two and, if it would not have run by then anyhow,
to set it one timer (`World.woken`). That concerns nobody else: whoever has another number and
another entry keeps its target and its timers (`Seated.keeps_woken`), and everybody lives on
(`Undisturbed`).

A wake-up that is announced under the name of a slice is for the workers of that slice only
(`World.notified`). When it is told from seat to seat, each worker of the slice that has one of the
seats is woken once, and all others are left alone (`heeds_foldl`, `keeps_foldl`).
-/

namespace RecurringWork

/-! ### The timers of an entry -/

namespace ActorSystem

/-- The firings of an entry that a scheduler was handed, the latest first. -/
def firingsOn (s : ActorSystem) (k m n : Nat) : List (Job Duty) :=
  (s.scheduler k).jobs.filter fun j => j.duty == .firing m n

/-- An entry has been given one firing more, on scheduler `k`, and has kept the others. -/
def OneMore (s t : ActorSystem) (k m n due : Nat) : Prop :=
  ∃ number, t.firingsOn k m n = ⟨number, .firing m n, due, false, .waiting⟩ :: s.firingsOn k m n ∧
    ∀ c, c ≠ k → t.firingsOn c m n = s.firingsOn c m n

variable {s : ActorSystem} {m n k c : Nat}

/-- What a scheduler is handed for one entry is no firing of another. -/
theorem firingsOn_schedule_of_ne {duty : Duty} (other : duty ≠ .firing m n) (now : Nat)
    (delay : Duration) : (s.schedule now k duty delay).2.firingsOn c m n = s.firingsOn c m n := by
  show ((s.modifyScheduler k fun _ => ((s.scheduler k).schedule now duty delay).2).scheduler
    c).jobs.filter _ = _
  rw [scheduler_modifyScheduler]
  split
  · next here =>
      obtain ⟨rfl, -⟩ := here
      rw [firingsOn, Scheduler.schedule]
      split
      · rfl
      · rw [List.filter_cons_of_neg (by simpa using other)]
  · rfl

theorem oneMore_schedule (live : s.Live k) (now m n : Nat) (delay : Duration) :
    s.OneMore (s.schedule now k (.firing m n) delay).2 k m n (now + delay.timer) := by
  refine ⟨(s.scheduler k).jobs.length + 1, ?_, fun c other => ?_⟩
  · show ((s.modifyScheduler k fun _ =>
      ((s.scheduler k).schedule now (.firing m n) delay).2).scheduler k).jobs.filter _ = _
    rw [scheduler_modifyScheduler, if_pos ⟨rfl, live.known⟩, Scheduler.schedule, live.open_]
    simp [firingsOn]
  · show ((s.modifyScheduler k fun _ => _).scheduler c).jobs.filter _ = _
    rw [scheduler_modifyScheduler, if_neg fun same => other same.1.symm]
    rfl

/-- A scheduler that does not exist or is stopped is handed nothing. -/
theorem schedule_of_not_live (dead : ¬ s.Live k) (now : Nat) (duty : Duty) (delay : Duration) :
    (s.schedule now k duty delay).2.firingsOn c m n = s.firingsOn c m n := by
  show ((s.modifyScheduler k fun _ => ((s.scheduler k).schedule now duty delay).2).scheduler
    c).jobs.filter _ = _
  rw [scheduler_modifyScheduler]
  split
  · next here =>
      obtain ⟨rfl, known⟩ := here
      have stopped : (s.scheduler k).stopped = true := by
        by_contra open_
        exact dead ⟨known, by simpa using open_⟩
      rw [Scheduler.schedule_of_stopped stopped]
      rfl
  · rfl

/-- To schedule one entry is nothing to another. -/
theorem firingsOn_scheduleEntry_of_ne {r : Nat} (other : n ≠ r) (now k : Nat) (delay : Duration) :
    (s.scheduleEntry now k r delay).firingsOn c m n = s.firingsOn c m n := by
  rcases s.scheduleEntry_cases now k r delay with same | ⟨e, d, -, -, -, same⟩
  · rw [same]
  · rw [same]
    refine firingsOn_schedule_of_ne ?_ now delay
    rintro ⟨⟩
    exact other rfl

/-- A firing that is scheduled is one of the same actor. -/
theorem actor_scheduleEntry (s : ActorSystem) (now m n : Nat) (delay : Duration) (k : Nat) :
    (ActorSystem.entry? (s.scheduleEntry now m n delay) k).map Entry.actor =
      (s.entry? k).map Entry.actor := by
  rcases s.entry?_scheduleEntry now m n delay k with same | ⟨e, r, was, same⟩
  · rw [same]
  · rw [same, was]
    rfl

theorem length_managers_scheduleEntry (s : ActorSystem) (now m n : Nat) (delay : Duration) :
    (s.scheduleEntry now m n delay).managers.length = s.managers.length := by
  rcases s.scheduleEntry_cases now m n delay with same | ⟨e, k, -, -, -, same⟩
  · rw [same]
  · rw [same]
    rfl

/-- Nothing that was to fire is forgotten when a firing is scheduled. -/
theorem firings_subset_scheduleEntry (s : ActorSystem) (now m n : Nat) (delay : Duration) :
    s.firings ⊆ (s.scheduleEntry now m n delay).firings := by
  rcases s.scheduleEntry_cases now m n delay with same | ⟨e, d, -, -, -, same⟩
  · rw [same]
    exact List.Subset.refl _
  · rw [same]
    intro x mem
    obtain ⟨a, here, fires⟩ := List.mem_flatMap.mp mem
    obtain ⟨k, found⟩ := List.getElem?_of_mem here
    have kept : (s.schedulers.modify d.scheduler fun _ =>
        ((s.scheduler d.scheduler).schedule now (.firing m n) delay).2)[k]? =
          some (if d.scheduler = k then
            ((s.scheduler d.scheduler).schedule now (.firing m n) delay).2 else a) := by
      rw [List.getElem?_modify, found]
      rfl
    refine List.mem_flatMap.mpr ⟨_, List.mem_of_getElem? kept, ?_⟩
    split
    · next same =>
        have there : s.scheduler d.scheduler = a := by
          rw [scheduler, List.getD_eq_getElem?_getD, same, found]
          rfl
        rw [there, Scheduler.schedule]
        split
        · exact fires
        · rw [List.filterMap_cons]
          exact List.mem_cons_of_mem _ fires
    · exact fires

end ActorSystem

/-- A timer for what is due at `t` fires at that time, or at once if it is past, but not later
than the longest timer allows. -/
theorem timer_delayUntil (t now : Int) :
    (Duration.ofMillis (delayUntil t now).toMillis.toNat).timer =
      min (max t now - now).toNat Duration.longestTimer := by
  rw [Duration.timer, Duration.ticks_ofMillis, Duration.toMillis, delayUntil,
    Duration.wholeMillis_ofMillis, Instant.clamp, Instant.minimum, Instant.maximum,
    Duration.longestTimer]
  omega

namespace Simulation

/-! ### Seats -/

/-- A worker at a node, the name under which the manager of the node knows it, and its entry
there. -/
structure Seat where
  node : Nat
  manager : Nat
  name : String
  worker : Nat
  entry : Nat
  deriving DecidableEq, Repr

namespace Seat

/-- What hears news for a worker. -/
def news (p : Seat) : EventHook := .news p.worker p.manager p.name

/-- Two seats are those of different workers. -/
def Apart (p q : Seat) : Prop := p.worker ≠ q.worker ∧ p.entry ≠ q.entry

theorem Apart.symm {p q : Seat} (h : p.Apart q) : q.Apart p := ⟨h.1.symm, h.2.symm⟩

end Seat

namespace World

variable {u v w : World} {p q : Seat} {t : Int} {route : String}

/-- The slice that a worker works. -/
def key? (w : World) (worker : Nat) : Option PartitionKey := (w.worker? worker).map Worker.key

/-- A worker of a node is registered with the manager of the node. -/
structure Seated (w : World) (p : Seat) : Prop where
  works : ∃ c, w.worker? p.worker = some c ∧ c.coordinator = some p.node
  leads : w.system.registered? p.manager p.name = some p.entry
  alive : ∃ e, w.system.entry? p.entry = some e ∧ e.actor = p.worker ∧ e.cancelled = false
  managed : ∃ k, w.system.manager? p.manager = some k ∧ k.coordinator = some p.node

theorem worker?_setTarget (w : World) (a : Nat) (target : WakeTarget) (b : Nat) :
    (w.setTarget a target).worker? b =
      if a = b then (w.worker? b).map fun c => { c with target } else w.worker? b := by
  unfold worker? setTarget
  dsimp only
  rw [List.getElem?_modify]
  by_cases here : a = b
  · rcases w.actors[b]? with _ | ⟨name, body⟩
    · simp [here]
    · cases body <;> simp [here]
  · rcases w.actors[b]? with _ | a
    · simp [here]
    · simp [here]

/-! ### One worker is woken -/

/-- A worker has to be woken for what is due at `t`: it plans to run later, or its plans are not
known. -/
def Needs (target : WakeTarget) (t : Int) : Prop := t < target.at_ ∨ target = .unknown

/-- A worker is woken for what is due at `t`. -/
def woken (t : Int) (w : World) (p : Seat) : World :=
  match w.worker? p.worker with
  | none => w
  | some c =>
      { w.setTarget p.worker (c.target.request t).2 with
        system :=
          if (c.target.request t).1 then
            w.system.scheduleEntry w.elapsed p.manager p.entry
              (.ofMillis (delayUntil t w.now).toMillis.toNat)
          else w.system }

theorem request_iff {target : WakeTarget} : (target.request t).1 = true ↔ Needs target t := by
  simp [WakeTarget.request, Needs]

/-- What becomes of a worker that is woken for what is due at `t`. -/
structure Heeds (w v : World) (t : Int) (p : Seat) : Prop where
  /-- It plans to run at the earlier time. -/
  target : ∀ c, w.worker? p.worker = some c →
    v.worker? p.worker = some { c with target := ⟨min c.target.at_ t⟩ }
  /-- If that is news to it and its scheduler accepts jobs, it has exactly one timer more, for
  that time, or at once if it is past; but no timer is longer than the longest. -/
  woken : ∀ c k, w.worker? p.worker = some c → w.system.manager? p.manager = some k →
    Needs c.target t → w.system.Live k.scheduler →
    w.system.OneMore v.system k.scheduler p.manager p.entry
      (w.elapsed + min (max t w.now - w.now).toNat Duration.longestTimer)
  /-- Otherwise it keeps its timers. -/
  left : ∀ c k, w.worker? p.worker = some c → w.system.manager? p.manager = some k →
    ¬ (Needs c.target t ∧ w.system.Live k.scheduler) →
    ∀ j, v.system.firingsOn j p.manager p.entry = w.system.firingsOn j p.manager p.entry

/-- A worker keeps its wake target and its timers. -/
structure Keeps (w v : World) (p : Seat) : Prop where
  worker : v.worker? p.worker = w.worker? p.worker
  firings : ∀ j, v.system.firingsOn j p.manager p.entry = w.system.firingsOn j p.manager p.entry

theorem Keeps.refl (w : World) (p : Seat) : w.Keeps w p := ⟨rfl, fun _ => rfl⟩

theorem Keeps.trans (first : u.Keeps v p) (second : v.Keeps w p) : u.Keeps w p :=
  ⟨second.worker.trans first.worker, fun j => (second.firings j).trans (first.firings j)⟩

theorem woken_of_worker {c : Worker} (works : w.worker? p.worker = some c) (t : Int) :
    woken t w p = { w.setTarget p.worker (c.target.request t).2 with
      system :=
        if (c.target.request t).1 then
          w.system.scheduleEntry w.elapsed p.manager p.entry
            (.ofMillis (delayUntil t w.now).toMillis.toNat)
        else w.system } := by
  rw [woken, works]

/-- What a wake-up leaves as it is, whoever is woken. -/
structure Undisturbed (w v : World) : Prop where
  world : ∃ actors system, v = { w with actors, system }
  manager : ∀ m, v.system.manager? m = w.system.manager? m
  live : ∀ k, v.system.Live k ↔ w.system.Live k
  seated : ∀ {p}, w.Seated p → v.Seated p
  key : ∀ a, v.key? a = w.key? a
  retains : w.Retains v

theorem Undisturbed.refl (w : World) : w.Undisturbed w :=
  ⟨⟨_, _, rfl⟩, fun _ => rfl, fun _ => Iff.rfl, id, fun _ => rfl, .refl w⟩

theorem Undisturbed.trans (first : u.Undisturbed v) (second : v.Undisturbed w) :
    u.Undisturbed w where
  world := by
    obtain ⟨_, _, rfl⟩ := first.world
    obtain ⟨actors, system, rfl⟩ := second.world
    exact ⟨actors, system, rfl⟩
  manager := fun m => (second.manager m).trans (first.manager m)
  live := fun k => (second.live k).trans (first.live k)
  seated := second.seated ∘ first.seated
  key := fun a => (second.key a).trans (first.key a)
  retains := first.retains.trans second.retains

theorem undisturbed_setTarget (w : World) (a : Nat) (target : WakeTarget) :
    w.Undisturbed (w.setTarget a target) where
  world := ⟨_, _, rfl⟩
  manager := fun _ => rfl
  live := fun _ => Iff.rfl
  seated := by
    intro p seat
    refine ⟨?_, seat.leads, seat.alive, seat.managed⟩
    obtain ⟨c, works, there⟩ := seat.works
    rw [worker?_setTarget, works]
    split
    · exact ⟨_, rfl, there⟩
    · exact ⟨c, rfl, there⟩
  key := by
    intro b
    rw [key?, worker?_setTarget]
    split
    · rw [Option.map_map]
      rfl
    · rfl
  retains := by
    refine ⟨?_, fun x => ?_, fun frames => List.Subset.refl _⟩
    · simp [things, setTarget]
    · cases x with
      | actor n =>
          show (w.actors[n]?).elim [] _ ⊆ ((w.actors.modify a _)[n]?).elim [] _
          rw [List.getElem?_modify]
          rcases w.actors[n]? with _ | ⟨name, body⟩
          · simp
          · cases body <;> by_cases here : a = n <;> simp [here, NamedActor.holds]
      | _ => exact List.Subset.refl _

theorem undisturbed_scheduleEntry (w : World) (now m n : Nat) (delay : Duration) :
    w.Undisturbed { w with system := w.system.scheduleEntry now m n delay } where
  world := ⟨_, _, rfl⟩
  manager := fun k => w.system.manager?_scheduleEntry now m n delay k
  live := fun k =>
    ⟨(w.system.keepsOpen_scheduleEntry now m n delay).live, fun live => live.scheduleEntry ..⟩
  seated := by
    intro p seat
    have managers := w.system.manager?_scheduleEntry now m n delay p.manager
    refine ⟨seat.works, ?_, ?_, ?_⟩
    · rw [ActorSystem.registered?, managers]
      exact seat.leads
    · obtain ⟨e, found, actor, alive⟩ := seat.alive
      rcases w.system.entry?_scheduleEntry now m n delay p.entry with same | ⟨d, r, was, same⟩
      · exact ⟨e, same.trans found, actor, alive⟩
      · rw [found] at was
        cases was
        exact ⟨_, same, actor, alive⟩
    · rw [managers]
      exact seat.managed
  key := fun _ => rfl
  retains := by
    have managers := w.system.manager?_scheduleEntry now m n delay
    have actors : ∀ k, (ActorSystem.entry? (w.system.scheduleEntry now m n delay) k).map
        (fun e => Thing.actor e.actor) = (w.system.entry? k).map fun e => Thing.actor e.actor := by
      intro k
      have same := congrArg (Option.map Thing.actor) (w.system.actor_scheduleEntry now m n delay k)
      rwa [Option.map_map, Option.map_map] at same
    refine ⟨?_, fun x => ?_, fun frames => ?_⟩
    · simp [things, w.system.length_managers_scheduleEntry now m n delay]
    · cases x with
      | manager k =>
          show ((w.system.manager? k).elim [] _) ⊆
            (((w.system.scheduleEntry now m n delay).manager? k).elim [] _)
          rw [managers]
          unfold heldByManager
          simp [actors]
      | _ => exact List.Subset.refl _
    · unfold rooted
      have fires := w.system.firings_subset_scheduleEntry now m n delay
      intro x mem
      simp only [List.mem_append, List.mem_flatMap, actors] at mem ⊢
      rcases mem with (named | ⟨f, here, root⟩) | needed
      · exact .inl (.inl named)
      · exact .inl (.inr ⟨f, fires here, root⟩)
      · exact .inr needed

theorem undisturbed_woken (t : Int) (w : World) (p : Seat) : w.Undisturbed (woken t w p) := by
  unfold woken
  split
  · exact .refl w
  · next c _ =>
      have told := w.undisturbed_setTarget p.worker (c.target.request t).2
      by_cases needed : (c.target.request t).1 = true
      · rw [if_pos needed]
        exact told.trans (undisturbed_scheduleEntry _ w.elapsed p.manager p.entry _)
      · rw [if_neg needed]
        exact told

theorem Undisturbed.elapsed (h : w.Undisturbed v) : v.elapsed = w.elapsed := by
  obtain ⟨_, _, rfl⟩ := h.world
  rfl

theorem Undisturbed.now (h : w.Undisturbed v) : v.now = w.now := by
  obtain ⟨_, _, rfl⟩ := h.world
  rfl

/-- Everybody lives on when somebody is woken, whatever else has begun meanwhile. -/
theorem Undisturbed.isAlive (h : w.Undisturbed v) {x : Thing} {frames more : List Frame}
    (within : frames ⊆ more) (lives : w.isAlive (frames ++ w.waitingFrames) x = true) :
    v.isAlive (more ++ v.waitingFrames) x = true := by
  have waits : v.waitingFrames = w.waitingFrames := by
    obtain ⟨_, _, rfl⟩ := h.world
    rfl
  rw [waits]
  exact h.retains.isAlive (List.append_subset.mpr
    ⟨List.Subset.trans within (List.subset_append_left _ _), List.subset_append_right _ _⟩) lives

/-! ### Whom it concerns -/

/-- **A worker that is woken heeds it.** -/
theorem Seated.heeds_woken (seat : w.Seated p) (t : Int) : w.Heeds (woken t w p) t p := by
  obtain ⟨c, works, -⟩ := seat.works
  rw [woken_of_worker works]
  refine ⟨?_, ?_, ?_⟩
  · intro d same
    cases works.symm.trans same
    show (w.setTarget _ _).worker? _ = _
    rw [worker?_setTarget, if_pos rfl, works]
    rfl
  · intro d k same manages needs live
    cases works.symm.trans same
    obtain ⟨e, found, -, alive⟩ := seat.alive
    dsimp only
    rw [if_pos (request_iff.mpr needs), ActorSystem.scheduleEntry_of_live found alive manages,
      ← timer_delayUntil]
    exact ActorSystem.oneMore_schedule live ..
  · intro d k same manages idle j
    cases works.symm.trans same
    obtain ⟨e, found, -, alive⟩ := seat.alive
    dsimp only
    split
    · next needed =>
        rw [ActorSystem.scheduleEntry_of_live found alive manages]
        exact ActorSystem.schedule_of_not_live (fun live => idle ⟨request_iff.mp needed, live⟩) ..
    · rfl

/-- **Nobody else is concerned.** -/
theorem keeps_woken (apart : q.Apart p) (t : Int) (w : World) : w.Keeps (woken t w q) p := by
  unfold woken
  split
  · exact .refl w p
  · next c _ =>
      refine ⟨?_, fun j => ?_⟩
      · show (w.setTarget _ _).worker? _ = _
        rw [worker?_setTarget, if_neg apart.1]
      · dsimp only
        split
        · exact ActorSystem.firingsOn_scheduleEntry_of_ne apart.2.symm ..
        · rfl

/-- What happens to others first, and then to a worker, happens to the worker. -/
theorem Keeps.heeds (first : u.Keeps v p) (same : u.Undisturbed v) (second : v.Heeds w t p) :
    u.Heeds w t p where
  target := fun c works => second.target c (first.worker.trans works)
  woken := by
    intro c k works manages needs live
    obtain ⟨number, here, elsewhere⟩ := second.woken c k (first.worker.trans works)
      ((same.manager _).trans manages) needs ((same.live _).mpr live)
    rw [same.elapsed, same.now, first.firings] at here
    exact ⟨number, here, fun j other => (elsewhere j other).trans (first.firings j)⟩
  left := by
    intro c k works manages idle j
    refine (second.left c k (first.worker.trans works) ((same.manager _).trans manages) ?_ j).trans
      (first.firings j)
    exact fun ⟨needs, live⟩ => idle ⟨needs, (same.live _).mp live⟩

theorem Heeds.keeps (first : u.Heeds v t p) (second : v.Keeps w p) : u.Heeds w t p where
  target := fun c works => second.worker.trans (first.target c works)
  woken := by
    intro c k works manages needs live
    obtain ⟨number, here, elsewhere⟩ := first.woken c k works manages needs live
    exact ⟨number, (second.firings _).trans here,
      fun j other => (second.firings j).trans (elsewhere j other)⟩
  left := fun c k works manages idle j =>
    (second.firings j).trans (first.left c k works manages idle j)

/-! ### Several workers are told -/

/-- A worker is told that there is work in a slice: it is woken if it is its own. -/
def notified (route : String) (t : Int) (w : World) (p : Seat) : World :=
  if (w.key? p.worker).map PartitionKey.name = some route then woken t w p else w

theorem notified_of_worker {c : Worker} (works : w.worker? p.worker = some c) (route : String)
    (t : Int) : notified route t w p = if c.key.name = route then woken t w p else w := by
  simp [notified, key?, works]

theorem undisturbed_notified (route : String) (t : Int) (w : World) (p : Seat) :
    w.Undisturbed (notified route t w p) := by
  unfold notified
  split
  · exact undisturbed_woken t w p
  · exact .refl w

theorem undisturbed_foldl (route : String) (t : Int) (w : World) (seats : List Seat) :
    w.Undisturbed (seats.foldl (notified route t) w) := by
  induction seats generalizing w with
  | nil => exact .refl w
  | cons p rest ih => exact (undisturbed_notified route t w p).trans (ih _)

/-- **Whoever is not among them, or works another slice, is left alone.** -/
theorem keeps_foldl {seats : List Seat}
    (others : ∀ q ∈ seats, q.Apart p ∨ (w.key? q.worker).map PartitionKey.name ≠ some route) :
    w.Keeps (seats.foldl (notified route t) w) p := by
  induction seats generalizing w with
  | nil => exact .refl w p
  | cons q rest ih =>
      have first : w.Keeps (notified route t w q) p := by
        unfold notified
        split
        · next same =>
            rcases others q List.mem_cons_self with apart | other
            · exact keeps_woken apart t w
            · exact absurd same other
        · exact .refl w p
      refine first.trans (ih fun r mem => ?_)
      rw [(undisturbed_notified route t w q).key]
      exact others r (List.mem_cons_of_mem _ mem)

/-- **Whoever is among them and works the slice is woken once.** -/
theorem heeds_foldl {seats : List Seat} (seat : w.Seated p) (mem : p ∈ seats)
    (apart : seats.Pairwise Seat.Apart)
    (works : (w.key? p.worker).map PartitionKey.name = some route) :
    w.Heeds (seats.foldl (notified route t) w) t p := by
  obtain ⟨before, after, rfl⟩ := List.append_of_mem mem
  rw [List.foldl_append, List.foldl_cons]
  obtain ⟨-, later, earlier⟩ := List.pairwise_append.mp apart
  have first := undisturbed_foldl route t w before
  have kept : w.Keeps (before.foldl (notified route t) w) p :=
    keeps_foldl fun q here => .inl (earlier q here p List.mem_cons_self)
  refine kept.heeds first ?_
  have woken : notified route t (before.foldl (notified route t) w) p =
      woken t (before.foldl (notified route t) w) p := by
    rw [notified, first.key, if_pos works]
  rw [woken]
  refine ((first.seated seat).heeds_woken t).keeps (keeps_foldl fun q here => .inl ?_)
  exact ((List.pairwise_cons.mp later).1 q here).symm

end World

end Simulation

end RecurringWork
