import Mathlib.Data.Set.Card
import RecurringWork.Proofs.Actor.Standing
import RecurringWork.Proofs.Actor.Tenancy

/-!
# RecurringWork.Proofs.Actor.Awaited

**The firings of an entry that wait for their time** (`ActorSystem.awaited`). As long as the
entry is served, it is known what becomes of each of them. One is added whenever a firing is
scheduled, and replaces none (`Serves.awaited_scheduleEntry`). One is taken away when it begins
(`awaited_attend_begin`), and none lapses (`Serves.awaited_attend_over`). What is done for other
names does not touch them (`Tenure.awaited_acts`).

Firings are asked for by registering an actor, by waking it, and by other nodes. Each request
is refused, or schedules one firing (`perform_of_asks`).
-/

namespace RecurringWork

/-- Whether a call asks for a firing of an actor. -/
def Call.Asks (m : Nat) (name : String) : Call → Prop
  | .register m' other _ _ | .wake m' other _ | .request m' other _ => m' = m ∧ other = name
  | .registerSuspended .. | .remove .. | .heed .. | .stop .. => False

namespace ActorSystem

variable {on : Nat → String → Prop} {s t : ActorSystem} {m n : Nat} {name : String}

/-- The scheduler of a manager accepts jobs. -/
def Accepts (s : ActorSystem) (m : Nat) : Prop :=
  ∃ c, (s.manager? m).map Manager.scheduler = some c ∧ s.Live c

/-- The firings of an entry that wait for their time and that nobody has cancelled. -/
def awaited (s : ActorSystem) (n : Nat) : Set JobRef :=
  {r | ∃ j m, s.job? r = some j ∧ j.duty = .firing m n ∧ j.phase = .waiting ∧
    j.cancelled = false}

/-! ### Managers whose scheduler accepts jobs -/

theorem KeepsOpen.accepts (h : s.KeepsOpen t) (accepts : s.Accepts m)
    (manager : (t.manager? m).map Manager.scheduler = (s.manager? m).map Manager.scheduler) :
    t.Accepts m := by
  obtain ⟨c, manages, live⟩ := accepts
  exact ⟨c, manager.trans manages, h.length.symm ▸ live.known, (h.stopped c).trans live.open_⟩

/-- Whoever has a name can be fired if the scheduler of the manager accepts jobs. -/
theorem Tenure.serves (h : Tenure m name (some n) s) (accepts : s.Accepts m) :
    s.Serves m name n where
  leads := h.leads
  alive := h.alive rfl
  live := by
    obtain ⟨c, manages, live⟩ := accepts
    obtain ⟨k, here, rfl⟩ := Option.map_eq_some_iff.mp manages
    exact ⟨k, here, live⟩

/-! ### Firings that wait for their time -/

theorem mem_awaited_congr {q : JobRef} (same : t.job? q = s.job? q) :
    q ∈ t.awaited n ↔ q ∈ s.awaited n := by
  show (∃ j m, t.job? q = some j ∧ _) ↔ _
  rw [same]
  rfl

theorem awaited_congr (same : ∀ q, t.job? q = s.job? q) : t.awaited n = s.awaited n :=
  Set.ext fun q => mem_awaited_congr (same q)

/-- Where only one job changes, and is no firing that waits, the others wait as before. -/
theorem awaited_sdiff {r : JobRef} (others : ∀ q, q ≠ r → t.job? q = s.job? q)
    (gone : r ∉ t.awaited n) : t.awaited n = s.awaited n \ {r} := by
  ext q
  by_cases here : q = r
  · subst here
    exact ⟨fun mem => absurd mem gone, fun mem => absurd rfl mem.2⟩
  · exact (mem_awaited_congr (others q here)).trans ⟨fun mem => ⟨mem, here⟩, And.left⟩

theorem notMem_awaited {r : JobRef} (none : s.job? r = none) : r ∉ s.awaited n := by
  rintro ⟨j, m, found, -⟩
  rw [none] at found
  cases found

theorem notMem_awaited_of_phase {r : JobRef} {j : Job Duty} (found : s.job? r = some j)
    (phase : j.phase ≠ .waiting) : r ∉ s.awaited n := by
  rintro ⟨i, m, there, -, waits, -⟩
  rw [found] at there
  obtain rfl := Option.some.inj there
  exact phase waits

/-- Whatever ends does not wait, and nothing else happens. -/
theorem awaited_finishJob (s : ActorSystem) (n : Nat) (r : JobRef) :
    (s.finishJob r).awaited n = s.awaited n \ {r} := by
  refine awaited_sdiff (fun q other => by rw [job?_finishJob, if_neg other]) ?_
  rintro ⟨i, k, there, -, waits, -⟩
  rw [job?_finishJob, if_pos rfl] at there
  obtain ⟨d, -, rfl⟩ := Option.map_eq_some_iff.mp there
  cases waits

/-- A job that has started was not waiting any more when it ends. -/
theorem awaited_finishJob_of_started {r : JobRef} {j : Job Duty} (found : s.job? r = some j)
    (started : j.phase = .started) : (s.finishJob r).awaited n = s.awaited n := by
  rw [awaited_finishJob]
  exact Set.sdiff_singleton_eq_self (notMem_awaited_of_phase found (by rw [started]; simp))

/-- A job that begins does not wait any more. -/
theorem awaited_attend_begin {now : Nat} {r : JobRef} {duty : Duty}
    (begins : s.attend now r = (.begin duty, t)) : t.awaited n = s.awaited n \ {r} := by
  refine awaited_sdiff (fun q other => by rw [job?_attend_begin begins, if_neg other]) ?_
  rintro ⟨i, k, there, -, waits, -⟩
  rw [job?_attend_begin begins, if_pos rfl] at there
  obtain ⟨d, -, rfl⟩ := Option.map_eq_some_iff.mp there
  cases waits

/-- A firing that begins is one that was awaited, for its own entry. -/
theorem mem_awaited_of_begins {now k i : Nat} {r : JobRef}
    (begins : s.attend now r = (.begin (.firing k i), t)) : r ∈ s.awaited n ↔ i = n := by
  obtain ⟨⟨j, found, waits, does, -, kept⟩, -⟩ := attend_begin_inv begins
  constructor
  · rintro ⟨j', k', found', does', -⟩
    rw [found] at found'
    cases found'
    rw [does] at does'
    cases does'
    rfl
  · rintro rfl
    exact ⟨j, k, found, does, waits, kept⟩

/-- **A firing of an entry that is served does not lapse.** -/
theorem Serves.awaited_attend_over {now : Nat} {r : JobRef} (h : s.Serves m name n)
    (sound : s.Sound) (filed : s.Filed) (lapses : s.attend now r = (.over, t)) :
    t.awaited n = s.awaited n := by
  rcases attend_over_inv lapses with rfl | ⟨⟨i, found, -, dead⟩, rfl⟩
  · rfl
  · rw [awaited_finishJob]
    refine Set.sdiff_singleton_eq_self ?_
    rintro ⟨j, k, found', does, -, kept⟩
    rw [found] at found'
    cases found'
    -- Nobody has cancelled it, and its scheduler is that of the manager.
    obtain rfl := h.manager_eq filed (sound.owned found does)
    rw [kept, (filed.live_of_serves h found does).open_] at dead
    exact absurd dead (by simp)

/-- **What is scheduled for an entry that is served waits for its time, and replaces nothing.** -/
theorem Serves.awaited_scheduleEntry (h : s.Serves m name n) (numbered : s.Numbered) (now : Nat)
    (delay : Duration) : ∃ r, s.job? r = none ∧
      (s.scheduleEntry now m n delay).awaited n = s.awaited n ∪ {r} ∧
      ∀ q, q ≠ r → (s.scheduleEntry now m n delay).job? q = s.job? q := by
  obtain ⟨e, found, alive⟩ := h.alive
  obtain ⟨k, manages, live⟩ := h.live
  have job := job?_scheduleEntry_of_live found alive manages live now delay
  refine ⟨⟨k.scheduler, (s.scheduler k.scheduler).jobs.length + 1⟩,
    (numbered k.scheduler).job?_eq_none (Nat.lt_succ_self _), ?_,
    fun q other => by rw [job, if_neg other]⟩
  ext q
  by_cases here : q = ⟨k.scheduler, (s.scheduler k.scheduler).jobs.length + 1⟩
  · have new := job q
    rw [if_pos here] at new
    exact ⟨fun _ => .inr here, fun _ => ⟨_, m, new, rfl, rfl, rfl⟩⟩
  · refine (mem_awaited_congr (by rw [job, if_neg here])).trans ⟨.inl, fun mem => ?_⟩
    exact mem.resolve_right here

/-! ### What is done for other names -/

theorem Tenure.acts {tenant : Option Nat} (h : Tenure m name tenant s) (sound : s.Sound)
    (a : Acts on s t) (apart : ¬on m name) : Tenure m name tenant t := by
  induction a with
  | refl => exact h
  | tail before last ih => exact ih.act (sound.changes (Acts.changes before)) last apart

/-- **What is done for other names leaves the firings of an entry that wait.** -/
theorem Tenure.awaited_act (h : Tenure m name (some n) s) (sound : s.Sound) (filed : s.Filed)
    (a : Act on s t) (apart : ¬on m name) : t.awaited n = s.awaited n := by
  obtain ⟨e, here, alive⟩ := (h.act sound a apart).alive rfl
  ext r
  constructor
  · rintro ⟨j, k, found, does, waits, kept⟩
    obtain ⟨i, before, fires, -⟩ := h.firing_before sound a apart rfl found does
    rw [a.change.job?_of_alive sound filed before fires here alive] at found
    cases found
    exact ⟨_, k, before, does, waits, kept⟩
  · rintro ⟨j, k, found, does, rest⟩
    exact ⟨j, k, a.change.job?_of_alive sound filed found does here alive, does, rest⟩

theorem Tenure.awaited_acts (h : Tenure m name (some n) s) (sound : s.Sound) (filed : s.Filed)
    (a : Acts on s t) (apart : ¬on m name) : t.awaited n = s.awaited n := by
  induction a with
  | refl => rfl
  | tail before last ih =>
      have changes := Acts.changes before
      rw [(h.acts sound before apart).awaited_act (sound.changes changes)
        (filed.changes sound changes) last apart, ih]

/-! ### Requests -/

/-- **A request for a firing is refused, or schedules one** for the entry that the name leads to,
which is new if it led nowhere. -/
theorem perform_of_asks {c : Call} (asks : c.Asks m name) (now : Nat) (s : ActorSystem) :
    c.perform now s = s ∨ ∃ u n delay, c.perform now s = u.scheduleEntry now m n delay ∧
      (u = s ∧ s.registered? m name = some n ∨
        (∃ actor, u = s.enrol m name actor) ∧ n = s.entries.length ∧
          s.registered? m name = none) := by
  cases c with
  | register m' other actor delay =>
      obtain ⟨rfl, rfl⟩ := asks
      show s.after (s.register now m' other actor delay) = s ∨ _
      cases d : Duration.ofDelay delay with
      | error e =>
          left
          rw [register, d]
          rfl
      | ok wait =>
          cases inserted : s.insert m' other actor with
          | error e =>
              left
              rw [register, d]
              simp only [bind, Except.bind, inserted]
              rfl
          | ok p =>
              obtain ⟨n, u⟩ := p
              refine .inr ⟨u, n, wait, ?_, ?_⟩
              · show s.after (s.register now m' other actor delay) = _
                rw [register, d]
                simp only [bind, Except.bind, inserted]
                rfl
              · rcases insert_inv inserted with ⟨rfl, leads⟩ | ⟨rfl, fresh, free⟩
                · exact .inl ⟨rfl, leads⟩
                · exact .inr ⟨⟨actor, rfl⟩, fresh, free⟩
  | wake m' other delay =>
      obtain ⟨rfl, rfl⟩ := asks
      show s.after (s.wake now m' other delay) = s ∨ _
      cases d : Duration.ofDelay delay with
      | error e =>
          left
          rw [wake, d]
          rfl
      | ok wait =>
          cases leads : s.registered? m' other with
          | none =>
              left
              rw [wake, d]
              simp only [bind, Except.bind, leads]
              rfl
          | some n =>
              refine .inr ⟨s, n, wait, ?_, .inl ⟨rfl, rfl⟩⟩
              show s.after (s.wake now m' other delay) = _
              rw [wake, d]
              simp only [bind, Except.bind, leads]
              rfl
  | request m' other delay =>
      obtain ⟨rfl, rfl⟩ := asks
      show s.heedRequest now m' other delay = s ∨ _
      cases leads : s.registered? m' other with
      | none =>
          left
          rw [heedRequest, leads]
      | some n =>
          refine .inr ⟨s, n, .ofMillis delay.toNat, ?_, .inl ⟨rfl, rfl⟩⟩
          show s.heedRequest now m' other delay = _
          rw [heedRequest, leads]
  | registerSuspended => cases asks
  | remove => cases asks
  | heed => cases asks
  | stop => cases asks

end ActorSystem

end RecurringWork
