import Mathlib.Data.List.Nodup
import Mathlib.Logic.Function.Basic
import RecurringWork.Proofs.Actor.Standing
import RecurringWork.Proofs.Dispatch.Submissions
import RecurringWork.Proofs.Dispatch.Wakeups

/-!
# RecurringWork.Proofs.Dispatch.Turnover

**A worker that comes and goes, and how far its wake target can be relied on.** A `Site` is a
fleet in which anybody registers and removes actors at any time. One actor of it is the
worker, under whatever names it is registered just then, and any number of writers nudge it
under the name that they know. One `Step` is a call, a nudge, a firing, or what a run of the
worker does between two awaits; runs of a registration that is gone go on beside those of the
next one.

A writer that finds the target early enough leaves the worker alone. Whether that is right
depends on whose plan the target is, its *author*: the entry whose run has set it last, or the
one that was woken when it was lowered last. There is none while the worker is not registered:
a nudge lowers the target even if there is nobody to wake.

* While the author of a target is served, the target promises no more than what will happen
  (`Trusted`), and every step keeps that (`Sound.step`).
* So after a nudge the worker runs in time, unless the writer has relied on a target of
  another author (`Reachable.submitted_awaited_or_stale`).
* Nothing stops a writer from doing that. A target that was lowered in vain silences every
  later nudge for the same time or a later one (`unheard_of_lowered_in_vain`).
-/

namespace RecurringWork

/-- An entry is one of an actor. -/
def ActorSystem.Employs (s : ActorSystem) (actor n : Nat) : Prop :=
  ∃ e, s.entry? n = some e ∧ e.actor = actor

namespace ActorSystem

variable {s t : ActorSystem} {actor n : Nat}

theorem Employs.before_change (h : t.Employs actor n) (c : Change s t)
    (known : (s.entry? n).isSome) : s.Employs actor n := by
  obtain ⟨e, found⟩ := Option.isSome_iff_exists.mp known
  obtain ⟨d, there, rfl⟩ := h
  obtain ⟨d', there', touched⟩ := c.entry found
  rw [there] at there'
  cases there'
  exact ⟨e, found, touched.actor.symm⟩

theorem Employs.before_changes (h : t.Employs actor n) (c : Changes s t)
    (known : (s.entry? n).isSome) : s.Employs actor n := by
  induction c using Relation.ReflTransGen.head_induction_on with
  | refl => exact h
  | head first _ ih => exact (ih (first.known known)).before_change first known

theorem Employs.before_alike (h : t.Employs actor n) (a : s.Alike t) : s.Employs actor n := by
  obtain ⟨e, found, rfl⟩ := h
  obtain ⟨d, before, core⟩ := a.entry_before found
  exact ⟨d, before, Entry.actor_eq_of_core core⟩

theorem Employs.before_endRun {k i now : Nat} {at_ : Int} {result : Option RunResult} {r : JobRef}
    (h : ((s.endRun now k i at_ result).finishJob r).Employs actor n) (owns : s.Owns k i)
    (known : (s.entry? n).isSome) : s.Employs actor n := by
  obtain ⟨u, changes, ended⟩ := endRun_cases owns now at_ result
  rw [ended] at h
  exact (h.before_alike (u.alike_over i r)).before_changes changes known

end ActorSystem

/-- A worker that comes and goes, with everything that it works on. -/
structure Site where
  fleet : Fleet
  target : WakeTarget
  backlog : Backlog
  /-- How far the run of a firing has come. One that is not in progress has not begun. -/
  stage : JobRef → Progress
  /-- The entry whose plan the target is. -/
  author : Option Nat

/-- Whether a run sets the wake target when it goes on. -/
def Progress.setsTarget : Progress → Bool
  | begun | planned _ _ => true
  | marked | expired | working _ _ | settled _ => false

namespace Site

/-- What a run of the worker can answer: the pause it has decided on, or, until it has decided
on one, that it failed, or nothing. -/
inductive Answers : Progress → Option RunResult → Prop
  | settled (pause : Duration) : Answers (.settled pause) (some (.reschedule pause))
  | fails {r : Progress} : r ≠ .begun → r.pause? = none → Answers r (some .failed)
  | breaks {r : Progress} : r ≠ .begun → r.pause? = none → Answers r none

/-- The site after a writer has nudged the worker. -/
def nudged (p : Station) (writer : Writer) (w : Site) (due : Int) : Site :=
  let u := writer.nudge w.target w.fleet.system w.fleet.elapsed (p.clock w.fleet.elapsed) due
  { w with
    fleet := { w.fleet with system := u.system }
    target := u.target
    author := if due < w.target.at_ then
        w.fleet.system.registered? writer.manager writer.actorName
      else w.author }

/-- The site after a writer has added items in a transaction of its own. -/
def submitted (p : Station) (writer : Writer) (w : Site) (items : List WorkItem) : Site :=
  let r := submit w.backlog (p.clock w.fleet.elapsed) none id items
  r.told.foldl (nudged p writer) { w with backlog := r.backlog }

/-- One thing that happens. -/
inductive Step (p : Station) (actor : Nat) : Site → Site → Prop
  /-- Firings go on by themselves. Time passes only while no run is about to be scheduled
  again. -/
  | moves {w : Site} {g : Fleet} : Fleet.Moves w.fleet g →
      (w.fleet.elapsed < g.elapsed → ∀ x ∈ w.fleet.running, (w.stage x.job).pause? = none) →
      p.clock g.elapsed + p.pace.idle.wholeMillis ≤ Instant.maximum →
      Step p actor w { w with fleet := g }
  /-- A manager is called: somebody registers, wakes or removes an actor. -/
  | calls {w : Site} (c : Call) : Step p actor w { w with
      fleet := { w.fleet with system := c.perform w.fleet.elapsed w.fleet.system } }
  /-- Others change what is stored. -/
  | stores {w : Site} (b : Backlog) : Step p actor w { w with backlog := b }
  /-- A writer nudges the worker. -/
  | nudges {w : Site} (writer : Writer) (due : Int) : writer.manager = p.manager →
      writer.actorName = p.name → Step p actor w (w.nudged p writer due)
  /-- A run of the worker does the next thing that it does by itself. -/
  | advances {w : Site} {x : Flight} {r : Progress} {d : Desk Notice} : x ∈ w.fleet.running →
      w.fleet.system.Employs actor x.entry →
      (w.stage x.job).next p.pace p.share (p.clock w.fleet.elapsed) ⟨w.target, w.backlog, none⟩ =
        (r, d) →
      Step p actor w { w with
        target := d.target
        backlog := d.backlog
        stage := Function.update w.stage x.job r
        author := if (w.stage x.job).setsTarget then some x.entry else w.author }
  /-- The verdict on the item at hand is recorded. -/
  | judges {w : Site} {x : Flight} {full : Bool} {i : WorkItem} {rest : List WorkItem}
      {ws : List Write} {c : Backlog} (verdict : Verdict) : x ∈ w.fleet.running →
      w.stage x.job = .working full (i :: rest) →
      p.pace.conclude w.backlog (p.clock w.fleet.elapsed) i verdict = (.ok ws, c) →
      Step p actor w { w with
        backlog := (c.record (none : Option (Scope Write Notice)) ⟨(), ws⟩).2.1
        stage := Function.update w.stage x.job (.working full rest) }
  /-- A run ends. Those of other actors end as they like. -/
  | ends {w : Site} {g : Fleet} {x : Flight} {at_ : Int} {result : Option RunResult} :
      Fleet.Ends x at_ result w.fleet g →
      (w.fleet.system.Employs actor x.entry → Answers (w.stage x.job) result) →
      Step p actor w { w with fleet := g, stage := Function.update w.stage x.job .begun }

/-- Any number of things that happen one after the other. -/
abbrev Steps (p : Station) (actor : Nat) : Site → Site → Prop :=
  Relation.ReflTransGen (Step p actor)

/-- Nobody is registered yet, and no run is planned. -/
def opening (s : ActorSystem) (b : Backlog) : Site :=
  ⟨⟨s, 0, [], []⟩, .unplanned, b, fun _ => .begun, none⟩

/-- What can come of managers and schedulers that nobody has used. -/
def Reachable (p : Station) (actor : Nat) (w : Site) : Prop :=
  ∃ s b, Fleet.Blank s ∧ Steps p actor (opening s b) w

variable {p : Station} {actor : Nat} {w w' : Site} {n : Nat} {t : Int}

theorem Reachable.steps (h : Reachable p actor w) (run : Steps p actor w w') :
    Reachable p actor w' := by
  obtain ⟨s, b, blank, start⟩ := h
  exact ⟨s, b, blank, start.trans run⟩

theorem steps_submitted {writer : Writer} (manager : writer.manager = p.manager)
    (name : writer.actorName = p.name) (w : Site) (items : List WorkItem) :
    Steps p actor w (w.submitted p writer items) := by
  have nudges : ∀ (told : List Int) (v : Site),
      Steps p actor v (told.foldl (nudged p writer) v) := by
    intro told
    induction told with
    | nil => exact fun _ => .refl
    | cons due rest ih => exact fun v => (ih _).head (.nudges writer due manager name)
  exact (nudges _ _).head (.stores _)

/-! ### What is awaited -/

/-- The worker runs under an entry by `t`, or at once if that has passed. -/
inductive Awaited (p : Station) (w : Site) (n : Nat) (t : Int) : Prop
  /-- A firing is to come. -/
  | coming : w.fleet.system.Coming p.manager n (max t (p.clock w.fleet.elapsed) - p.start) →
      Awaited p w n t
  /-- A firing waits for the end of a run. -/
  | queued {x : Flight} : x ∈ w.fleet.waiting → x.entry = n → Awaited p w n t
  /-- A run is in flight that has not looked at anything yet. -/
  | begun {x : Flight} : x ∈ w.fleet.running → x.entry = n → w.stage x.job = .begun →
      Awaited p w n t
  /-- A run is in flight that will pause no longer than that. -/
  | decided {x : Flight} {pause : Duration} : x ∈ w.fleet.running → x.entry = n →
      w.stage x.job = .settled pause →
      p.clock w.fleet.elapsed + pause.wholeMillis ≤ max t (p.clock w.fleet.elapsed) →
      Awaited p w n t

theorem Awaited.mono {later : Int} (h : Awaited p w n t) (le : t ≤ later) :
    Awaited p w n later := by
  cases h with
  | coming comes => exact .coming (comes.mono (by omega))
  | queued waits here => exact .queued waits here
  | begun runs here fresh => exact .begun runs here fresh
  | decided runs here settled soon => exact .decided runs here settled (by omega)

/-- What is stored, what the target is and who has set it is all the same. -/
theorem Awaited.stage {stage : JobRef → Progress} (h : Awaited p w n t)
    (begun : ∀ x ∈ w.fleet.running, w.stage x.job = .begun → stage x.job = .begun)
    (settled : ∀ x ∈ w.fleet.running, ∀ pause, w.stage x.job = .settled pause →
      stage x.job = .settled pause) (target : WakeTarget) (b : Backlog) (author : Option Nat) :
    Awaited p ⟨w.fleet, target, b, stage, author⟩ n t := by
  cases h with
  | coming comes => exact .coming comes
  | queued waits here => exact .queued waits here
  | begun runs here fresh => exact .begun runs here (begun _ runs fresh)
  | decided runs here decided soon => exact .decided runs here (settled _ runs _ decided) soon

/-- What leaves the firings of an entry to come leaves them awaited. -/
theorem Awaited.upheld {s : ActorSystem} (h : Awaited p w n t)
    (keeps : ∀ {last : Int}, w.fleet.system.Coming p.manager n last → s.Coming p.manager n last) :
    Awaited p { w with fleet := { w.fleet with system := s } } n t := by
  cases h with
  | coming comes => exact .coming (keeps comes)
  | queued waits here => exact .queued waits here
  | begun runs here fresh => exact .begun runs here fresh
  | decided runs here settled soon => exact .decided runs here settled soon

/-! ### Firings -/

/-- A run of the worker that has decided on a pause has done so just now. -/
def Apt (p : Station) (now : Int) : Progress → Prop
  | .planned then_ pause => then_ = now ∧ p.Brief pause
  | .settled pause => p.Brief pause
  | .begun | .marked | .expired | .working _ _ => True

theorem apt_of_undecided {r : Progress} (undecided : r.pause? = none) (now : Int) :
    Apt p now r := by
  cases r with
  | begun => trivial
  | marked => trivial
  | expired => trivial
  | working full rest => trivial
  | planned then_ pause => cases undecided
  | settled pause => cases undecided

/-- Whoever may rely on the wake target is right to do so. -/
def Trusted (p : Station) (w : Site) (n : Nat) : Prop :=
  w.target = .unknown ∨ Awaited p w n w.target.at_

/-- What is true of a site at any time. -/
structure Sound (p : Station) (actor : Nat) (w : Site) : Prop where
  fleet : w.fleet.Sound
  filed : w.fleet.system.Filed
  small : p.clock w.fleet.elapsed + p.pace.idle.wholeMillis ≤ Instant.maximum
  fresh : ∀ {r : JobRef}, w.stage r ≠ .begun → ∃ x ∈ w.fleet.running, x.job = r
  apt : ∀ r, Apt p (p.clock w.fleet.elapsed) (w.stage r)
  known : ∀ {n : Nat}, w.author = some n → (w.fleet.system.entry? n).isSome
  trusted : ∀ {n : Nat}, w.author = some n → w.fleet.system.Serves p.manager p.name n →
    w.fleet.system.Employs actor n → Trusted p w n

/-- Firings that have claimed the slot have not begun their runs. -/
theorem Sound.stage_of_waiting (h : Sound p actor w) {x : Flight} (waits : x ∈ w.fleet.waiting) :
    w.stage x.job = .begun := by
  by_contra begun
  obtain ⟨y, runs, same⟩ := h.fresh begun
  have distinct := h.fleet.manned.distinct
  rw [Fleet.flights, List.map_append, List.nodup_append] at distinct
  exact distinct.2.2 _ (List.mem_map_of_mem waits) _ (List.mem_map_of_mem runs) same.symm

/-- A job that is about to begin has no run yet. -/
theorem Sound.stage_of_begins (h : Sound p actor w) {r : JobRef} {duty : Duty} {s : ActorSystem}
    (begins : w.fleet.system.attend w.fleet.elapsed r = (.begin duty, s)) :
    w.stage r = .begun := by
  by_contra begun
  obtain ⟨y, runs, rfl⟩ := h.fresh begun
  obtain ⟨j, found, started, -⟩ := h.fleet.manned.started (List.mem_append_right _ runs)
  obtain ⟨⟨i, here, waits, -⟩, -⟩ := ActorSystem.attend_begin_inv begins
  rw [found] at here
  cases here
  rw [started] at waits
  cases waits

/-- Once a firing of an entry has begun, everything is awaited: its run has not looked at
anything yet, or the run of the firing that waits has not. -/
theorem Sound.awaited_begins {x : Flight} {a : Arrival} {g : Fleet} (h : Sound p actor w)
    (alive : ∃ e, w.fleet.system.entry? x.entry = some e ∧ e.cancelled = false)
    (begins : Fleet.Begins x a w.fleet g) : Awaited p { w with fleet := g } x.entry t := by
  obtain ⟨e, found, alive⟩ := alive
  have arrives := begins.arrival h.fleet found alive
  obtain ⟨begins⟩ := begins
  rcases arrives with runs | waits | ⟨dropped, behind⟩
  · rw [runs]
    exact .begun List.mem_cons_self rfl (h.stage_of_begins begins)
  · rw [waits]
    exact .queued List.mem_cons_self rfl
  · -- What is dropped is dropped in favour of a firing that waits.
    rw [dropped]
    obtain ⟨q, mem⟩ := List.exists_mem_of_ne_nil _ behind
    obtain ⟨y, waits, here, -⟩ := Fleet.mem_jobsOf.mp mem
    exact .queued waits here

/-- A firing that waits for the end of a run waits on, or its own run begins. -/
theorem Sound.awaited_of_queued (h : Sound p actor w) {g : Fleet} (mv : Fleet.Moves w.fleet g)
    (alive : ∃ e, w.fleet.system.entry? n = some e ∧ e.cancelled = false) {x : Flight}
    (waits : x ∈ w.fleet.waiting) (here : x.entry = n) : Awaited p { w with fleet := g } n t := by
  have fresh := h.stage_of_waiting waits
  obtain ⟨f, target, b, stage, author⟩ := w
  cases mv with
  | begins begins =>
      cases begins
      exact .queued (Fleet.mem_accept_waiting waits _ _) here
  | continues continues =>
      cases continues with
      | passes | lapses | hears => exact .queued waits here
      | @resumes _ y _ resumes =>
          by_cases same : x = y
          · subst same
            subst here
            obtain ⟨d, found, alive⟩ := alive
            have runs := resumes.arrival found alive
            obtain @⟨s, elapsed, before, after, running⟩ := resumes
            rw [runs]
            exact .begun List.mem_cons_self rfl fresh
          · obtain @⟨s, elapsed, before, after, running⟩ := resumes
            have still : x ∈ before ++ after := by simpa [same] using waits
            exact .queued (Fleet.mem_accept_waiting still _ _) here

/-- A firing that is to come still is, or has begun. -/
theorem Sound.awaited_of_coming (h : Sound p actor w) {g : Fleet} (mv : Fleet.Moves w.fleet g)
    (alive : ∃ e, w.fleet.system.entry? n = some e ∧ e.cancelled = false)
    (comes : w.fleet.system.Coming p.manager n (max t (p.clock w.fleet.elapsed) - p.start)) :
    Awaited p { w with fleet := g } n t := by
  obtain ⟨f, target, b, stage, author⟩ := w
  cases mv with
  | @begins x _ begins =>
      obtain @⟨_, s, begins⟩ := begins
      rcases comes.attend_begin begins with later | now
      · obtain ⟨j, found, started, -⟩ := (h.fleet.manned.begin begins).started List.mem_cons_self
        refine .coming ?_
        rw [Fleet.elapsed_accept]
        exact Fleet.coming_accept (j := j) (later.move x.entry _)
          ((s.job?_move x.entry _ x.job).trans found) started _
      · obtain ⟨-, rfl⟩ := Duty.firing.inj now
        exact h.awaited_begins alive (.intro begins)
  | continues continues =>
      cases continues with
      | passes d =>
          refine .coming (comes.mono ?_)
          simp only [Station.clock]
          omega
      | lapses lapses => exact .coming (comes.attend_over lapses)
      | @resumes _ x _ resumes =>
          obtain @⟨s, elapsed, before, after, running⟩ := resumes
          obtain ⟨j, job, started, -⟩ := h.fleet.manned.started
            (List.mem_append_left running (List.mem_append_right before List.mem_cons_self))
          refine .coming ?_
          rw [Fleet.elapsed_accept]
          exact Fleet.coming_accept (j := j) (comes.move x.entry _)
            ((s.job?_move x.entry _ x.job).trans job) started _
      | hears => exact .coming comes

/-- **What is awaited stays so while firings go on by themselves.** -/
theorem Sound.awaited_moves (h : Sound p actor w) {g : Fleet} (mv : Fleet.Moves w.fleet g)
    (idle : w.fleet.elapsed < g.elapsed → ∀ x ∈ w.fleet.running, (w.stage x.job).pause? = none)
    (alive : ∃ e, w.fleet.system.entry? n = some e ∧ e.cancelled = false)
    (awaited : Awaited p w n t) : Awaited p { w with fleet := g } n t := by
  cases awaited with
  | coming comes => exact h.awaited_of_coming mv alive comes
  | queued waits here => exact h.awaited_of_queued mv alive waits here
  | begun runs here fresh => exact .begun (mv.mem_running runs) here fresh
  | @decided x pause runs here settled soon =>
      -- No time passes while the run has decided on its pause.
      have still : g.elapsed = w.fleet.elapsed := by
        refine Nat.le_antisymm (Nat.le_of_not_lt fun later => ?_) mv.elapsed_le
        have undecided := idle later x runs
        rw [settled] at undecided
        cases undecided
      refine .decided (mv.mem_running runs) here settled ?_
      dsimp only
      rw [still]
      exact soon

/-! ### Every step -/

theorem Sound.moves (h : Sound p actor w) {g : Fleet} (mv : Fleet.Moves w.fleet g)
    (idle : w.fleet.elapsed < g.elapsed → ∀ x ∈ w.fleet.running, (w.stage x.job).pause? = none)
    (small : p.clock g.elapsed + p.pace.idle.wholeMillis ≤ Instant.maximum) :
    Sound p actor { w with fleet := g } where
  fleet := h.fleet.moves mv
  filed := h.filed.alike mv.alike mv.keepsOpen
  small := small
  fresh := by
    intro r begun
    obtain ⟨x, runs, same⟩ := h.fresh begun
    exact ⟨x, mv.mem_running runs, same⟩
  apt := by
    intro r
    by_cases later : w.fleet.elapsed < g.elapsed
    · by_cases begun : w.stage r = .begun
      · exact apt_of_undecided (by rw [begun]; rfl) _
      · obtain ⟨x, runs, rfl⟩ := h.fresh begun
        exact apt_of_undecided (idle later x runs) _
    · have still : g.elapsed = w.fleet.elapsed :=
        Nat.le_antisymm (Nat.le_of_not_lt later) mv.elapsed_le
      dsimp only
      rw [still]
      exact h.apt r
  known := fun author => mv.alike.known (h.known author)
  trusted := by
    intro n author serves employs
    have before := serves.before_alike mv.alike mv.keepsOpen
    exact (h.trusted author before (employs.before_alike mv.alike)).imp_right
      (h.awaited_moves mv idle before.alive)

/-- **Whatever is called, the author of the target is served as before, or not any more.** -/
theorem Sound.changes (h : Sound p actor w) {s : ActorSystem}
    (c : ActorSystem.Changes w.fleet.system s) :
    Sound p actor { w with fleet := { w.fleet with system := s } } where
  fleet := h.fleet.changes c
  filed := h.filed.changes h.fleet.manned.system c
  small := h.small
  fresh := h.fresh
  apt := h.apt
  known := fun author => c.known (h.known author)
  trusted := by
    intro n author serves employs
    have known := h.known author
    refine (h.trusted author (serves.before_changes c known)
      (employs.before_changes c known)).imp_right fun awaited => ?_
    exact awaited.upheld fun comes => comes.changes h.fleet.manned.system h.filed c serves

/-- A nudge calls the manager, or does not. -/
theorem changes_nudge (sound : w.fleet.Sound) (writer : Writer) (due : Int) :
    ActorSystem.Changes w.fleet.system (w.nudged p writer due).fleet.system := by
  rcases Workshop.nudge_system writer w.target w.fleet.system w.fleet.elapsed
    (p.clock w.fleet.elapsed) due with same | ⟨delay, woken⟩
  · rw [nudged]
    dsimp only
    rw [same]
  · rw [nudged]
    dsimp only
    rw [woken]
    exact ActorSystem.changes_perform sound.manned.system w.fleet.elapsed _

/-- A nudge of a worker that is served brings a firing in time, or finds a target that is
early enough. -/
theorem awaited_nudged (sound : w.fleet.Sound) {writer : Writer}
    (manager : writer.manager = p.manager) (name : writer.actorName = p.name)
    (serves : w.fleet.system.Serves p.manager p.name n) (due : Int) :
    Awaited p (w.nudged p writer due) n due ∨ w.target ≠ .unknown ∧ w.target.at_ ≤ due := by
  obtain ⟨-, -, woken⟩ := Workshop.nudge_inv manager name serves sound.manned.system.numbered
    w.target w.fleet.elapsed due
  exact woken.imp_left .coming

/-- A target that is early enough is left as it is, and so is the worker. -/
theorem nudged_of_early {due : Int} (known : w.target ≠ .unknown) (early : w.target.at_ ≤ due)
    (writer : Writer) : w.nudged p writer due = w := by
  have later : ¬ due < w.target.at_ := by omega
  have same : min w.target.at_ due = w.target.at_ := Int.min_eq_left early
  simp [nudged, Writer.system_nudge, Writer.target_nudge, WakeTarget.request, later, known, same]

theorem Sound.nudges (h : Sound p actor w) {writer : Writer}
    (manager : writer.manager = p.manager) (name : writer.actorName = p.name) (due : Int) :
    Sound p actor (w.nudged p writer due) := by
  have c := changes_nudge (p := p) h.fleet writer due
  have base := h.changes c
  have target : (w.nudged p writer due).target = ⟨min w.target.at_ due⟩ :=
    writer.target_nudge w.target w.fleet.system w.fleet.elapsed (p.clock w.fleet.elapsed) due
  have author : (w.nudged p writer due).author = if due < w.target.at_ then
      w.fleet.system.registered? writer.manager writer.actorName else w.author := rfl
  by_cases earlier : due < w.target.at_
  · rw [if_pos earlier] at author
    have known : ∀ {n : Nat}, (w.nudged p writer due).author = some n →
        (w.fleet.system.entry? n).isSome := by
      intro n signs
      obtain ⟨e, found, -⟩ := h.fleet.manned.system.named (author.symm.trans signs)
      rw [found]
      rfl
    refine ⟨base.fleet, base.filed, base.small, base.fresh, base.apt,
      fun signs => c.known (known signs), fun {n} signs serves _ => .inr ?_⟩
    -- The target is lowered to what the nudge is for, and the worker is woken for that.
    rw [target, Int.min_eq_right (by omega)]
    rcases awaited_nudged h.fleet manager name (serves.before_changes c (known signs)) due with
      awaited | ⟨-, early⟩
    · exact awaited
    · omega
  · rw [if_neg earlier] at author
    have same : (w.nudged p writer due).target = w.target :=
      target.trans (congrArg WakeTarget.mk (Int.min_eq_left (by omega)))
    refine ⟨base.fleet, base.filed, base.small, base.fresh, base.apt,
      fun signs => base.known (author.symm.trans signs), fun {n} signs serves employs => ?_⟩
    rw [Trusted, same]
    exact (base.trusted (author.symm.trans signs) serves employs).imp_right fun awaited =>
      awaited.stage (fun _ _ => id) (fun _ _ _ => id) _ _ _

/-- A run of the worker gets somewhere. -/
theorem Sound.restage (h : Sound p actor w) {x : Flight} (runs : x ∈ w.fleet.running) {r : Progress}
    (apt : Apt p (p.clock w.fleet.elapsed) r) {target : WakeTarget} {b : Backlog}
    {author : Option Nat}
    (known : ∀ {n : Nat}, author = some n → (w.fleet.system.entry? n).isSome)
    (trusted : ∀ {n : Nat}, author = some n → w.fleet.system.Serves p.manager p.name n →
      w.fleet.system.Employs actor n →
      Trusted p ⟨w.fleet, target, b, Function.update w.stage x.job r, author⟩ n) :
    Sound p actor ⟨w.fleet, target, b, Function.update w.stage x.job r, author⟩ where
  fleet := h.fleet
  filed := h.filed
  small := h.small
  fresh := by
    intro q other
    by_cases same : q = x.job
    · exact ⟨x, runs, same.symm⟩
    · dsimp only at other
      rw [Function.update_of_ne same] at other
      exact h.fresh other
  apt := by
    intro q
    dsimp only
    by_cases same : q = x.job
    · rw [same, Function.update_self]
      exact apt
    · rw [Function.update_of_ne same]
      exact h.apt q
  known := known
  trusted := trusted

/-- A run goes on without a word about when the worker runs next. -/
theorem Sound.works (h : Sound p actor w) {x : Flight} (runs : x ∈ w.fleet.running) {r : Progress}
    (begun : w.stage x.job ≠ .begun) (open_ : ∀ pause, w.stage x.job ≠ .settled pause)
    (apt : Apt p (p.clock w.fleet.elapsed) r) (b : Backlog) :
    Sound p actor ⟨w.fleet, w.target, b, Function.update w.stage x.job r, w.author⟩ := by
  refine h.restage runs apt h.known fun author serves employs => ?_
  refine (h.trusted author serves employs).imp_right fun awaited => ?_
  -- Whatever is awaited, it is not this run that it is awaited of.
  refine awaited.stage (fun y _ fresh => ?_) (fun y _ pause settled => ?_) _ _ _
  · have other : y.job ≠ x.job := fun same => begun (same ▸ fresh)
    rw [Function.update_of_ne other]
    exact fresh
  · have other : y.job ≠ x.job := fun same => open_ pause (same ▸ settled)
    rw [Function.update_of_ne other]
    exact settled

/-- A run sets the target, which is the plan of its entry from then on. -/
theorem Sound.sets (h : Sound p actor w) {x : Flight} (runs : x ∈ w.fleet.running) {r : Progress}
    (apt : Apt p (p.clock w.fleet.elapsed) r) {target : WakeTarget} {b : Backlog}
    (trusted : Trusted p ⟨w.fleet, target, b, Function.update w.stage x.job r, some x.entry⟩
      x.entry) :
    Sound p actor ⟨w.fleet, target, b, Function.update w.stage x.job r, some x.entry⟩ := by
  refine h.restage runs apt ?_ ?_
  · rintro n ⟨⟩
    obtain ⟨e, found, -⟩ := h.fleet.manned.owns (List.mem_append_right _ runs)
    rw [found]
    rfl
  · rintro n ⟨⟩ - -
    exact trusted

/-- A run goes on by itself. -/
theorem Sound.advances (h : Sound p actor w) {x : Flight} (runs : x ∈ w.fleet.running)
    {r : Progress} {d : Desk Notice}
    (next : (w.stage x.job).next p.pace p.share (p.clock w.fleet.elapsed)
      ⟨w.target, w.backlog, none⟩ = (r, d)) :
    Sound p actor ⟨w.fleet, d.target, d.backlog, Function.update w.stage x.job r,
      if (w.stage x.job).setsTarget then some x.entry else w.author⟩ := by
  have apt := h.apt x.job
  cases stage : w.stage x.job with
  | begun =>
      rw [stage] at next
      cases next
      exact h.sets (r := .marked) runs (apt_of_undecided rfl _) (.inl rfl)
  | marked =>
      rw [stage] at next
      cases next
      exact h.works (r := .expired) runs (by simp [stage]) (by simp [stage])
        (apt_of_undecided rfl _) _
  | expired =>
      rw [stage] at next
      cases next
      exact h.works (r := .working _ _) runs (by simp [stage]) (by simp [stage])
        (apt_of_undecided rfl _) _
  | working full rest =>
      rw [stage] at next
      cases rest with
      | nil =>
          cases next
          exact h.works (r := .planned _ _) runs (by simp [stage]) (by simp [stage])
            ⟨rfl, p.brief_pause w.backlog _ p.share full⟩ _
      | cons i rest =>
          cases next
          exact h.works (r := .working _ _) runs (by simp [stage]) (by simp [stage])
            (apt_of_undecided rfl _) _
  | planned then_ pause =>
      rw [stage] at next apt
      cases next
      obtain ⟨rfl, brief⟩ := apt
      refine h.sets (r := .settled pause) runs brief
        (.inr (.decided runs rfl (Function.update_self ..) ?_))
      -- The target names the end of the pause.
      dsimp only
      rw [brief.after_eq h.small]
      exact Int.le_max_left _ _
  | settled pause =>
      rw [stage] at next
      cases next
      rw [← stage, Function.update_eq_self, stage]
      exact h

/-- What is awaited when a run ends is left to the next firing, if the run was that of the
worker. -/
theorem Sound.awaited_ends {x : Flight} {at_ : Int} {result : Option RunResult} {g : Fleet}
    (h : Sound p actor w) (ends : Fleet.Ends x at_ result w.fleet g)
    (answers : w.fleet.system.Employs actor x.entry → Answers (w.stage x.job) result)
    (known : (w.fleet.system.entry? n).isSome) (serves : g.system.Serves p.manager p.name n)
    (employs : g.system.Employs actor n) (awaited : Awaited p w n t) :
    Awaited p { w with fleet := g, stage := Function.update w.stage x.job .begun } n t := by
  obtain ⟨f, target, b, stage, author⟩ := w
  obtain @⟨s, elapsed, waiting, before, after⟩ := ends
  have ran : x ∈ before ++ x :: after := List.mem_append_right _ List.mem_cons_self
  have among : x ∈ waiting ++ (before ++ x :: after) := List.mem_append_right _ ran
  have owns : s.Owns x.manager x.entry := h.fleet.manned.owns among
  obtain ⟨j, found, started, -⟩ := h.fleet.manned.started among
  obtain ⟨served, keeps⟩ :=
    serves.before_endRun h.fleet.manned.system h.filed owns found started known
  have employed := employs.before_endRun owns known
  have left : ∀ {y : Flight}, y ∈ before ++ x :: after → y ≠ x → y ∈ before ++ after := by
    intro y runs other
    simpa [other] using runs
  have stays : ∀ {y : Flight}, y ∈ before ++ x :: after → y ≠ x →
      Function.update stage x.job .begun y.job = stage y.job := by
    intro y runs other
    refine Function.update_of_ne (fun same => other ?_) ..
    exact h.fleet.manned.eq_of_job (List.mem_append_right _ runs) among same
  cases awaited with
  | coming comes => exact .coming (keeps comes)
  | queued waits here => exact .queued waits here
  | @begun y runs here fresh =>
      -- A run does not end before it has begun.
      have other : y ≠ x := by
        rintro rfl
        have answer : Answers (stage y.job) result := answers (here ▸ employed)
        rw [show stage y.job = .begun from fresh] at answer
        cases answer with
        | fails begun _ => exact begun rfl
        | breaks begun _ => exact begun rfl
      exact .begun (left runs other) here ((stays runs other).trans fresh)
  | @decided y pause runs here settled soon =>
      by_cases same : y = x
      · -- The next firing takes over what the run has decided on.
        subst same
        subst here
        have answer : Answers (stage y.job) result := answers employed
        have brief : Apt p (p.clock elapsed) (stage y.job) := h.apt y.job
        rw [show stage y.job = .settled pause from settled] at answer brief
        cases answer with
        | fails _ undecided => cases undecided
        | breaks _ undecided => cases undecided
        | settled =>
            have manager : y.manager = p.manager := served.manager_eq h.filed owns
            obtain ⟨-, comes⟩ := served.endRun h.fleet.manned.system.numbered found started elapsed
              at_ pause
            have timer := Station.Brief.timer_le brief
            rw [manager]
            refine .coming (comes.mono ?_)
            dsimp only at soon ⊢
            rw [Station.clock] at soon ⊢
            omega
      · exact .decided (left runs same) here ((stays runs same).trans settled) soon

/-- **The end of a run leaves what is awaited to the next firing.** -/
theorem Sound.ends {x : Flight} {at_ : Int} {result : Option RunResult} {g : Fleet}
    (h : Sound p actor w) (ends : Fleet.Ends x at_ result w.fleet g)
    (answers : w.fleet.system.Employs actor x.entry → Answers (w.stage x.job) result) :
    Sound p actor { w with fleet := g, stage := Function.update w.stage x.job .begun } := by
  have awaits := fun n t => h.awaited_ends (n := n) (t := t) ends answers
  have fleet := h.fleet.ends ends
  obtain ⟨f, target, b, stage, author⟩ := w
  obtain @⟨s, elapsed, waiting, before, after⟩ := ends
  have among : x ∈ waiting ++ (before ++ x :: after) :=
    List.mem_append_right _ (List.mem_append_right _ List.mem_cons_self)
  have sound := h.fleet.manned.system
  have owns : s.Owns x.manager x.entry := h.fleet.manned.owns among
  obtain ⟨j, found, started, -⟩ := h.fleet.manned.started among
  refine ⟨fleet, h.filed.endRun sound owns x.job elapsed at_ result, h.small, fun {r} begun => ?_,
    fun r => ?_, fun {n} signs => ?_, fun {n} signs serves employs => ?_⟩
  · have other : r ≠ x.job := by
      rintro rfl
      exact begun (Function.update_self ..)
    dsimp only at begun
    rw [Function.update_of_ne other] at begun
    obtain ⟨y, runs, rfl⟩ := h.fresh begun
    have different : y ≠ x := fun same => other (congrArg Flight.job same)
    exact ⟨y, by simpa [different] using runs, rfl⟩
  · dsimp only
    by_cases same : r = x.job
    · rw [same, Function.update_self]
      exact apt_of_undecided rfl _
    · rw [Function.update_of_ne same]
      exact h.apt r
  · obtain ⟨u, changes, ended⟩ := ActorSystem.endRun_cases owns elapsed at_ result
    dsimp only
    rw [ended]
    exact (u.alike_over x.entry x.job).known (changes.known (h.known signs))
  · have known := h.known signs
    obtain ⟨served, -⟩ := serves.before_endRun sound h.filed owns found started known
    have employed := employs.before_endRun owns known
    exact (h.trusted signs served employed).imp_right (awaits _ _ known serves employs)

/-- **Every step keeps a site sound.** -/
theorem Sound.step (h : Sound p actor w) (st : Step p actor w w') : Sound p actor w' := by
  cases st with
  | moves mv idle small => exact h.moves mv idle small
  | calls c => exact h.changes (ActorSystem.changes_perform h.fleet.manned.system w.fleet.elapsed c)
  | stores b =>
      exact ⟨h.fleet, h.filed, h.small, h.fresh, h.apt, h.known, fun signs serves employs =>
        (h.trusted signs serves employs).imp_right fun awaited =>
          awaited.stage (fun _ _ => id) (fun _ _ _ => id) _ _ _⟩
  | nudges writer due manager name => exact h.nudges manager name due
  | advances runs employs next => exact h.advances runs next
  | judges verdict runs stage concluded =>
      exact h.works runs (by simp [stage]) (by simp [stage]) (apt_of_undecided rfl _) _
  | ends ends answers => exact h.ends ends answers

theorem sound_opening {s : ActorSystem} (blank : Fleet.Blank s) (b : Backlog) :
    Sound p actor (opening s b) where
  fleet := blank.sound
  filed := blank.filed
  small := by
    have high := p.high
    show p.start + ((0 : Nat) : Int) + _ ≤ _
    omega
  fresh := fun begun => absurd rfl begun
  apt := fun _ => apt_of_undecided rfl _
  known := by
    rintro n ⟨⟩
  trusted := by
    rintro n ⟨⟩

theorem Reachable.sound (h : Reachable p actor w) : Sound p actor w := by
  obtain ⟨s, b, blank, run⟩ := h
  induction run with
  | refl => exact sound_opening blank b
  | tail _ st ih => exact ih.step st

/-! ### Submissions -/

/-- **The worker runs in time after a submission**, whatever has been registered and removed
before, unless the writer has relied on a target that is the plan of another registration, or
of none. Then nothing has been scheduled. -/
theorem Reachable.submitted_awaited_or_stale (h : Reachable p actor w)
    (serves : w.fleet.system.Serves p.manager p.name n) (employs : w.fleet.system.Employs actor n)
    (writer : Writer) (manager : writer.manager = p.manager) (name : writer.actorName = p.name)
    {items stored : List WorkItem} (some_ : items ≠ [])
    (ok : (submit w.backlog (p.clock w.fleet.elapsed) none id items).result = .ok stored) :
    ∃ due, (∃ i ∈ stored, i.scheduleTime = some due) ∧
      (∀ i ∈ stored, ∃ t, i.scheduleTime = some t ∧ due ≤ t) ∧
      (Awaited p (w.submitted p writer items) n due ∨
        w.target ≠ .unknown ∧ w.target.at_ ≤ due ∧ w.author ≠ some n ∧
          (w.submitted p writer items).fleet = w.fleet) := by
  obtain ⟨-, length, announces⟩ := Submission.announces_of_alone (by simp) ok
  rcases announces with ⟨rfl, -⟩ | ⟨due, told, least, others⟩
  · cases items with
    | nil => exact absurd rfl some_
    | cons i rest => cases length
  · refine ⟨due, least, others, ?_⟩
    rw [submitted, told]
    dsimp only [List.foldl, id]
    generalize (submit w.backlog (p.clock w.fleet.elapsed) none id items).backlog = b
    have sound := h.sound.step (.stores b)
    rcases awaited_nudged sound.fleet manager name serves due with awaited | ⟨known, early⟩
    · exact .inl awaited
    · rw [nudged_of_early known early]
      by_cases signs : w.author = some n
      · rcases sound.trusted signs serves employs with unknown | awaited
        · exact absurd unknown known
        · exact .inl (awaited.mono early)
      · exact .inr ⟨known, early, signs, rfl⟩

/-! ### A target that was lowered in vain -/

/-- A manager with nobody registered. -/
def vacant : ActorSystem := ⟨[], [⟨[], 0, none, none, none⟩], [.empty], []⟩

/-- A message that is due at a time. -/
def message (due : Int) : WorkItem :=
  { WorkItem.ofKind (.notification "email" .null) with scheduleTime := some due }

/-- A writer for the worker of the plain station. -/
def plainWriter : Writer := ⟨0, "x", 7, .ofSeconds 5, none⟩

/-- The worker is registered, to be woken by others. -/
def enrolled (w : Site) : Site :=
  { w with fleet := { w.fleet with
      system := (Call.registerSuspended 0 "x" 7).perform w.fleet.elapsed w.fleet.system } }

theorem reachable_vacant : Reachable Workshop.plainStation 7 (opening vacant (.empty 5)) :=
  ⟨vacant, .empty 5, ⟨rfl, by simp [vacant], by simp [vacant, Scheduler.empty]⟩, .refl⟩

theorem Reachable.enrolled (h : Reachable p actor w) : Reachable p actor w.enrolled :=
  h.steps (.single (.calls _))

theorem Reachable.submitted (h : Reachable p actor w) (writer : Writer)
    (manager : writer.manager = p.manager) (name : writer.actorName = p.name)
    (items : List WorkItem) : Reachable p actor (w.submitted p writer items) :=
  h.steps (steps_submitted manager name w items)

/-- A message that is due after two seconds finds a worker that has just been registered and
woken for a second earlier, and relies on that. -/
theorem submitted_awaited_of_registered :
    ∃ (w : Site) (stored : WorkItem), Reachable Workshop.plainStation 7 w ∧
      w.fleet.system.Serves 0 "x" 0 ∧ w.fleet.system.Employs 7 0 ∧ w.target = ⟨1000⟩ ∧
      (submit w.backlog 0 none id [message 2000]).result = .ok [stored] ∧
      Awaited Workshop.plainStation (w.submitted Workshop.plainStation plainWriter [message 2000]) 0
        2000 := by
  let w : Site := ((opening vacant (.empty 5)).enrolled).submitted Workshop.plainStation plainWriter
    [message 1000]
  have reached : Reachable Workshop.plainStation 7 w :=
    reachable_vacant.enrolled.submitted plainWriter rfl rfl [message 1000]
  have serves : w.fleet.system.Serves 0 "x" 0 :=
    ⟨rfl, ⟨_, rfl, rfl⟩, _, rfl, by decide, rfl⟩
  have employs : w.fleet.system.Employs 7 0 := ⟨_, rfl, rfl⟩
  have stores : (submit w.backlog 0 none id [message 2000]).result = .ok _ := rfl
  obtain ⟨due, ⟨i, mem, time⟩, -, heard⟩ :=
    reached.submitted_awaited_or_stale serves employs plainWriter rfl rfl (List.cons_ne_nil _ _)
      stores
  cases List.mem_singleton.mp mem
  cases time
  rcases heard with awaited | ⟨-, -, other, -⟩
  · exact ⟨w, _, reached, serves, employs, rfl, stores, awaited⟩
  · exact absurd rfl other

/-- **A wake-up that could not be delivered silences later ones.** A message that is due after a
second lowers the target while nobody is registered. When the worker has been registered, one
that is due after two seconds finds the target early enough, and nobody is woken: nothing is
running, nothing waits, and no firing has ever been scheduled. -/
theorem unheard_of_lowered_in_vain :
    ∃ (w : Site) (stored : WorkItem), Reachable Workshop.plainStation 7 w ∧
      w.fleet.system.Serves 0 "x" 0 ∧ w.fleet.system.Employs 7 0 ∧
      (submit w.backlog 0 none id [message 2000]).result = .ok [stored] ∧
      stored.scheduleTime = some 2000 ∧
      let v := w.submitted Workshop.plainStation plainWriter [message 2000]
      v.fleet.running = [] ∧ v.fleet.waiting = [] ∧ ∀ r, v.fleet.system.job? r = none := by
  let w : Site := ((opening vacant (.empty 5)).submitted Workshop.plainStation plainWriter
    [message 1000]).enrolled
  have reached : Reachable Workshop.plainStation 7 w :=
    (reachable_vacant.submitted plainWriter rfl rfl [message 1000]).enrolled
  have serves : w.fleet.system.Serves 0 "x" 0 :=
    ⟨rfl, ⟨.ofActor "x" 7, rfl, rfl⟩, _, rfl, by decide, rfl⟩
  refine ⟨w, _, reached, serves, ⟨.ofActor "x" 7, rfl, rfl⟩, rfl, rfl, rfl, rfl, fun ⟨k, n⟩ => ?_⟩
  cases k with
  | zero => rfl
  | succ k => rfl

end Site

end RecurringWork
