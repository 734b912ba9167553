import RecurringWork.Proofs.Dispatch.Workshop

/-!
# RecurringWork.Proofs.Dispatch.Wakeups

**No wake-up is lost.** What is added in time is worked in time although the writer that
adds it and the run that looks for it know of each other only by the wake target. Three
facts together make it so:

* *heeded* work is looked at in time (`Heeded`): a firing is to come, or waits behind a run,
  or the run in progress has not looked for the last time, or will pause no longer than
  that. No step takes this back but the last look of a run (`Heeded.step`);
* at its last look a run decides on a pause that suits everything that is stored
  (`clock_add_pause_le`), and from its beginning up to that decision its wake target is
  unknown;
* whoever is told by a wake target that need not wake the worker relies on work being
  heeded that is due then (`Trusted`).

An item that is stored after the last look is in nobody's plans. But its notice is
delivered later still, and finds the target unknown or known again; either way the item
is heeded from then on.
-/

namespace RecurringWork

/-! ### Pauses -/

namespace Station

/-- The pause is one of whole milliseconds and no longer than the idle interval. -/
structure Brief (p : Station) (pause : Duration) : Prop where
  whole : pause.nanos % Duration.nanosPerMilli = 0
  le : pause.nanos ≤ p.pace.idle.nanos

theorem brief_pause (p : Station) (b : Backlog) (now : Int) (share : Share) (full : Bool) :
    p.Brief (p.pace.pause b now share full) where
  whole := by
    unfold Pace.pause
    split
    · rfl
    · split
      · next due _ =>
          show min (delayUntil due now).nanos p.pace.idle.nanos % _ = 0
          rcases Nat.le_total (delayUntil due now).nanos p.pace.idle.nanos with le | le
          · rw [Nat.min_eq_left le]
            exact Nat.mul_mod_left _ _
          · rw [Nat.min_eq_right le]
            exact p.whole
      · exact p.whole
  le := p.pace.pause_le b now share full

/-- A timer that is set for a brief pause is not late. -/
theorem Brief.timer_le {p : Station} {pause : Duration} (h : p.Brief pause) :
    pause.timer ≤ pause.wholeMillis := by
  have whole := h.whole
  refine Nat.le_trans pause.timer_le_ticks ?_
  simp only [Duration.ticks, Duration.wholeMillis, Duration.nanosPerMilli] at whole ⊢
  omega

theorem Brief.wholeMillis_le {p : Station} {pause : Duration} (h : p.Brief pause) :
    pause.wholeMillis ≤ p.pace.idle.wholeMillis :=
  Nat.div_le_div_right h.le

/-- The plan that goes with a brief pause is exact. -/
theorem Brief.after_eq {p : Station} {pause : Duration} (h : p.Brief pause) {elapsed : Nat}
    (small : p.clock elapsed + p.pace.idle.wholeMillis ≤ Instant.maximum) :
    (WakeTarget.after (p.clock elapsed) pause).at_ = p.clock elapsed + pause.wholeMillis := by
  have low := p.low
  have brief := p.brief
  have le := h.wholeMillis_le
  -- Neither the pause nor its end is beyond what can be stored.
  have exact_ : pause.toMillis = pause.wholeMillis := Int.min_eq_left (by omega)
  show Instant.clamp (p.clock elapsed + pause.toMillis) = _
  rw [exact_, Instant.clamp_of_mem]
  · rw [clock]
    omega
  · omega

end Station

theorem add_delayUntil_le (due now : Int) :
    now + (delayUntil due now).wholeMillis ≤ max due now := by
  rw [delayUntil, Duration.wholeMillis_ofMillis, Instant.clamp, Instant.minimum, Instant.maximum]
  omega

/-- After its last look, a run pauses no longer than suits any item that waits. -/
theorem clock_add_pause_le {pace : Pace} {b : Backlog} {now t : Int} {share : Share} {id : Nat}
    {i : WorkItem} (full : Bool) (stored : b.get? id = some i) (new : i.state = .new)
    (holds : share.holds i) (due : i.scheduleTime = some t) :
    now + (pace.pause b now share full).wholeMillis ≤ max t now := by
  obtain ⟨d, next, le⟩ := Backlog.nextDue_le stored new holds due
  unfold Pace.pause
  split
  · show now + ((0 / Duration.nanosPerMilli : Nat) : Int) ≤ max t now
    rw [Nat.zero_div]
    omega
  · rw [next]
    have sooner :
        ((delayUntil d now).shorter pace.idle).wholeMillis ≤ (delayUntil d now).wholeMillis :=
      Nat.div_le_div_right (Nat.min_le_left _ _)
    have bound := add_delayUntil_le d now
    dsimp only
    omega

namespace Workshop

variable {p : Station} {f : Fleet} {progress : Option Progress} {t : Int}

/-! ### Being heeded -/

/-- Work that is due at `t` is looked at by then, or at once if it is due already. -/
inductive Heeded (p : Station) (f : Fleet) (progress : Option Progress) (t : Int) : Prop
  /-- A firing is to come. -/
  | coming : f.system.Coming p.manager 0 (max t (p.clock f.elapsed) - p.start) →
      Heeded p f progress t
  /-- A firing waits for the end of a run. -/
  | queued : f.waiting ≠ [] → Heeded p f progress t
  /-- A run has not decided yet how long to pause, or it has decided well. -/
  | inProgress {r : Progress} : progress = some r →
      (∀ pause, r.pause? = some pause →
        p.clock f.elapsed + pause.wholeMillis ≤ max t (p.clock f.elapsed)) →
      Heeded p f progress t

theorem Heeded.mono {later : Int} (h : Heeded p f progress t) (le : t ≤ later) :
    Heeded p f progress later := by
  cases h with
  | coming comes => exact .coming (comes.mono (by omega))
  | queued waits => exact .queued waits
  | inProgress runs brief =>
      refine .inProgress runs fun pause decided => ?_
      have := brief pause decided
      omega

/-- A run that has not decided yet heeds everything. -/
theorem heeded_of_undecided {r : Progress} (undecided : r.pause? = none) (t : Int) :
    Heeded p f (some r) t := by
  refine .inProgress rfl fun pause decided => ?_
  rw [undecided] at decided
  cases decided

/-- Time may pass while no run has decided on a pause. -/
theorem Heeded.passes (h : Heeded p f progress t) (d : Nat)
    (undecided : progress.bind Progress.pause? = none) :
    Heeded p { f with elapsed := f.elapsed + d } progress t := by
  cases h with
  | coming comes =>
      refine .coming (comes.mono ?_)
      simp only [Station.clock]
      omega
  | queued waits => exact .queued waits
  | inProgress runs _ =>
      rw [runs] at undecided
      rw [runs]
      exact heeded_of_undecided undecided t

/-- What upholds the firings of the worker upholds what is heeded. -/
theorem Heeded.upheld {s : ActorSystem} (h : Heeded p f progress t)
    (u : f.system.Upholds s p.manager p.name 0) : Heeded p { f with system := s } progress t := by
  cases h with
  | coming comes => exact .coming (u.coming comes)
  | queued waits => exact .queued waits
  | inProgress runs brief => exact .inProgress runs brief

/-! ### Firings -/

/-- Once a firing has begun, everything is heeded: the run looks at the backlog, or the
firing that waits will. -/
theorem heeded_fires {g : Fleet} {job : JobRef} {a : Arrival} (sound : f.Sound)
    (serves : f.system.Serves p.manager p.name 0)
    (begins : Fleet.Begins ⟨job, p.manager, 0⟩ a f g) (t : Int) :
    Heeded p g (a.progress progress) t := by
  obtain ⟨e, found, alive⟩ := serves.alive
  have arrives := begins.arrival sound found alive
  cases begins
  rcases arrives with runs | waits | ⟨dropped, behind⟩
  · rw [runs]
    exact heeded_of_undecided rfl t
  · rw [waits]
    exact .queued (List.cons_ne_nil _ _)
  · -- What is dropped is dropped in favour of a firing that waits.
    rw [dropped]
    refine .queued fun none => behind ?_
    rw [show f.waiting = [] from none]
    rfl

theorem heeded_resumes {g : Fleet} {job : JobRef} {a : Arrival}
    (serves : f.system.Serves p.manager p.name 0)
    (resumes : Fleet.Resumes ⟨job, p.manager, 0⟩ a f g) (t : Int) :
    Heeded p g (a.progress progress) t := by
  obtain ⟨e, found, alive⟩ := serves.alive
  obtain rfl := resumes.arrival found alive
  exact heeded_of_undecided rfl t

/-- The worker stays registered through every move. -/
theorem serves_move {s : ActorSystem} {move : Entry → Move} {x : Flight}
    (serves : s.Serves p.manager p.name 0) (core : ∀ e, (move e).entry.core = e.core) :
    (f.accept x (s.move 0 move).1 (s.move 0 move).2).system.Serves p.manager p.name 0 := by
  obtain ⟨e, found, -⟩ := serves.alive
  rw [ActorSystem.move_of_found found]
  have moved := (ActorSystem.upholds_moved found (core e) (move e).handed.toList).serves serves
  cases (move e).arrival with
  | runs => exact moved
  | waits => exact moved
  | dropped => exact moved.finishJob x.job
  | skipped => exact moved.finishJob x.job

/-- Where a run is in progress, a firing runs it. -/
theorem running_of_accept {x : Flight} {s : ActorSystem} (a : Arrival)
    (runs : progress.isSome → f.running ≠ []) (h : (a.progress progress).isSome) :
    (f.accept x a s).running ≠ [] := by
  cases a with
  | runs => exact List.cons_ne_nil _ _
  | waits => exact runs h
  | dropped => exact runs h
  | skipped => exact runs h

/-! ### Nudges -/

/-- Whoever relies on the wake target is right to do so. -/
def Trusted (p : Station) (f : Fleet) (progress : Option Progress) (target : WakeTarget) : Prop :=
  target = .unknown ∨ Instant.maximum ≤ target.at_ ∨ Heeded p f progress target.at_

theorem Trusted.imp {g : Fleet} {further : Option Progress} {target : WakeTarget}
    (h : Trusted p f progress target)
    (heeds : ∀ t, Heeded p f progress t → Heeded p g further t) : Trusted p g further target :=
  h.imp_right fun later => later.imp_right (heeds _)

/-- **A nudge lowers the target, and wakes the worker unless its plans make that
needless.** -/
theorem nudge_inv {s : ActorSystem} {writer : Writer} {entry : Nat}
    (manager : writer.manager = p.manager) (name : writer.actorName = p.name)
    (serves : s.Serves p.manager p.name entry) (numbered : s.Numbered) (target : WakeTarget)
    (elapsed : Nat) (due : Int) :
    s.Upholds (writer.nudge target s elapsed (p.clock elapsed) due).system p.manager p.name entry ∧
      (writer.nudge target s elapsed (p.clock elapsed) due).target = ⟨min target.at_ due⟩ ∧
      ((writer.nudge target s elapsed (p.clock elapsed) due).system.Coming p.manager entry
          (max due (p.clock elapsed) - p.start) ∨ target ≠ .unknown ∧ target.at_ ≤ due) := by
  rw [Writer.system_nudge, Writer.target_nudge, WakeTarget.request]
  dsimp only
  by_cases needed : (due < target.at_ || target == .unknown) = true
  · have positive := (delayUntil due (p.clock elapsed)).toMillis_nonneg
    rw [if_pos needed, manager, name, ActorSystem.wake_of_registered serves.leads _ positive]
    refine ⟨ActorSystem.upholds_scheduleEntry numbered _ _ _ _, rfl, .inl ?_⟩
    refine (serves.coming elapsed _).mono ?_
    -- Every rounding on the way from the time that is left to the timer goes down.
    have bound := add_delayUntil_le due (p.clock elapsed)
    have timer :=
      (Duration.ofMillis (delayUntil due (p.clock elapsed)).toMillis.toNat).timer_le_ticks
    rw [Duration.ticks_ofMillis] at timer
    have exact_ : (delayUntil due (p.clock elapsed)).toMillis ≤
        (delayUntil due (p.clock elapsed)).wholeMillis := Int.min_le_left _ _
    rw [Station.clock] at *
    omega
  · rw [if_neg needed]
    refine ⟨.refl _ _ _ _, rfl, .inr ?_⟩
    simp only [Bool.or_eq_true, decide_eq_true_eq, beq_iff_eq, not_or] at needed
    exact ⟨needed.2, by omega⟩

/-- After a nudge for `due`, everything is heeded that is due no earlier. -/
theorem Trusted.nudge {s : ActorSystem} {target : WakeTarget} {due : Int}
    (h : Trusted p f progress target) (upholds : f.system.Upholds s p.manager p.name 0)
    (high : due < Instant.maximum)
    (woken : s.Coming p.manager 0 (max due (p.clock f.elapsed) - p.start) ∨
      target ≠ .unknown ∧ target.at_ ≤ due) : Heeded p { f with system := s } progress due := by
  rcases woken with comes | ⟨known, early⟩
  · exact .coming comes
  · -- The worker was left alone because of an earlier plan, which can be relied on.
    rcases h with unknown | far | heeded
    · exact absurd unknown known
    · omega
    · exact (heeded.mono early).upheld upholds

theorem Trusted.lower {s : ActorSystem} {target : WakeTarget} {due : Int}
    (h : Trusted p f progress target) (upholds : f.system.Upholds s p.manager p.name 0)
    (heeded : Heeded p { f with system := s } progress due) :
    Trusted p { f with system := s } progress ⟨min target.at_ due⟩ := by
  rcases Int.le_total target.at_ due with le | le
  · rw [Int.min_eq_left le]
    exact h.imp fun t heeds => heeds.upheld upholds
  · rw [Int.min_eq_right le]
    exact .inr (.inr heeded)

/-! ### Every workshop -/

/-- What a run relies on at every point of it. -/
def Agrees (p : Station) (now : Int) (target : WakeTarget) : Progress → Prop
  | .begun => True
  | .marked | .expired | .working _ _ => target = .unknown
  | .planned then_ pause => target = .unknown ∧ then_ = now ∧ p.Brief pause
  | .settled pause => p.Brief pause

/-- No request makes an unknown target known. -/
theorem Agrees.lower {now due : Int} {target : WakeTarget} {r : Progress}
    (h : Agrees p now target r) (low : Instant.minimum ≤ due) :
    Agrees p now ⟨min target.at_ due⟩ r := by
  have stays : target = .unknown → (⟨min target.at_ due⟩ : WakeTarget) = .unknown := by
    rintro rfl
    exact congrArg WakeTarget.mk (Int.min_eq_left low)
  cases r with
  | begun => trivial
  | marked => exact stays h
  | expired => exact stays h
  | working full rest => exact stays h
  | planned then_ pause => exact ⟨stays h.1, h.2⟩
  | settled pause => exact h

theorem Agrees.passes {now later : Int} {target : WakeTarget} {r : Progress}
    (h : Agrees p now target r) (undecided : r.pause? = none) : Agrees p later target r := by
  cases r with
  | begun => trivial
  | marked => exact h
  | expired => exact h
  | working full rest => exact h
  | planned then_ pause => cases undecided
  | settled pause => cases undecided

/-- What is true of a workshop at any time. -/
structure Sound (p : Station) (w : Workshop) : Prop where
  fleet : w.fleet.Sound
  ledger : w.ledger.Sound
  serves : w.fleet.system.Serves p.manager p.name 0
  runs : w.progress.isSome → w.fleet.running ≠ []
  small : p.clock w.fleet.elapsed + p.pace.idle.wholeMillis ≤ Instant.maximum
  agrees : ∀ r, w.progress = some r → Agrees p (p.clock w.fleet.elapsed) w.target r
  trusted : Trusted p w.fleet w.progress w.target
  honours : w.ledger.Honours (Heeded p w.fleet w.progress) p.key w.heard

variable {w w' : Workshop}

theorem Sound.passes (h : Sound p w) (d : Nat) (undecided : w.progress.bind Progress.pause? = none)
    (small : p.clock (w.fleet.elapsed + d) + p.pace.idle.wholeMillis ≤ Instant.maximum) :
    Sound p { w with fleet := { w.fleet with elapsed := w.fleet.elapsed + d } } where
  fleet := h.fleet.moves (.continues (.passes d))
  ledger := h.ledger
  serves := h.serves
  runs := h.runs
  small := small
  agrees := by
    intro r runs
    have open_ : r.pause? = none := by
      rw [show w.progress = some r from runs] at undecided
      exact undecided
    exact (h.agrees r runs).passes open_
  trusted := h.trusted.imp fun t heeded => heeded.passes d undecided
  honours := h.honours.imp fun t heeded => heeded.passes d undecided

/-- A notice is delivered. -/
theorem Sound.nudges {target : WakeTarget} {l l' : Ledger Notice} {n : Notice}
    {heard : List Notice} {writer : Writer} (h : Sound p ⟨f, target, l, progress, heard⟩)
    (manager : writer.manager = p.manager) (name : writer.actorName = p.name)
    (tells : Ledger.Tells n l l')
    (fleet : Fleet.Sound { f with system :=
      (writer.nudge target f.system f.elapsed (p.clock f.elapsed) n.due).system })
    (ledger : l'.Sound) :
    Sound p ⟨{ f with system :=
        (writer.nudge target f.system f.elapsed (p.clock f.elapsed) n.due).system },
      (writer.nudge target f.system f.elapsed (p.clock f.elapsed) n.due).target, l', progress,
      n :: heard⟩ := by
  obtain ⟨upholds, lowers, woken⟩ := nudge_inv manager name h.serves h.fleet.manned.system.numbered
    target f.elapsed n.due
  obtain ⟨low, high⟩ := h.honours.ordinary tells
  have heeded := h.trusted.nudge upholds high woken
  refine ⟨fleet, ledger, upholds.serves h.serves, h.runs, h.small, fun r runs => ?_, ?_, ?_⟩
  · dsimp only
    rw [lowers]
    exact (h.agrees r runs).lower low
  · dsimp only
    rw [lowers]
    exact h.trusted.lower upholds heeded
  · exact (h.honours.imp fun t heeds => heeds.upheld upholds).tells tells
      fun t le => heeded.mono le

/-- A firing makes a move after which everything is heeded. -/
theorem Sound.moves {target : WakeTarget} {l : Ledger Notice} {heard : List Notice} {g : Fleet}
    {x : Flight} {s : ActorSystem} {a : Arrival} (h : Sound p ⟨f, target, l, progress, heard⟩)
    (elapsed : g.elapsed = f.elapsed) (running : g.running = f.running)
    (fleet : (g.accept x a s).Sound)
    (serves : (g.accept x a s).system.Serves p.manager p.name 0)
    (heeded : ∀ t, Heeded p (g.accept x a s) (a.progress progress) t) :
    Sound p ⟨g.accept x a s, target, l, a.progress progress, heard⟩ where
  fleet := fleet
  ledger := h.ledger
  serves := serves
  runs := running_of_accept a fun runs => running ▸ h.runs runs
  small := by
    rw [Fleet.elapsed_accept, elapsed]
    exact h.small
  agrees := by
    intro r runs
    dsimp only at runs ⊢
    rw [Fleet.elapsed_accept, elapsed]
    cases a with
    | runs =>
        cases runs
        trivial
    | waits => exact h.agrees r runs
    | dropped => exact h.agrees r runs
    | skipped => exact h.agrees r runs
  trusted := .inr (.inr (heeded _))
  honours := h.honours.imp fun t _ => heeded t

/-- The worker changes its items before its last look at them. -/
theorem Sound.works {target : WakeTarget} {b c : Backlog}
    {scopes landing : List (Scope Write Notice)} {heard : List Notice} {r r' : Progress}
    (h : Sound p ⟨f, target, ⟨b, scopes, landing⟩, some r, heard⟩)
    (ledger : Ledger.Sound (⟨c, scopes, landing⟩ : Ledger Notice)) (le : b.nextId ≤ c.nextId)
    (dated : c.Dated) (unknown : target = .unknown) (undecided : r'.pause? = none)
    (agrees : Agrees p (p.clock f.elapsed) target r') :
    Sound p ⟨f, target, ⟨c, scopes, landing⟩, some r', heard⟩ where
  fleet := h.fleet
  ledger := ledger
  serves := h.serves
  runs := fun _ => h.runs rfl
  small := h.small
  agrees := fun _ runs => by
    cases runs
    exact agrees
  trusted := .inl unknown
  honours := h.honours.of_heeded (heeded_of_undecided undecided) le dated

theorem share_holds (p : Station) (i : WorkItem) : p.share.holds i = p.key.selects i := by
  rw [Station.share, PartitionKey.share, Share.holds, inPartition]
  rfl

/-- What a run has decided on does not depend on whether it has said so. -/
theorem Heeded.settles {then_ : Int} {pause : Duration}
    (h : Heeded p f (some (.planned then_ pause)) t) : Heeded p f (some (.settled pause)) t := by
  cases h with
  | coming comes => exact .coming comes
  | queued waits => exact .queued waits
  | inProgress runs brief =>
      cases runs
      exact .inProgress rfl fun pause decided => brief pause decided

/-- A run goes on. -/
theorem Sound.advances {target after : WakeTarget} {b c : Backlog}
    {scopes landing : List (Scope Write Notice)} {heard : List Notice} {r r' : Progress}
    (h : Sound p ⟨f, target, ⟨b, scopes, landing⟩, some r, heard⟩)
    (advance : Advance p.pace p.share (p.clock f.elapsed) target b r r' after c)
    (ledger : Ledger.Sound (⟨c, scopes, landing⟩ : Ledger Notice)) :
    Sound p ⟨f, after, ⟨c, scopes, landing⟩, some r', heard⟩ := by
  have agrees := h.agrees r rfl
  cases advance with
  | marks =>
      -- Nobody relies on an unknown target, and a run that begins heeds everything.
      refine ⟨h.fleet, ledger, h.serves, fun _ => h.runs rfl, h.small, ?_, .inl rfl, ?_⟩
      · intro r runs
        cases runs
        rfl
      · exact h.honours.imp fun t _ => heeded_of_undecided rfl t
  | expires =>
      have dated : (Operation.expire.perform (p.clock f.elapsed) b).Dated :=
        h.honours.dated.perform (Backlog.Sound.ordered h.ledger) (Backlog.dated_expire b _)
      exact h.works ledger (Backlog.nextId_le_perform .expire _ b) dated agrees rfl agrees
  | looks => exact h.works ledger (Nat.le_refl _) h.honours.dated agrees rfl agrees
  | @plans full =>
      refine ⟨h.fleet, ledger, h.serves, fun _ => h.runs rfl, h.small, ?_, .inl agrees, ?_⟩
      · intro r runs
        cases runs
        exact ⟨agrees, rfl, p.brief_pause b _ p.share full⟩
      · -- This is the last look: from now on nothing is heeded but what was seen.
        refine h.honours.of_stored fun id i t found new mine due => ?_
        have holds : p.share.holds i := (share_holds p i).trans mine
        refine .inProgress rfl fun pause decided => ?_
        cases decided
        exact clock_add_pause_le full found new holds due
  | @settles then_ pause =>
      obtain ⟨-, now, brief⟩ := agrees
      dsimp only at now
      subst now
      refine ⟨h.fleet, ledger, h.serves, fun _ => h.runs rfl, h.small, ?_, ?_, ?_⟩
      · intro r runs
        cases runs
        exact brief
      · -- The target names the end of the pause, so it promises what the pause keeps.
        refine .inr (.inr (.inProgress rfl fun other decided => ?_))
        cases decided
        rw [brief.after_eq h.small]
        exact Int.le_max_left _ _
      · exact h.honours.imp fun t heeded => heeded.settles
  | rests => exact h

/-- A verdict is recorded. -/
theorem Sound.judges {target : WakeTarget} {b c : Backlog}
    {scopes landing : List (Scope Write Notice)} {full : Bool} {i : WorkItem} {rest : List WorkItem}
    {ws : List Write} {heard : List Notice} {verdict : Verdict}
    (h : Sound p ⟨f, target, ⟨b, scopes, landing⟩, some (.working full (i :: rest)), heard⟩)
    (concluded : p.pace.conclude b (p.clock f.elapsed) i verdict = (.ok ws, c))
    (ledger : Ledger.Sound (⟨(c.record (none : Option (Scope Write Notice)) ⟨(), ws⟩).2.1, scopes,
      landing⟩ : Ledger Notice)) :
    Sound p ⟨f, target, ⟨(c.record (none : Option (Scope Write Notice)) ⟨(), ws⟩).2.1, scopes,
      landing⟩, some (.working full rest), heard⟩ := by
  obtain ⟨op, draft, dates⟩ := conclude_inv concluded
  have drafts := Backlog.drafted op (p.clock f.elapsed) b
  have performs := Backlog.perform_eq_commit op (p.clock f.elapsed) b
  rw [draft] at drafts performs
  have records : (c.record (none : Option (Scope Write Notice)) ⟨(), ws⟩).2.1 =
      op.perform (p.clock f.elapsed) b := (drafts.record ()).trans performs.symm
  have dated : (op.perform (p.clock f.elapsed) b).Dated := by
    refine h.honours.dated.perform (Backlog.Sound.ordered h.ledger) ?_
    rw [draft]
    exact dates h.honours.dated
  have agrees := h.agrees _ rfl
  rw [records] at ledger ⊢
  exact h.works ledger (Backlog.nextId_le_perform op _ b) dated agrees rfl agrees

/-- **The end of a run keeps what it has decided on.** -/
theorem Sound.ends {g : Fleet} {job : JobRef} {at_ : Int} {target : WakeTarget}
    {l : Ledger Notice} {pause : Duration} {heard : List Notice}
    (h : Sound p ⟨f, target, l, some (.settled pause), heard⟩)
    (ends : Fleet.Ends ⟨job, p.manager, 0⟩ at_ (some (.reschedule pause)) f g) :
    Sound p ⟨g, target, l, none, heard⟩ := by
  have fleet := h.fleet.ends ends
  obtain @⟨s, elapsed, waiting, before, after⟩ := ends
  have among : (⟨job, p.manager, 0⟩ : Flight) ∈
      waiting ++ (before ++ ⟨job, p.manager, 0⟩ :: after) :=
    List.mem_append_right _ (List.mem_append_right _ List.mem_cons_self)
  obtain ⟨j, found, started, -⟩ := h.fleet.manned.started among
  obtain ⟨upholds, comes⟩ :=
    h.serves.endRun h.fleet.manned.system.numbered found started elapsed at_ pause
  have brief : p.Brief pause := h.agrees _ rfl
  have heeds : ∀ t, Heeded p ⟨s, elapsed, waiting, before ++ ⟨job, p.manager, 0⟩ :: after⟩
      (some (.settled pause)) t →
      Heeded p ⟨(s.endRun elapsed p.manager 0 at_ (some (.reschedule pause))).finishJob job,
        elapsed, waiting, before ++ after⟩ none t := by
    intro t heeded
    cases heeded with
    | coming later => exact .coming (upholds.coming later)
    | queued waits => exact .queued waits
    | inProgress runs soon =>
        -- The next firing takes over what the run has decided on.
        cases runs
        have soon := soon pause rfl
        have timer := brief.timer_le
        refine .coming (comes.mono ?_)
        dsimp only at soon ⊢
        rw [Station.clock] at soon ⊢
        omega
  exact ⟨fleet, h.ledger, upholds.serves h.serves, fun runs => (by cases runs), h.small,
    fun _ runs => (by cases runs), h.trusted.imp heeds, h.honours.imp heeds⟩

/-- **Every step keeps a workshop sound.** -/
theorem Sound.step (h : Sound p w) (st : Step p w w') : Sound p w' := by
  have fleet := h.fleet.steps st.fleet
  have ledger := h.ledger.steps st.ledger
  cases st with
  | passes d undecided small => exact h.passes d undecided small
  | writes posts =>
      exact ⟨h.fleet, ledger, h.serves, h.runs, h.small, h.agrees, h.trusted,
        h.honours.posts h.ledger posts⟩
  | nudges writer manager name tells => exact h.nudges manager name tells fleet ledger
  | wakes delay =>
      have upholds := h.serves.upholds_wake h.fleet.manned.system.numbered w.fleet.elapsed delay
      exact ⟨fleet, ledger, upholds.serves h.serves, h.runs, h.small, h.agrees,
        h.trusted.imp fun t heeded => heeded.upheld upholds,
        h.honours.imp fun t heeded => heeded.upheld upholds⟩
  | @fires w g job a begins =>
      have heeded : ∀ t, Heeded p g (a.progress w.progress) t :=
        heeded_fires h.fleet h.serves begins
      obtain @⟨_, s, begins⟩ := begins
      have serves := serves_move (f := w.fleet) (x := ⟨job, p.manager, 0⟩)
        (h.serves.attend_begin begins) fun e => e.core_fire job
      exact h.moves rfl rfl fleet serves heeded
  | @resumes w g job a resumes =>
      have heeded : ∀ t, Heeded p g (a.progress w.progress) t := heeded_resumes h.serves resumes
      obtain ⟨f, target, l, progress, heard⟩ := w
      obtain @⟨s, elapsed, before, after, running⟩ := resumes
      have serves := serves_move (f := ⟨s, elapsed, before ++ after, running⟩)
        (x := ⟨job, p.manager, 0⟩) h.serves Entry.core_proceed
      exact h.moves rfl rfl fleet serves heeded
  | @advances f target b scopes landing r r' d heard next =>
      obtain ⟨after, c, scope⟩ := d
      exact h.advances (advance_next next) ledger
  | judges verdict concluded => exact h.judges concluded ledger
  | ends ends => exact h.ends ends

theorem Sound.steps (h : Sound p w) (run : Steps p w w') : Sound p w' := by
  induction run with
  | refl => exact h
  | tail _ st ih => exact ih.step st

/-- The first run of a worker is scheduled with its registration. -/
theorem Initial.sound (h : Initial p w) : Sound p w := by
  cases h with
  | @registered s t k actor delay maxDeferCount blank manages live registers =>
      have start := blank.sound
      have free : s.registered? p.manager p.name = none := by
        cases leads : s.registered? p.manager p.name with
        | none => rfl
        | some n =>
            obtain ⟨e, found, -⟩ := start.manned.system.named leads
            rw [ActorSystem.entry?, blank.entries] at found
            cases found
      have fleet : Fleet.Sound ⟨t, 0, [], []⟩ :=
        start.changes (ActorSystem.changes_register start.manned.system registers)
      have positive : 0 ≤ delay := by
        by_contra negative
        rw [ActorSystem.register, Duration.ofDelay, if_pos (Int.not_le.mp negative)] at registers
        cases registers
      have enrolled := ActorSystem.serves_enrol free manages live actor
      have serves : t.Serves p.manager p.name 0 := by
        rw [ActorSystem.register_of_free free 0 actor positive] at registers
        cases registers
        rw [show s.entries.length = 0 from congrArg List.length blank.entries] at enrolled ⊢
        exact (ActorSystem.upholds_scheduleEntry
          (start.manned.system.change (.enrols actor free)).numbered 0 p.manager 0 _).serves enrolled
      -- An unplanned target is later than any time, so it promises nothing.
      refine ⟨fleet, Ledger.sound_empty maxDeferCount, serves, fun runs => (by cases runs), ?_,
        fun _ runs => (by cases runs), .inr (.inl (Int.le_refl _)), Ledger.honours_empty _⟩
      have high := p.high
      show p.start + ((0 : Nat) : Int) + _ ≤ _
      omega

theorem Reachable.sound (h : Reachable p w) : Sound p w := by
  obtain ⟨start, first, run⟩ := h
  exact first.sound.steps run

/-- **No wake-up is lost.** When no run of the worker is in flight or queued, every item of
its slice that waits, and whose writer has delivered its notice, has a firing that is to
come by the time at which the item is due, or at once if that has passed. -/
theorem Reachable.no_lost_wakeup (h : Reachable p w) (idle : w.fleet.running = [])
    (unqueued : w.fleet.waiting = []) {id : Nat} {i : WorkItem} {n : Notice}
    (stored : w.ledger.backlog.get? id = some i) (new : i.state = .new) (mine : p.key.selects i)
    (delivered : n ∈ w.heard) (added : id ∈ n.ids) :
    ∃ due r j, i.scheduleTime = some due ∧ w.fleet.system.job? r = some j ∧
      j.duty = .firing p.manager 0 ∧ j.phase = .waiting ∧
      (w.fleet.system.scheduler r.scheduler).isCancelled r.number = false ∧
      p.clock j.due ≤ max due (p.clock w.fleet.elapsed) := by
  have sound := h.sound
  obtain ⟨due, time⟩ := Option.isSome_iff_exists.mp (sound.honours.dated id i stored)
  have heeded := (sound.honours.kept id i due stored new mine time).1 n delivered added
  cases heeded with
  | queued waits => exact absurd unqueued waits
  | inProgress runs _ => exact absurd idle (sound.runs (by rw [runs]; rfl))
  | coming comes =>
      obtain ⟨r, j, found, duty, waits, alive, open_, early⟩ := comes
      refine ⟨due, r, j, time, found, duty, waits, ?_, ?_⟩
      · rw [ActorSystem.job?] at found
        rw [Scheduler.isCancelled, found, open_]
        simpa using alive
      · simp only [Station.clock] at early ⊢
        omega

/-- A worker for everything, at the standard pace. -/
def plainStation : Station where
  manager := 0
  name := "x"
  key := .all
  pace := .standard
  start := 0
  whole := rfl
  low := by decide
  brief := by decide
  high := by decide

/-- A message that is due after a second finds a worker whose first run is due after a
minute, and does not have to wait for that. -/
theorem no_lost_wakeup_of_early_item :
    ∃ (w : Workshop) (i : WorkItem), Reachable plainStation w ∧ w.fleet.running = [] ∧
      w.fleet.waiting = [] ∧ w.ledger.backlog.get? 1 = some i ∧ i.scheduleTime = some 1000 ∧
      ∃ r j, w.fleet.system.job? r = some j ∧ j.duty = .firing 0 0 ∧ j.phase = .waiting ∧
        plainStation.clock j.due ≤ 1000 := by
  let unused : ActorSystem := ⟨[], [⟨[], 0, none, none, none⟩], [.empty], []⟩
  let registered : Fleet := ⟨(Call.register 0 "x" 7 60000).perform 0 unused, 0, [], []⟩
  let message : WorkItem :=
    { WorkItem.ofKind (.notification "email" .null) with scheduleTime := some 1000 }
  let stored : WorkItem := (Backlog.empty 5).admitted 0 1000 message
  let after : Backlog := { (Backlog.empty 5).put stored with nextId := 2 }
  let writer : Writer := ⟨0, "x", 7, .ofSeconds 5, none⟩
  have blank : Fleet.Blank unused := ⟨rfl, by simp [unused], by simp [unused, Scheduler.empty]⟩
  have first : Initial plainStation ⟨registered, .unplanned, .empty 5, none, []⟩ :=
    @Initial.registered plainStation unused _ _ 7 60000 5 blank rfl ⟨by decide, rfl⟩ rfl
  have added : Backlog.addAll 0 [message] (.empty 5) (.empty : Scope Write Notice) =
      (.ok [stored], _, _) := rfl
  have timely : ∀ i, Write.insert i ∈ [Write.insert stored] → i.Timely := by
    intro i mem
    cases List.mem_singleton.mp mem
    exact ⟨1000, rfl, by decide, by decide⟩
  have submits : Ledger.Writes (.empty 5) ⟨after, [], [⟨false, [], [⟨1000, [1]⟩]⟩]⟩ :=
    (Ledger.writes_submit_alone added timely).2
  have tells := @Ledger.Tells.intro Notice ⟨1000, [1]⟩ after [] [] [] false []
  have nudges := @Step.nudges plainStation registered .unplanned _ _ _ none [] writer rfl rfl tells
  have reached : Reachable plainStation _ := ⟨_, first, (Steps.writes submits).tail nudges⟩
  have found : after.get? 1 = some stored := rfl
  obtain ⟨due, r, j, time, job, duty, waits, -, early⟩ :=
    reached.no_lost_wakeup rfl rfl found rfl rfl List.mem_cons_self (List.mem_singleton_self 1)
  cases time
  exact ⟨_, stored, reached, rfl, rfl, found, rfl, r, j, job, duty, waits, early⟩

end Workshop

end RecurringWork
