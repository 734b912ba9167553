import RecurringWork.Dispatch.Run
import RecurringWork.Proofs.Actor.Coming
import RecurringWork.Proofs.Actor.Fleet
import RecurringWork.Proofs.Dispatch.Notices

/-!
# RecurringWork.Proofs.Dispatch.Workshop

**A worker and its writers, in every order in which their steps can follow each other.**
A `Workshop` is a fleet in which one worker is registered, the ledger that it shares with
any number of writers, and its wake target. One `Step` of it is a step of a writer, a
firing of the worker, or what a run does between two awaits.

Nobody else writes to the ledger, the worker stays registered, and no run fails. Timers
and the clock advance together, but not while a run that has looked at the clock for the
last time has not been scheduled again.
-/

namespace RecurringWork

/-- Where a worker is registered and how it works, with a clock that shows `start` before
any time has passed. It is alone on its node. -/
structure Station where
  manager : Nat
  name : String
  key : PartitionKey
  pace : Pace
  start : Int
  /-- The idle interval is one of whole milliseconds. -/
  whole : pace.idle.nanos % Duration.nanosPerMilli = 0
  /-- No time is near the end of the range. -/
  low : Instant.minimum ≤ start
  brief : (pace.idle.wholeMillis : Int) ≤ Instant.maximum
  high : start + pace.idle.wholeMillis ≤ Instant.maximum

/-- A worker with everything that it works on. -/
structure Workshop where
  fleet : Fleet
  target : WakeTarget
  ledger : Ledger Notice
  /-- How far the run has come that is in progress. -/
  progress : Option Progress
  /-- The notices that have been delivered. -/
  heard : List Notice

/-- The pause that a run has decided on. -/
def Progress.pause? : Progress → Option Duration
  | planned _ pause | settled pause => some pause
  | begun | marked | expired | working _ _ => none

/-- Whether a run is in progress after a firing has made a move. -/
def Arrival.progress (before : Option Progress) : Arrival → Option Progress
  | runs => some .begun
  | waits | dropped | skipped => before

namespace Station

/-- What the clock shows. -/
def clock (p : Station) (elapsed : Nat) : Int := p.start + elapsed

/-- The share that the worker works. -/
def share (p : Station) : Share := p.key.share none

end Station

namespace Workshop

/-- One thing that happens. -/
inductive Step (p : Station) : Workshop → Workshop → Prop
  /-- Time passes, unless a run is about to be scheduled again. -/
  | passes {w : Workshop} (d : Nat) : w.progress.bind Progress.pause? = none →
      p.clock (w.fleet.elapsed + d) + p.pace.idle.wholeMillis ≤ Instant.maximum →
      Step p w { w with fleet := { w.fleet with elapsed := w.fleet.elapsed + d } }
  /-- A writer does something. -/
  | writes {w : Workshop} {l : Ledger Notice} : Ledger.Posts w.ledger l →
      Step p w { w with ledger := l }
  /-- A notice is delivered after a commit: its writer nudges the worker. -/
  | nudges {f : Fleet} {target : WakeTarget} {l l' : Ledger Notice} {n : Notice}
      {progress : Option Progress} {heard : List Notice} (writer : Writer) :
      writer.manager = p.manager → writer.actorName = p.name → Ledger.Tells n l l' →
      Step p ⟨f, target, l, progress, heard⟩
        ⟨{ f with
            system := (writer.nudge target f.system f.elapsed (p.clock f.elapsed) n.due).system },
          (writer.nudge target f.system f.elapsed (p.clock f.elapsed) n.due).target, l', progress,
          n :: heard⟩
  /-- Somebody else wakes the worker. -/
  | wakes {w : Workshop} (delay : Int) :
      Step p w { w with fleet := { w.fleet with
        system := (Call.wake p.manager p.name delay).perform w.fleet.elapsed w.fleet.system } }
  /-- A firing of the worker begins. -/
  | fires {w : Workshop} {g : Fleet} {job : JobRef} {a : Arrival} :
      Fleet.Begins ⟨job, p.manager, 0⟩ a w.fleet g →
      Step p w { w with fleet := g, progress := a.progress w.progress }
  /-- A firing of the worker that has waited goes on. -/
  | resumes {w : Workshop} {g : Fleet} {job : JobRef} {a : Arrival} :
      Fleet.Resumes ⟨job, p.manager, 0⟩ a w.fleet g →
      Step p w { w with fleet := g, progress := a.progress w.progress }
  /-- A run does the next thing that it does by itself. -/
  | advances {f : Fleet} {target : WakeTarget} {b : Backlog}
      {scopes landing : List (Scope Write Notice)} {r r' : Progress} {d : Desk Notice}
      {heard : List Notice} :
      r.next p.pace p.share (p.clock f.elapsed) ⟨target, b, none⟩ = (r', d) →
      Step p ⟨f, target, ⟨b, scopes, landing⟩, some r, heard⟩
        ⟨f, d.target, ⟨d.backlog, scopes, landing⟩, some r', heard⟩
  /-- The verdict on the item at hand is recorded. -/
  | judges {f : Fleet} {target : WakeTarget} {b c : Backlog}
      {scopes landing : List (Scope Write Notice)} {full : Bool} {i : WorkItem}
      {rest : List WorkItem} {ws : List Write} {heard : List Notice} (verdict : Verdict) :
      p.pace.conclude b (p.clock f.elapsed) i verdict = (.ok ws, c) →
      Step p ⟨f, target, ⟨b, scopes, landing⟩, some (.working full (i :: rest)), heard⟩
        ⟨f, target, ⟨(c.record (none : Option (Scope Write Notice)) ⟨(), ws⟩).2.1, scopes, landing⟩,
          some (.working full rest), heard⟩
  /-- The run ends, and its manager schedules the next one. -/
  | ends {f g : Fleet} {job : JobRef} {at_ : Int} {target : WakeTarget} {l : Ledger Notice}
      {pause : Duration} {heard : List Notice} :
      Fleet.Ends ⟨job, p.manager, 0⟩ at_ (some (.reschedule pause)) f g →
      Step p ⟨f, target, l, some (.settled pause), heard⟩ ⟨g, target, l, none, heard⟩

/-- Any number of things that happen one after the other. -/
abbrev Steps (p : Station) : Workshop → Workshop → Prop := Relation.ReflTransGen (Step p)

theorem Steps.writes {p : Station} {f : Fleet} {target : WakeTarget} {l m : Ledger Notice}
    {progress : Option Progress} {heard : List Notice} (run : Ledger.Writes l m) :
    Steps p ⟨f, target, l, progress, heard⟩ ⟨f, target, m, progress, heard⟩ := by
  induction run with
  | refl => exact .refl
  | tail _ posts ih => exact ih.tail (.writes posts)

/-- The worker has been registered as the first actor of all, and its first run is
scheduled. -/
inductive Initial (p : Station) : Workshop → Prop
  | registered {s t : ActorSystem} {k : Manager} {actor : Nat} {delay : Int} (maxDeferCount : Nat) :
      Fleet.Blank s → s.manager? p.manager = some k → s.Live k.scheduler →
      s.register 0 p.manager p.name actor delay = .ok t →
      Initial p ⟨⟨t, 0, [], []⟩, .unplanned, .empty maxDeferCount, none, []⟩

/-- What can come of a worker that has just been registered. -/
def Reachable (p : Station) (w : Workshop) : Prop := ∃ start, Initial p start ∧ Steps p start w

/-! ### What a run does to the ledger -/

/-- What a run does when deadlines come is an operation like any other. -/
theorem record_expire {β : Type} (b : Backlog) (now : Int) :
    (b.record (none : Option (Scope Write β)) (b.expire now)).2.1 =
      Operation.expire.perform now b := by
  rw [Backlog.perform_eq_commit]
  exact (Backlog.drafted .expire now b).record (b.expire now).answer

/-- What becomes of a run, the wake target and the backlog when the run goes on by itself. -/
inductive Advance (pace : Pace) (share : Share) (now : Int) (target : WakeTarget) (b : Backlog) :
    Progress → Progress → WakeTarget → Backlog → Prop
  | marks : Advance pace share now target b .begun .marked .unknown b
  | expires :
      Advance pace share now target b .marked .expired target (Operation.expire.perform now b)
  | looks {full : Bool} {batch : List WorkItem} :
      Advance pace share now target b .expired (.working full batch) target b
  | plans {full : Bool} : Advance pace share now target b (.working full [])
      (.planned now (pace.pause b now share full)) target b
  | settles {then_ : Int} {pause : Duration} :
      Advance pace share now target b (.planned then_ pause) (.settled pause) (.after then_ pause) b
  /-- It waits for a verdict, or for its end. -/
  | rests {r : Progress} : Advance pace share now target b r r target b

theorem advance_next {pace : Pace} {share : Share} {now : Int} {target : WakeTarget} {b : Backlog}
    {r r' : Progress} {d : Desk Notice} (h : r.next pace share now ⟨target, b, none⟩ = (r', d)) :
    Advance pace share now target b r r' d.target d.backlog := by
  cases r with
  | begun =>
      cases h
      exact .marks
  | marked =>
      have backlog : d.backlog = Operation.expire.perform now b := by
        rw [← @record_expire Notice]
        exact congrArg (fun q => q.2.backlog) h.symm
      cases h
      rw [backlog]
      exact .expires
  | expired =>
      cases h
      exact .looks
  | working full rest =>
      cases rest with
      | nil =>
          cases h
          exact .plans
      | cons i rest =>
          cases h
          exact .rests
  | planned then_ pause =>
      cases h
      exact .settles
  | settled pause =>
      cases h
      exact .rests

/-- To record a verdict is an operation, too. -/
theorem conclude_inv {pace : Pace} {b c : Backlog} {now : Int} {i : WorkItem} {v : Verdict}
    {ws : List Write} (h : pace.conclude b now i v = (.ok ws, c)) :
    ∃ op : Operation, op.draft now b = (ws, c) ∧ (b.Dated → ∀ w ∈ ws, w.Dated) := by
  have deferred : ∀ {j : WorkItem}, pace.postponed? now i = some j → j.Dated := by
    intro j later
    unfold Pace.postponed? at later
    dsimp only at later
    split at later
    · cases later
      rfl
    · cases later
  cases v with
  | completed =>
      refine ⟨.complete i.id, ?_⟩
      have dated : b.Dated → ∀ w ∈ Backlog.draftedWrites (b.complete now i.id).1, w.Dated :=
        fun all => Backlog.dated_complete all now i.id
      unfold Pace.conclude at h
      unfold Operation.draft
      dsimp only at h ⊢
      split at h
      · next d e result =>
          cases h
          rw [result] at dated ⊢
          exact ⟨rfl, dated⟩
      · next f e result =>
          cases h
          rw [result] at dated ⊢
          exact ⟨rfl, dated⟩
      · cases h
  | deferred | failed =>
      -- Put off or failed, the item gets a later time, or the conclusion is refused.
      unfold Pace.conclude at h
      dsimp only at h
      split at h
      · cases h
      · next j later =>
          have timed : j.deferred.Dated := show j.Dated from deferred later
          have dated : ∀ w ∈ Backlog.draftedWrites (b.defer now j), w.Dated :=
            Backlog.dated_update timed
          refine ⟨.defer j, ?_⟩
          unfold Operation.draft
          dsimp only
          cases result : b.defer now j with
          | ok d =>
              rw [result] at h dated
              cases h
              exact ⟨rfl, fun _ => dated⟩
          | error e =>
              rw [result] at h dated
              cases h
              exact ⟨rfl, fun _ => dated⟩

/-- What is recorded of a verdict is carried out like any other operation. -/
theorem steps_conclude {β : Type} {pace : Pace} {b c : Backlog} {now : Int} {i : WorkItem}
    {v : Verdict} {ws : List Write} (h : pace.conclude b now i v = (.ok ws, c))
    (scopes landing : List (Scope Write β)) :
    Ledger.Steps ⟨b, scopes, landing⟩
      ⟨(c.record (none : Option (Scope Write β)) ⟨(), ws⟩).2.1, scopes, landing⟩ := by
  obtain ⟨op, draft, -⟩ := conclude_inv h
  have draft' := Backlog.drafted op now b
  rw [draft] at draft'
  have performed := Ledger.steps_perform b scopes landing op now
  rw [Backlog.perform_eq_commit, draft] at performed
  rw [draft'.record ()]
  exact performed

/-! ### Parts of a workshop -/

/-- A nudge wakes the worker or leaves it alone. -/
theorem nudge_system (writer : Writer) (target : WakeTarget) (s : ActorSystem) (elapsed : Nat)
    (now due : Int) : (writer.nudge target s elapsed now due).system = s ∨
      ∃ delay, (writer.nudge target s elapsed now due).system =
        (Call.wake writer.manager writer.actorName delay).perform elapsed s := by
  rw [Writer.system_nudge]
  split
  · refine .inr ⟨(delayUntil due now).toMillis, ?_⟩
    show _ = s.after (s.wake elapsed writer.manager writer.actorName (delayUntil due now).toMillis)
    cases s.wake elapsed writer.manager writer.actorName (delayUntil due now).toMillis <;> rfl
  · exact .inl rfl

/-- The fleet of a workshop does what fleets do. -/
theorem Step.fleet {p : Station} {w w' : Workshop} (st : Step p w w') :
    Fleet.Steps w.fleet w'.fleet := by
  cases st with
  | passes d _ _ => exact .single (.moves (.continues (.passes d)))
  | writes _ => exact .refl
  | @nudges f target l l' n progress heard writer _ _ _ =>
      rcases nudge_system writer target f.system f.elapsed (p.clock f.elapsed) n.due with
        same | ⟨delay, woken⟩
      · rw [same]
      · rw [woken]
        exact .single (.calls _)
  | wakes delay => exact .single (.calls _)
  | fires begins => exact .single (.moves (.begins begins))
  | resumes resumes => exact .single (.moves (.continues (.resumes resumes)))
  | advances _ => exact .refl
  | judges _ _ => exact .refl
  | ends ends => exact .single (.ends ends)

/-- Its ledger does what ledgers do. -/
theorem Step.ledger {p : Station} {w w' : Workshop} (st : Step p w w') :
    Ledger.Steps w.ledger w'.ledger := by
  cases st with
  | passes _ _ _ => exact .refl
  | writes posts => exact posts.steps
  | nudges _ _ _ tells => exact .single (.tells tells)
  | wakes _ => exact .refl
  | fires _ => exact .refl
  | resumes _ => exact .refl
  | @advances f target b scopes landing r r' d heard next =>
      -- Of all that a run does by itself, only the deadlines change the backlog.
      obtain ⟨after, c, scope⟩ := d
      cases advance_next next with
      | expires => exact Ledger.steps_perform b scopes landing .expire _
      | marks | looks | plans | settles | rests => exact .refl
  | judges verdict concluded => exact steps_conclude concluded _ _
  | ends _ => exact .refl

end Workshop

end RecurringWork
