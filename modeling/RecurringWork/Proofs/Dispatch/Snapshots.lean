import RecurringWork.Proofs.Dispatch.Shift

/-!
# RecurringWork.Proofs.Dispatch.Snapshots

**A run works on what it has seen.** It looks for work once, and from then on it goes by what it
has found there: an item is handed out without another look at the backlog, and an item whose
time has not come is stored as it was handed out.

* As long as nobody else writes about an item, what has been found is what is stored. It waits,
  and what can have come in the meantime is its deadline (`Shift.Steps.handed_as_found`).
* What is stored when an item is deferred is the item that was handed out, put off
  (`Shift.Steps.deferred_as_handed`). Whatever has been stored in its place since is lost.

`Shift.handed_when_over` and `Shift.cursor_lost` show how it goes wrong.
-/

namespace RecurringWork

/-- The item once it is deferred at `now`, to be due at `retry`. It is dropped if it may not be
deferred again. -/
def WorkItem.putOff (i : WorkItem) (now retry : Int) : WorkItem :=
  let later := { i.deferred with scheduleTime := some retry }
  { later with
    state := Backlog.targetState later
    stateChangedAt := if Backlog.targetState later = .new then i.stateChangedAt else now }

namespace Backlog

variable {b : Backlog} {now : Int}

/-- The item may be worked on: it waits, and its deadline has not come. -/
def Live (b : Backlog) (now : Int) (id : Nat) : Prop :=
  ∃ i, b.get? id = some i ∧ i.state = .new ∧ ∀ d ∈ i.deadline, now < d

/-- What waits after all items have been ended whose deadline has come has a deadline to come. -/
theorem Ordered.lt_deadline (ordered : b.Ordered) {id : Nat} {i : WorkItem}
    (found : (Operation.expire.perform now b).get? id = some i) (new : i.state = .new) :
    ∀ d ∈ i.deadline, now < d := by
  rw [get?_perform_expire ordered, Option.map_eq_some_iff] at found
  obtain ⟨j, -, same⟩ := found
  split at same
  · subst same
    cases new
  · next before =>
      subst same
      intro d mem
      have time : j.deadline = some d := mem
      simpa [WorkItem.isPastDeadline, new, time] using before

/-- A replacement of an item that waits is recorded by storing it. -/
theorem record_replace_of_new {i : WorkItem} (waits : b.HasNew i.id) (β : Type) :
    (b.record (none : Option (Scope Write β)) ⟨(), [.replace i none]⟩).2.1 = b.put i := by
  simp [record, carryOut_replace_of_new waits]

end Backlog

namespace Pace

variable {pace : Pace} {b : Backlog} {now : Int} {i : WorkItem} {v : Verdict}

theorem postponed?_of_le (within : now + pace.deferDelay.toMillis ≤ Instant.maximum) :
    pace.postponed? now i =
      some { i with scheduleTime := some (now + pace.deferDelay.toMillis) } :=
  if_pos within

/-- There is no instant so late. -/
theorem conclude_of_beyond (defers : v ≠ .completed)
    (beyond : Instant.maximum < now + pace.deferDelay.toMillis) :
    pace.conclude b now i v = (.error .fault, b) := by
  have never : pace.postponed? now i = none := if_neg (Int.not_le.mpr beyond)
  cases v with
  | completed => exact absurd rfl defers
  | deferred | failed => simp only [conclude, never]

/-- There is nothing to defer. -/
theorem conclude_of_not_hasNew (defers : v ≠ .completed)
    (within : now + pace.deferDelay.toMillis ≤ Instant.maximum) (ended : ¬b.HasNew i.id) :
    pace.conclude b now i v = (.ok [], b) := by
  let later := { i with scheduleTime := some (now + pace.deferDelay.toMillis) }
  obtain ⟨e, refusal⟩ : ∃ e, b.defer now later = .error e :=
    Backlog.update_of_not_hasNew (i := later.deferred) ended now
  cases v with
  | completed => exact absurd rfl defers
  | deferred | failed => simp only [conclude, postponed?_of_le within, later, refusal]

/-- An item that waits is replaced by the one that was handed out, due when the delay is over and
deferred once more. Only its stamps are those of the stored one. -/
theorem conclude_of_new {current : WorkItem} (defers : v ≠ .completed)
    (within : now + pace.deferDelay.toMillis ≤ Instant.maximum)
    (stored : b.get? i.id = some current) (new : current.state = .new) :
    let later := { i with scheduleTime := some (now + pace.deferDelay.toMillis) }
    pace.conclude b now i v = (.ok [.replace (later.deferred.inPlaceOf current now) none], b) := by
  intro later
  have drafted : b.defer now later = .ok ⟨later.deferred.inPlaceOf current now,
      [.replace (later.deferred.inPlaceOf current now) none]⟩ :=
    Backlog.update_of_new (i := later.deferred) stored new now
  cases v with
  | completed => exact absurd rfl defers
  | deferred | failed => simp only [conclude, postponed?_of_le within, drafted, later]

/-- **What is stored when an item that waits is deferred is the item that was handed out, put off.**
Only its stamps are those of the stored one, and they are the same. -/
theorem conclude_of_waiting {current : WorkItem} (defers : v ≠ .completed)
    (within : now + pace.deferDelay.toMillis ≤ Instant.maximum)
    (stored : b.get? i.id = some current) (new : current.state = .new)
    (created : current.creationTime = i.creationTime)
    (changed : current.stateChangedAt = i.stateChangedAt) :
    pace.conclude b now i v =
      (.ok [.replace (i.putOff now (now + pace.deferDelay.toMillis)) none], b) := by
  let later := { i with scheduleTime := some (now + pace.deferDelay.toMillis) }
  have same : later.deferred.inPlaceOf current now =
      i.putOff now (now + pace.deferDelay.toMillis) := by
    unfold WorkItem.inPlaceOf
    simp only [new, beq_iff_eq, created, changed]
    rfl
  exact same ▸ conclude_of_new defers within stored new

end Pace

namespace Shift

variable {β : Type} {pace : Pace} {share : Share}

/-! ### What is handed out -/

/-- **An item is handed out as it was found when the run looked for work.** It was due then, and its
deadline had not come. If it cannot be worked on any more when it is handed out, then either
somebody else has written about it since, or its deadline has come. -/
theorem Steps.handed_as_found {l : Ledger β} {target : WakeTarget} {clock : Int} {s : Shift β}
    {full : Bool} {i : WorkItem} {rest : List WorkItem} (start : l.Reachable)
    (run : Steps pace share (opening l none target clock) s)
    (turn : s.progress = some (.working full (i :: rest))) :
    (i.isDue clock ∧ share.holds i ∧ ∀ d ∈ i.deadline, clock < d) ∧
    (i.id ∉ s.touched → s.ledger.backlog.get? i.id = some i) ∧
    (s.ledger.backlog.Live s.clock i.id ∨ i.id ∈ s.touched ∨ ∃ d ∈ i.deadline, d ≤ s.clock) ∧
    (s.handed = [] → s.ledger.backlog.Live s.clock i.id) := by
  obtain ⟨-, taken, seen, new, stored⟩ := run.turn start turn
  obtain ⟨-, due, holds⟩ := Backlog.mem_due (List.mem_of_mem_take taken)
  have before : l.backlog.Ordered := Backlog.Sound.ordered start.sound
  have early := before.lt_deadline seen new
  refine ⟨⟨due, holds, early⟩, stored, ?_, fun first => ?_⟩
  · by_cases touched : i.id ∈ s.touched
    · exact .inr (.inl touched)
    by_cases late : ∃ d ∈ i.deadline, d ≤ s.clock
    · exact .inr (.inr late)
    · refine .inl ⟨i, stored touched, new, fun d mem => ?_⟩
      by_contra past
      exact late ⟨d, mem, by omega⟩
  · obtain ⟨same, untouched⟩ := run.undisturbed first
    rw [same]
    exact ⟨i, stored (by simp [untouched]), new, early⟩

/-- Two messages are due at 1000, and their deadline is at 2000. -/
def twoMessages : Ledger Unit :=
  let add := Operation.add { WorkItem.ofKind (.notification "email" .null) with
    scheduleTime := some 1000
    deadline := some 2000 }
  ⟨add.perform 1000 (add.perform 1000 (.empty 5)), [], []⟩

theorem reachable_twoMessages : twoMessages.Reachable :=
  ⟨5, (Ledger.steps_perform _ _ _ _ _).trans (Ledger.steps_perform _ _ _ _ _)⟩

/-- One of the two messages as it is stored. -/
def oneMessage (id : Nat) : WorkItem :=
  { (Backlog.empty 5).admitted 1000 1000 (.ofKind (.notification "email" .null)) with
    id
    deadline := some 2000 }

theorem steps_twoMessages : Steps .standard ⟨0, 1, .all⟩ (opening twoMessages none .unplanned 1000)
    ⟨twoMessages, none, .unknown, 1000, some (.working false [oneMessage 1, oneMessage 2]), false,
      [], []⟩ := by
  have pair : [oneMessage 1, oneMessage 2].Pairwise fun i j => Backlog.comesBefore i j := by
    simp [Backlog.comesBefore, oneMessage]
  have batch : Pace.standard.batch (twoMessages.expired 1000).backlog 1000 ⟨0, 1, .all⟩ =
      [oneMessage 1, oneMessage 2] := Pace.batch_of_filter rfl pair (by decide)
  exact steps_of_batch batch

/-- The first message is handed out, and waits. -/
theorem handed_as_found_of_twoMessages : ∃ s : Shift Unit,
    Steps .standard ⟨0, 1, .all⟩ (opening twoMessages none .unplanned 1000) s ∧
      s.progress = some (.working false [oneMessage 1, oneMessage 2]) ∧
      s.ledger.backlog.Live s.clock 1 := by
  obtain ⟨-, -, -, first⟩ := steps_twoMessages.handed_as_found reachable_twoMessages rfl
  exact ⟨_, steps_twoMessages, rfl, first rfl⟩

/-- While the processor has the first message in hand, it completes the second one, or else it takes
five seconds over it. In both cases it is handed the second one all the same. -/
theorem handed_when_over :
    (∃ s : Shift Unit, Steps .standard ⟨0, 1, .all⟩ (opening twoMessages none .unplanned 1000) s ∧
      s.progress = some (.working false [oneMessage 2]) ∧ s.busy = false ∧
      ∃ i, s.ledger.backlog.get? 2 = some i ∧ i.state = .done) ∧
    ∃ s : Shift Unit, Steps .standard ⟨0, 1, .all⟩ (opening twoMessages none .unplanned 1000) s ∧
      s.progress = some (.working false [oneMessage 2]) ∧ s.busy = false ∧
      ∃ i, s.ledger.backlog.get? 2 = some i ∧ i.deadline = some 2000 ∧ s.clock = 6000 := by
  let b := twoMessages.backlog
  let done (id : Nat) (now : Int) := Backlog.completed now (oneMessage id)
  constructor
  · have drafted : (Operation.complete 2).draft 1000 b = ([.replace (done 2 1000) none], b) := rfl
    have settled : b.settle (.replace (done 2 1000) none) = b.put (done 2 1000) := rfl
    have concluded : Pace.standard.conclude (b.put (done 2 1000)) 1000 (oneMessage 1) .completed =
        (.ok [.replace (done 1 1000) none], b.put (done 2 1000)) := rfl
    have recorded : ((b.put (done 2 1000)).record (none : Option (Scope Write Unit))
        ⟨(), [.replace (done 1 1000) none]⟩).2.1 = (b.put (done 2 1000)).put (done 1 1000) := rfl
    have judges := (steps_twoMessages.hands.calls 1000 drafted settled).judges concluded recorded
    exact ⟨_, judges, rfl, rfl, done 2 1000, rfl, rfl⟩
  · have concluded : Pace.standard.conclude b 6000 (oneMessage 1) .completed =
        (.ok [.replace (done 1 6000) none], b) := rfl
    have recorded : (b.record (none : Option (Scope Write Unit))
        ⟨(), [.replace (done 1 6000) none]⟩).2.1 = b.put (done 1 6000) := rfl
    have judges := (steps_twoMessages.hands.waits 6000).judges concluded recorded
    exact ⟨_, judges, rfl, rfl, oneMessage 2, rfl, rfl, rfl⟩

/-! ### What is stored when an item is deferred -/

/-- Whatever is stored by now in place of an item whose turn has come, its stamps are still those
that the item has, as long as it waits. -/
theorem Turn.stamps {l : Ledger β} {clock : Int} {s : Shift β} {i current : WorkItem}
    (turn : Turn pace share l clock s i) (start : l.Reachable)
    (found : s.ledger.backlog.get? i.id = some current) (new : current.state = .new) :
    current.creationTime = i.creationTime ∧ current.stateChangedAt = i.stateChangedAt := by
  have sight := (start.steps (l.steps_expired clock)).stamped
  have created := sight.created_steps turn.sound.run turn.seen found
  obtain ⟨-, untouched⟩ := sight.new turn.seen turn.new
  obtain ⟨-, unchanged⟩ := (sight.steps turn.sound.run).new found new
  exact ⟨created, unchanged.trans (created.trans untouched.symm)⟩

/-- **An item is deferred as it was handed out.** Whatever is stored in its place while it waits is
replaced by that, put off, and nothing else changes. Nothing changes at all if it does not wait any
more, or if there is no instant so late, which breaks the run off. So nothing is lost of what is
stored if nobody else has written about the item since the run looked for work. -/
theorem Steps.deferred_as_handed {l : Ledger β} {target : WakeTarget} {clock : Int} {s : Shift β}
    {full : Bool} {i : WorkItem} {rest : List WorkItem} {v : Verdict} (start : l.Reachable)
    (run : Steps pace share (opening l none target clock) s)
    (turn : s.progress = some (.working full (i :: rest))) (defers : v ≠ .completed) :
    let b := s.ledger.backlog
    let retry := s.clock + pace.deferDelay.toMillis
    let after := s.judged pace full i rest v
    (Instant.maximum < retry → after.progress = none ∧ after.ledger.backlog = b) ∧
    (retry ≤ Instant.maximum → after.progress = some (.working full rest) ∧
      (¬b.HasNew i.id → after.ledger.backlog = b) ∧
      (b.HasNew i.id → ∀ id, after.ledger.backlog.get? id =
        if id = i.id then some (i.putOff s.clock retry) else b.get? id)) ∧
    (i.id ∉ s.touched → b.get? i.id = some i) := by
  intro b retry after
  have here := run.turn start turn
  have alone := here.sound.alone
  refine ⟨fun beyond => ?_, fun within => ?_, here.stored⟩
  · have concluded : pace.conclude b s.clock i v = (.error .fault, b) :=
      Pace.conclude_of_beyond defers beyond
    unfold after judged
    rw [concluded]
    exact ⟨rfl, rfl⟩
  · by_cases waits : b.HasNew i.id
    · obtain ⟨current, found, new⟩ := waits
      obtain ⟨created, changed⟩ := here.stamps start found new
      have concluded := Pace.conclude_of_waiting defers within found new created changed
      have recorded := Backlog.record_replace_of_new (b := b)
        (i := i.putOff s.clock retry) ⟨current, found, new⟩ β
      have same : after = _ := judged_of_ok alone concluded
      rw [same, recorded]
      refine ⟨rfl, fun ended => absurd ⟨current, found, new⟩ ended, fun _ id => ?_⟩
      calc (b.put (i.putOff s.clock retry)).get? id
          = if i.id = id then some (i.putOff s.clock retry) else b.get? id := Backlog.get?_put _ _ _
        _ = if id = i.id then some (i.putOff s.clock retry) else b.get? id :=
            if_congr eq_comm rfl rfl
    · have concluded : pace.conclude b s.clock i v = (.ok [], b) :=
        Pace.conclude_of_not_hasNew defers within waits
      have same : after = _ := judged_of_ok alone concluded
      rw [same]
      exact ⟨rfl, fun _ => rfl, fun new => absurd new waits⟩

/-- Nobody else writes about the first message, and it is deferred. It is due five seconds later,
and nothing of it is lost. -/
theorem deferred_as_handed_of_twoMessages :
    let s : Shift Unit := ⟨twoMessages, none, .unknown, 1000,
      some (.working false [oneMessage 1, oneMessage 2]), true, [oneMessage 1], []⟩
    Steps .standard ⟨0, 1, .all⟩ (opening twoMessages none .unplanned 1000) s ∧
      ∃ current, s.ledger.backlog.get? 1 = some current ∧
        (s.judged .standard false (oneMessage 1) [oneMessage 2] .deferred).ledger.backlog.get? 1 =
          some (current.putOff 1000 6000) := by
  intro s
  have turn : Steps .standard ⟨0, 1, .all⟩ (opening twoMessages none .unplanned 1000) s :=
    steps_twoMessages.hands
  have waits : s.ledger.backlog.HasNew (oneMessage 1).id := ⟨oneMessage 1, rfl, rfl⟩
  obtain ⟨-, kept, stored⟩ :=
    turn.deferred_as_handed (v := .deferred) reachable_twoMessages rfl (by decide)
  obtain ⟨-, -, deferred⟩ := kept (by decide)
  exact ⟨turn, oneMessage 1, stored (by simp [s]), (deferred waits 1).trans (if_pos rfl)⟩

/-- An execution of a job is handed out. The processor saves its position with an update, and then
defers the execution. The position is lost. -/
theorem cursor_lost :
    let execution : WorkItem := { WorkItem.ofKind (.jobInstance 7 none) with
      scheduleTime := some 1000 }
    let l : Ledger Unit := ⟨(Operation.add execution).perform 1000 (.empty 5), [], []⟩
    l.Reachable ∧ ∃ (s : Shift Unit) (i current : WorkItem),
      Steps .standard ⟨0, 1, .all⟩ (opening l none .unplanned 1000) s ∧
      s.progress = some (.working false [i]) ∧ s.busy = true ∧
      s.ledger.backlog.get? i.id = some current ∧ current.state = .new ∧
      current.kind.cursor? = some "page-2" ∧
      ∃ after, (s.judged .standard false i [] .deferred).ledger.backlog.get? i.id = some after ∧
        after.state = .new ∧ after.kind.cursor? = none := by
  intro execution l
  let b := l.backlog
  let i := (Backlog.empty 5).admitted 1000 1000 execution
  let saved : WorkItem := { i with kind := .jobInstance 7 (some "page-2") }
  have batch : Pace.standard.batch (l.expired 1000).backlog 1000 ⟨0, 1, .all⟩ = [i] :=
    Pace.batch_of_filter rfl (List.pairwise_singleton _ _) (by decide)
  have looks : Steps .standard ⟨0, 1, .all⟩ (opening l none .unplanned 1000)
      ⟨l, none, .unknown, 1000, some (.working false [i]), false, [], []⟩ := steps_of_batch batch
  have drafted : (Operation.update saved).draft 1000 b = ([.replace saved none], b) := rfl
  have settled : b.settle (.replace saved none) = b.put saved := rfl
  have turn := looks.hands.calls 1000 drafted settled
  exact ⟨⟨5, Ledger.steps_perform _ _ _ _ _⟩, _, i, saved, turn, rfl, rfl, rfl, rfl, rfl,
    i.putOff 1000 6000, rfl, rfl, rfl⟩

end Shift

end RecurringWork
