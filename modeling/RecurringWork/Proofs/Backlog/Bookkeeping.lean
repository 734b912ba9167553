import RecurringWork.Proofs.Backlog.Interim
import RecurringWork.Proofs.Backlog.Queries
import RecurringWork.Proofs.Backlog.Stamps

/-!
# RecurringWork.Proofs.Backlog.Bookkeeping

**What is stored can be trusted.** Every stored item has an identity of its own that was
handed out for it, knows when it was created, and knows when the operation was called that
ended it, whatever has been handed in, and whatever came in between the call and the write.

Two things are kept by every step. The writes that wait fit what is stored
(`Ledger.Stamped`): what a replacement says about the creation of the item is what is stored
about it, and goes on to be, since no write changes it (`Stamped.created`). And every write
that waits was drafted by a call (`Ledger.DraftedAt`), which is where the time comes from at
which an item has come to its end (`Ledger.Ended`).
-/

namespace RecurringWork.Ledger

variable {β : Type}

/-! ### Times -/

/-- The write agrees with what is stored. -/
def Fits (l : Ledger β) : Write → Prop
  | .insert i => i.Untouched
  | .replace i successor =>
      l.Spent i.id ∧ (∀ old, l.backlog.get? i.id = some old → i.creationTime = old.creationTime) ∧
        (i.state = .new → i.Untouched) ∧ ∀ next ∈ successor, next.Untouched
  | .expire _ _ | .purge _ => True

/-- What is new has not changed since it was created, and what waits agrees with what is
stored. -/
structure Stamped (l : Ledger β) : Prop where
  ledger : l.Sound
  new : ∀ {id : Nat} {i : WorkItem}, l.backlog.get? id = some i → i.state = .new → i.Untouched
  waiting : ∀ w ∈ l.writes, l.Fits w

theorem stamped_empty (maxDeferCount : Nat) : (empty maxDeferCount : Ledger β).Stamped where
  ledger := sound_empty maxDeferCount
  new := fun found => by cases found
  waiting := fun _ mem => by cases mem

/-- Nothing is stored for the first time under an identity under which something is. -/
theorem Sound.get?_of_fresh {l : Ledger β} (h : l.Sound) {w : Write} (waits : w ∈ l.writes)
    {id : Nat} (fresh : id ∈ w.fresh) : l.backlog.get? id = none :=
  Backlog.Sound.reserved_absent h (mem_reserved_of_fresh waits fresh)

/-- What a write that waits leaves under an identity. -/
theorem Lands.outcome {l m : Ledger β} {w : Write} (landing : Lands w l m) (sound : l.Sound)
    (id : Nat) : w ∈ l.writes ∧ l.backlog.Outcome id w (m.backlog.get? id) := by
  rw [landing.backlog]
  exact ⟨landing.mem_writes, Backlog.outcome_settle sound.ordered w id⟩

/-- **No step changes when an item was created.** -/
theorem Stamped.created {l m : Ledger β} (h : l.Stamped) (st : Step l m) {id : Nat} {i j : WorkItem}
    (before : l.backlog.get? id = some i) (after : m.backlog.get? id = some j) :
    j.creationTime = i.creationTime := by
  have same : m.backlog.get? id = l.backlog.get? id → j.creationTime = i.creationTime := by
    intro same
    rw [same, before] at after
    cases after
    rfl
  rcases st.cases with ⟨op, now, call⟩ | ⟨w, landing⟩ | ⟨unchanged, -⟩
  · exact same (call.backlog ▸ (Backlog.drafted op now l.backlog).get? id)
  · obtain ⟨waits, outcome⟩ := landing.outcome h.ledger id
    have fits := h.waiting w waits
    have old : id ∉ w.fresh := fun fresh => by
      rw [h.ledger.get?_of_fresh waits fresh] at before
      cases before
    generalize m.backlog.get? id = found at outcome after same
    cases outcome with
    | keeps => exact same rfl
    | deletes => cases after
    | stores stored => exact absurd (by simp [Write.fresh, stored]) old
    | replaces stored _ =>
        cases after
        obtain ⟨-, created, -⟩ := fits
        exact created i (stored ▸ before)
    | succeeds stored => exact absurd (by simp [Write.fresh, stored]) old
    | expires stored _ =>
        rw [before] at stored
        cases stored
        cases after
        rfl
  · exact same (unchanged ▸ rfl)

/-- A write goes on to agree with what is stored. -/
theorem Stamped.fits_step {l m : Ledger β} (h : l.Stamped) (st : Step l m) {w : Write}
    (fits : l.Fits w) : m.Fits w := by
  cases w with
  | insert i => exact fits
  | expire id now => trivial
  | purge ids => trivial
  | replace i successor =>
      obtain ⟨spent, created, rest⟩ := fits
      refine ⟨spent.step st, fun j after => ?_, rest⟩
      cases before : l.backlog.get? i.id with
      | none =>
          have continued := st.continues h.ledger spent
          rw [before, after] at continued
          cases continued
      | some old => exact (created old before).trans (h.created st before after).symm

/-- What an operation drafts agrees with what it has found. -/
theorem Stamped.fits_draft {l : Ledger β} (h : l.Stamped) {op : Operation} {now : Int} {w : Write}
    (drafted : w ∈ (op.draft now l.backlog).1) : l.Fits w := by
  have stamps := Backlog.stamps_of_mem drafted
  cases w with
  | insert i => exact stamps
  | expire id t => trivial
  | purge ids => trivial
  | replace i successor =>
      obtain ⟨⟨old, found, supplants⟩, fresh⟩ := stamps
      refine ⟨h.ledger.spent found, fun other here => ?_, fun new => ⟨new, ?_⟩, fresh⟩
      · rw [found] at here
        cases here
        exact supplants.created
      · calc i.stateChangedAt = old.stateChangedAt := supplants.same new
          _ = old.creationTime := (h.new found supplants.live).2
          _ = i.creationTime := supplants.created.symm

/-- What a write leaves that is new has not changed since it was created. -/
theorem Stamped.new_step {l m : Ledger β} (h : l.Stamped) (st : Step l m) {id : Nat} {i : WorkItem}
    (after : m.backlog.get? id = some i) (new : i.state = .new) : i.Untouched := by
  rcases st.cases with ⟨op, now, call⟩ | ⟨w, landing⟩ | ⟨unchanged, -⟩
  · rw [call.backlog, (Backlog.drafted op now l.backlog).get?] at after
    exact h.new after new
  · obtain ⟨waits, outcome⟩ := landing.outcome h.ledger id
    have fits := h.waiting w waits
    generalize found : m.backlog.get? id = result at outcome after
    cases outcome with
    | keeps => exact h.new after new
    | deletes => cases after
    | stores _ =>
        cases after
        exact fits
    | replaces _ _ =>
        cases after
        obtain ⟨-, -, untouched, -⟩ := fits
        exact untouched new
    | succeeds _ =>
        cases after
        obtain ⟨-, -, -, fresh⟩ := fits
        exact fresh i rfl
    | expires _ _ =>
        cases after
        cases new
  · rw [unchanged] at after
    exact h.new after new

theorem Stamped.step {l m : Ledger β} (h : l.Stamped) (st : Step l m) : m.Stamped where
  ledger := h.ledger.step st
  new := h.new_step st
  waiting := by
    intro w mem
    refine h.fits_step st ?_
    rcases st.mem_writes_inv mem with waited | ⟨op, now, drafted⟩
    · exact h.waiting w waited
    · exact h.fits_draft drafted

theorem Stamped.steps {l m : Ledger β} (h : l.Stamped) (run : Steps l m) : m.Stamped := by
  induction run with
  | refl => exact h
  | tail _ st ih => exact ih.step st

theorem Reachable.stamped {l : Ledger β} (h : l.Reachable) : l.Stamped := by
  obtain ⟨maxDeferCount, run⟩ := h
  exact (stamped_empty maxDeferCount).steps run

/-- **When an item was created never changes.** -/
theorem Stamped.created_steps {l m : Ledger β} (h : l.Stamped) (run : Steps l m) {id : Nat}
    {i j : WorkItem} (before : l.backlog.get? id = some i) (after : m.backlog.get? id = some j) :
    j.creationTime = i.creationTime := by
  induction run generalizing j with
  | refl =>
      rw [before] at after
      cases after
      rfl
  | @tail mid _ sofar st ih =>
      obtain ⟨spent, -⟩ := Steps.continues sofar h.ledger (h.ledger.spent before)
      cases between : mid.backlog.get? id with
      | none =>
          -- What is gone does not come back.
          have continued := st.continues (h.steps sofar).ledger spent
          rw [between, after] at continued
          cases continued
      | some k => exact ((h.steps sofar).created st between after).trans (ih between)

/-! ### Calls -/

/-- The write was drafted by a call at `now`. -/
def DraftedAt (l : Ledger β) (now : Int) (w : Write) : Prop :=
  ∃ (before called : Ledger β) (op : Operation), before.Reachable ∧ Calls op now before called ∧
    w ∈ (op.draft now before.backlog).1 ∧ Steps called l

/-- The item was new until a write landed that an operation had drafted, and the operation was
called at the time at which the item says that its state has changed. -/
def Ended (l : Ledger β) (id : Nat) (i : WorkItem) : Prop :=
  ∃ (before after : Ledger β) (w : Write), before.DraftedAt i.stateChangedAt w ∧
    Lands w before after ∧ before.backlog.HasNew id ∧ after.backlog.get? id = some i ∧
    Steps after l

theorem DraftedAt.step {l m : Ledger β} {now : Int} {w : Write} (h : l.DraftedAt now w)
    (st : Step l m) : m.DraftedAt now w := by
  obtain ⟨before, called, op, start, call, drafted, run⟩ := h
  exact ⟨before, called, op, start, call, drafted, run.tail st⟩

theorem Ended.step {l m : Ledger β} {id : Nat} {i : WorkItem} (h : l.Ended id i) (st : Step l m) :
    m.Ended id i := by
  obtain ⟨before, after, w, drafted, landing, new, found, run⟩ := h
  exact ⟨before, after, w, drafted, landing, new, found, run.tail st⟩

/-- A write that ends an item bears the time of the call that drafted it. -/
theorem DraftedAt.stateChangedAt {l m : Ledger β} {now : Int} {w : Write} (h : l.DraftedAt now w)
    {id : Nat} {i : WorkItem} (sound : l.Stamped) (landing : Lands w l m)
    (unended : l.backlog.get? id ≠ some i) (after : m.backlog.get? id = some i)
    (ended : i.state.isTerminal) : l.backlog.HasNew id ∧ i.stateChangedAt = now := by
  obtain ⟨before, called, op, -, -, drafted, -⟩ := h
  have stamps := Backlog.stamps_of_mem drafted
  obtain ⟨waits, outcome⟩ := landing.outcome sound.ledger id
  have untouched : ¬i.Untouched := fun untouched => by
    rw [untouched.1] at ended
    cases ended
  generalize m.backlog.get? id = found at outcome after
  cases outcome with
  | keeps => exact absurd after unended
  | deletes => cases after
  | stores _ =>
      cases after
      exact absurd stamps untouched
  | replaces _ new =>
      cases after
      obtain ⟨⟨old, -, supplants⟩, -⟩ := stamps
      exact ⟨new, supplants.changed ended⟩
  | succeeds _ =>
      cases after
      exact absurd (stamps.2 i rfl) untouched
  | expires found new =>
      cases after
      exact ⟨⟨_, found, new⟩, stamps⟩

/-- Whatever waits was drafted by a call, and whatever has come to its end was ended by one. -/
structure Chronicled (l : Ledger β) : Prop where
  stamped : l.Stamped
  drafted : ∀ w ∈ l.writes, ∃ now, l.DraftedAt now w
  ended : ∀ {id : Nat} {i : WorkItem}, l.backlog.get? id = some i → i.state.isTerminal →
    l.Ended id i

theorem Chronicled.step {l m : Ledger β} (start : l.Reachable) (h : l.Chronicled) (st : Step l m) :
    m.Chronicled where
  stamped := h.stamped.step st
  drafted := by
    intro w mem
    have waited : w ∈ l.writes → ∃ now, m.DraftedAt now w := fun waited =>
      (h.drafted w waited).imp fun _ drafted => drafted.step st
    rcases st.cases with ⟨op, now, call⟩ | ⟨v, landing⟩ | ⟨-, waits⟩
    · rcases List.mem_append.mp (call.writes.subset mem) with drafted | before
      · exact ⟨now, l, m, op, start, call, drafted, .refl⟩
      · exact waited before
    · exact waited (landing.writes.symm.subset (List.mem_cons_of_mem v mem))
    · exact waited (waits.subset mem)
  ended := by
    intro id i after ended
    by_cases before : l.backlog.get? id = some i
    · exact (h.ended before ended).step st
    rcases st.cases with ⟨op, now, call⟩ | ⟨w, landing⟩ | ⟨unchanged, -⟩
    · rw [call.backlog, (Backlog.drafted op now l.backlog).get?] at after
      exact absurd after before
    · obtain ⟨now, drafted⟩ := h.drafted w (landing.outcome h.stamped.ledger id).1
      obtain ⟨new, rfl⟩ := drafted.stateChangedAt h.stamped landing before after ended
      exact ⟨l, m, w, drafted, landing, new, after, .refl⟩
    · rw [unchanged] at after
      exact absurd after before

theorem chronicled_empty (maxDeferCount : Nat) : (empty maxDeferCount : Ledger β).Chronicled where
  stamped := stamped_empty maxDeferCount
  drafted := fun _ mem => by cases mem
  ended := fun found => by cases found

theorem Reachable.chronicled {l : Ledger β} (h : l.Reachable) : l.Chronicled := by
  obtain ⟨maxDeferCount, run⟩ := h
  induction run with
  | refl => exact chronicled_empty maxDeferCount
  | tail sofar st ih => exact ih.step ⟨maxDeferCount, sofar⟩ st

/-! ### Identities -/

theorem Step.nextId_le {l m : Ledger β} (st : Step l m) : l.backlog.nextId ≤ m.backlog.nextId := by
  obtain ⟨same, -⟩ | ⟨op, now, called, -⟩ | ⟨w, landed, -⟩ := st.inv
  · rw [same]
  · rw [called]
    exact (Backlog.drafted op now l.backlog).nextId_le
  · rw [landed, Backlog.nextId_settle]

theorem Steps.nextId_le {l m : Ledger β} (run : Steps l m) :
    l.backlog.nextId ≤ m.backlog.nextId := by
  induction run with
  | refl => exact Nat.le_refl _
  | tail _ st ih => exact ih.trans st.nextId_le

/-- A later call hands out a higher identity. -/
theorem Calls.lt_of_handedOut {op op' : Operation} {now now' : Int} {l m l' : Ledger β}
    (first : Calls op now l m) (run : Steps m l') {id id' : Nat}
    (out : id ∈ op.handedOut now l.backlog) (out' : id' ∈ op'.handedOut now' l'.backlog) :
    id < id' := by
  have le := Steps.nextId_le run
  rcases Backlog.handedOut_cases op now l.backlog with none | ⟨one, used⟩
  · rw [none] at out
    cases out
  · rw [one, List.mem_singleton] at out
    rw [first.backlog, used] at le
    rcases Backlog.handedOut_cases op' now' l'.backlog with none | ⟨one', -⟩
    · rw [none] at out'
      cases out'
    · rw [one', List.mem_singleton] at out'
      omega

/-- Nothing is ever stored under identity 0, as if it had been handed out to a transaction that
does not end. -/
theorem Reachable.get?_zero {l : Ledger β} (h : l.Reachable) : l.backlog.get? 0 = none := by
  obtain ⟨maxDeferCount, run⟩ := h
  let zero : Write := .insert { WorkItem.ofKind (.jobInstance 0 none) with id := 0 }
  have sound : ((empty maxDeferCount : Ledger β).including ⟨false, [zero], []⟩).Sound :=
    { ordered := Backlog.ordered_empty maxDeferCount
      stored_lt := fun found => by cases found
      reserved_lt := fun mem => List.mem_singleton.mp mem ▸ Nat.zero_lt_one
      reserved_absent := fun _ => rfl
      distinct := List.nodup_singleton 0 }
  exact sound.unstored (List.mem_singleton_self 0) run

/-! ### Every ledger -/

/-- What can be relied on of what is stored, now and later. -/
structure Reliable (l : Ledger β) : Prop where
  /-- There is one item to an identity. -/
  distinct : l.backlog.Distinct
  identity : ∀ (id : Nat) (i : WorkItem), l.backlog.get? id = some i →
    i.id = id ∧ 1 ≤ id ∧ id < l.backlog.nextId
  /-- No identity is handed out twice, by one call or by two, whatever becomes of them. -/
  handed_out : ∀ (op : Operation) (now : Int) (m : Ledger β), Calls op now l m →
    (op.handedOut now l.backlog).Nodup ∧
      ∀ (op' : Operation) (now' : Int) (l' m' : Ledger β), Steps m l' → Calls op' now' l' m' →
        (op.handedOut now l.backlog).Disjoint (op'.handedOut now' l'.backlog)
  created : ∀ (id : Nat) (i : WorkItem), l.backlog.get? id = some i →
    ∀ (m : Ledger β) (j : WorkItem), Steps l m → m.backlog.get? id = some j →
      j.creationTime = i.creationTime
  new : ∀ (id : Nat) (i : WorkItem), l.backlog.get? id = some i → i.state = .new →
    i.stateChangedAt = i.creationTime
  ended : ∀ (id : Nat) (i : WorkItem), l.backlog.get? id = some i → i.state.isTerminal →
    l.Ended id i

/-- **Every item has an identity of its own and says about its past what is true**, whatever
operations are called with whatever items, and in whatever order their writes land. -/
theorem Reachable.reliable {l : Ledger β} (start : l.Reachable) : l.Reliable where
  distinct := (Backlog.Sound.ordered start.sound).distinct
  identity := by
    intro id i found
    refine ⟨Backlog.id_of_get? found, Nat.pos_of_ne_zero ?_,
      Backlog.Sound.stored_lt start.sound found⟩
    rintro rfl
    rw [start.get?_zero] at found
    cases found
  handed_out := by
    intro op now m call
    refine ⟨?_, fun op' now' l' m' run _ id out out' => ?_⟩
    · rcases Backlog.handedOut_cases op now l.backlog with none | ⟨one, -⟩
      · exact none ▸ List.nodup_nil
      · exact one ▸ List.nodup_singleton _
    · exact Nat.lt_irrefl id (call.lt_of_handedOut run out out')
  created _ _ before _ _ run after := start.stamped.created_steps run before after
  new _ _ found new := (start.stamped.new found new).2
  ended _ _ found ended := start.chronicled.ended found ended

/-- A message is added at 3 and handed back as done at 8, with times that are ignored. -/
theorem reliable_of_message :
    let message : WorkItem := .ofKind (.notification "email" .null)
    let added := (Operation.add message).perform 3 (.empty 5)
    let back : WorkItem :=
      { message with id := 1, state := .done, creationTime := 1, stateChangedAt := 2 }
    let ended := (Operation.update back).perform 8 added
    let l : Ledger Unit := ⟨ended, [], []⟩
    l.Reachable ∧ l.Reliable ∧
      ∃ i, ended.get? 1 = some i ∧ i.creationTime = 3 ∧ i.stateChangedAt = 8 ∧ l.Ended 1 i := by
  intro message added back ended l
  have start : l.Reachable :=
    ⟨5, (steps_perform _ _ _ (.add message) 3).trans (steps_perform _ _ _ (.update back) 8)⟩
  have reliable := start.reliable
  have stored : (ended.get? 1).isSome := rfl
  obtain ⟨i, found⟩ := Option.isSome_iff_exists.mp stored
  have done : (ended.get? 1).all fun i =>
      i.creationTime == 3 && i.stateChangedAt == 8 && i.state.isTerminal := rfl
  rw [found, Option.all_some, Bool.and_eq_true, Bool.and_eq_true, beq_iff_eq, beq_iff_eq] at done
  obtain ⟨⟨created, changed⟩, terminal⟩ := done
  exact ⟨start, reliable, i, found, created, changed, reliable.ended 1 i found terminal⟩

end RecurringWork.Ledger
