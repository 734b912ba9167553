import RecurringWork.Proofs.Backlog.Succession

/-!
# RecurringWork.Proofs.Backlog.Stamps

**What an item says about its own past.** An item is handed to the backlog and back as a
whole, with the times at which it was created and at which its state changed last. Whoever
hands it in can put anything there, and nothing of it counts: an operation stamps what it
drafts (`Backlog.Stamps`), with the time at which it is called or with what it has found
stored.

By the time the write is carried out something else may be stored. `Backlog.Outcome` says
what a write can leave under an identity, and why; whether the stamps still fit is read off
it.
-/

namespace RecurringWork

/-- The item has not changed its state since it was created. -/
def WorkItem.Untouched (i : WorkItem) : Prop := i.state = .new ∧ i.stateChangedAt = i.creationTime

namespace Backlog

/-! ### What is drafted -/

/-- The item takes the place of another one that is new. It was created when the other was,
and has changed its state at `now` if it has. -/
structure Supplants (now : Int) (i old : WorkItem) : Prop where
  live : old.state = .new
  created : i.creationTime = old.creationTime
  same : i.state = .new → i.stateChangedAt = old.stateChangedAt
  changed : i.state.isTerminal → i.stateChangedAt = now

/-- The write bears the stamps of an operation that was called at `now`. -/
def Stamps (b : Backlog) (now : Int) : Write → Prop
  | .insert i => i.Untouched
  | .replace i successor =>
      (∃ old, b.get? i.id = some old ∧ Supplants now i old) ∧ ∀ next ∈ successor, next.Untouched
  | .expire _ t => t = now
  | .purge _ => True

theorem stamps_add {b : Backlog} {now : Int} {i : WorkItem} {w : Write}
    (mem : w ∈ draftedWrites (b.add now i).1) : b.Stamps now w := by
  unfold add at mem
  split at mem
  · cases mem
  · cases List.mem_singleton.mp mem
    exact ⟨rfl, rfl⟩

theorem stamps_update {b : Backlog} {now : Int} {i : WorkItem} {w : Write}
    (mem : w ∈ draftedWrites (b.update now i)) : b.Stamps now w := by
  unfold update stored at mem
  cases found : b.get? i.id with
  | none =>
      rw [found] at mem
      cases mem
  | some old =>
      rw [found] at mem
      simp only [bind, Except.bind] at mem
      split at mem
      · cases mem
      · next going =>
          have live : old.state = .new :=
            WorkState.isTerminal_eq_false_iff.mp (by simpa using going)
          cases List.mem_singleton.mp mem
          refine ⟨⟨old, found, ⟨live, rfl, fun new => ?_, fun ended => ?_⟩⟩,
            fun _ none => by cases none⟩
          · have kept : targetState i == old.state := by
              rw [live]
              exact beq_iff_eq.mpr new
            exact if_pos kept
          · have left : ¬(targetState i == old.state) := by
              rw [live, beq_iff_eq]
              intro new
              have : (targetState i).isTerminal := ended
              rw [new] at this
              cases this
            exact if_neg left

theorem untouched_nextOccurrence {b c : Backlog} {now : Int} {i next : WorkItem}
    (h : b.nextOccurrence now i = (.ok (some next), c)) : next.Untouched := by
  unfold nextOccurrence at h
  split at h
  · cases h
  · split at h
    · cases h
    · dsimp only at h
      split at h
      · cases h
      · split at h
        · cases h
        · cases h
          exact ⟨rfl, rfl⟩

theorem stamps_complete {b : Backlog} {now : Int} {id : Nat} {w : Write}
    (mem : w ∈ draftedWrites (b.complete now id).1) : b.Stamps now w := by
  unfold complete stored at mem
  cases found : b.get? id with
  | none =>
      rw [found] at mem
      cases mem
  | some old =>
      rw [found] at mem
      dsimp only at mem
      split at mem
      · cases mem
      · next going =>
          have live : old.state = .new :=
            WorkState.isTerminal_eq_false_iff.mp (by simpa using going)
          cases occurrence : b.nextOccurrence now (completed now old) with
          | mk result c =>
              rw [occurrence] at mem
              cases result with
              | error f => cases mem
              | ok next =>
                  cases List.mem_singleton.mp mem
                  refine ⟨⟨old, ?_, live, rfl, nofun, fun _ => rfl⟩, fun successor here => ?_⟩
                  · rw [id_completed, id_of_get? found, found]
                  · cases Option.mem_def.mp here
                    exact untouched_nextOccurrence occurrence

/-- **Whatever an operation drafts bears its stamps**, whatever is handed in. -/
theorem stamps_of_mem {b : Backlog} {op : Operation} {now : Int} {w : Write}
    (mem : w ∈ (op.draft now b).1) : b.Stamps now w := by
  cases op with
  | add i => exact stamps_add mem
  | update i => exact stamps_update mem
  | defer i => exact stamps_update mem
  | complete id => exact stamps_complete mem
  | expire =>
      obtain ⟨i, -, rfl⟩ := List.mem_map.mp mem
      exact rfl
  | purge olderThan =>
      cases List.mem_singleton.mp mem
      trivial

/-! ### What is carried out -/

/-- What is found under an identity after a write, and why. -/
inductive Outcome (b : Backlog) (id : Nat) : Write → Option WorkItem → Prop
  | keeps {w : Write} : Outcome b id w (b.get? id)
  | deletes {ids : List Nat} : Outcome b id (.purge ids) none
  | stores {i : WorkItem} : i.id = id → Outcome b id (.insert i) (some i)
  | replaces {i : WorkItem} {successor : Option WorkItem} : i.id = id → b.HasNew id →
      Outcome b id (.replace i successor) (some i)
  | succeeds {i next : WorkItem} : next.id = id → Outcome b id (.replace i (some next)) (some next)
  | expires {i : WorkItem} {now : Int} : b.get? id = some i → i.state = .new →
      Outcome b id (.expire id now)
        (some { i with state := .deadlineReached, stateChangedAt := now })

theorem outcome_replace {b : Backlog} {i current : WorkItem} {successor : Option WorkItem}
    (id : Nat) (found : b.get? i.id = some current) (new : current.state = .new) :
    b.Outcome id (.replace i successor) ((successor.elim (b.put i) (b.put i).put).get? id) := by
  have replaced : ∀ s, b.Outcome id (.replace i s) ((b.put i).get? id) := by
    intro s
    rw [get?_put]
    split
    · next same =>
        subst same
        exact .replaces rfl ⟨current, found, new⟩
    · exact .keeps
  cases successor with
  | none => exact replaced none
  | some next =>
      rw [Option.elim_some, get?_put]
      split
      · next same => exact .succeeds same
      · exact replaced (some next)

/-- **What a write leaves under an identity has one of six causes.** -/
theorem outcome_settle {b : Backlog} (ordered : b.Ordered) (w : Write) (id : Nat) :
    b.Outcome id w ((b.settle w).get? id) := by
  refine settle_induction (motive := fun c => b.Outcome id w (c.get? id)) b w .keeps ?_
  intro c result
  cases w with
  | insert i =>
      cases result
      rw [get?_put]
      split
      · next same => exact .stores same
      · exact .keeps
  | replace i successor =>
      obtain ⟨current, found, new, rfl⟩ := carryOut_replace_inv result
      exact outcome_replace id found new
  | expire other now =>
      cases result
      by_cases same : other = id
      · subst same
        unfold expireItem
        split
        · next i found =>
            split
            · next new =>
                have stored : i.id = other := id_of_get? found
                rw [get?_put, if_pos stored]
                exact .expires found (by simpa using new)
            · exact .keeps
        · exact .keeps
      · rw [get?_expireItem_of_ne same]
        exact .keeps
  | purge ids =>
      cases result
      rw [purgeItems, ordered.get?_filter]
      have kept := @Outcome.keeps b id (.purge ids)
      cases found : b.get? id with
      | none =>
          rw [found] at kept
          exact kept
      | some i =>
          rw [found] at kept
          rw [Option.filter_some]
          split
          · exact kept
          · exact .deletes

/-! ### What is handed out -/

/-- The identities in an answer, if there is one. -/
def numbered {ε α : Type} (ids : α → List Nat) : Except ε (Draft α) → List Nat
  | .ok d => ids d.answer
  | .error _ => []

end Backlog

/-- The identities that a call hands out: whoever calls finds them in the answer. -/
def Operation.handedOut (now : Int) (b : Backlog) : Operation → List Nat
  | .add i => Backlog.numbered (fun stored => [stored.id]) (b.add now i).1
  | .complete id =>
      Backlog.numbered (fun c => (c.next.map WorkItem.id).toList) (b.complete now id).1
  | .update _ | .defer _ | .expire | .purge _ => []

namespace Backlog

theorem handedOut_add (b : Backlog) (now : Int) (i : WorkItem) :
    numbered (fun stored => [stored.id]) (b.add now i).1 = [] ∨
      numbered (fun stored => [stored.id]) (b.add now i).1 = [b.nextId] ∧
        (b.add now i).2.nextId = b.nextId + 1 := by
  unfold add
  split
  · exact .inl rfl
  · exact .inr ⟨rfl, rfl⟩

theorem handedOut_complete (b : Backlog) (now : Int) (id : Nat) :
    numbered (fun c => (c.next.map WorkItem.id).toList) (b.complete now id).1 = [] ∨
      numbered (fun c => (c.next.map WorkItem.id).toList) (b.complete now id).1 = [b.nextId] ∧
        (b.complete now id).2.nextId = b.nextId + 1 := by
  unfold complete
  split
  · exact .inl rfl
  · split
    · exact .inl rfl
    · dsimp only
      split
      · exact .inl rfl
      · next occurrence =>
          obtain ⟨-, ⟨next, same, fresh, used⟩ | ⟨none, -⟩⟩ := nextOccurrence_inv occurrence
          · cases same
            exact .inr ⟨congrArg ([·]) fresh, used⟩
          · next successor _ =>
              cases successor with
              | none => exact .inl rfl
              | some next => exact absurd rfl (none next)

/-- A call that hands out an identity hands out the next one, and uses it up. -/
theorem handedOut_cases (op : Operation) (now : Int) (b : Backlog) :
    op.handedOut now b = [] ∨
      op.handedOut now b = [b.nextId] ∧ (op.draft now b).2.nextId = b.nextId + 1 := by
  cases op with
  | add i => exact handedOut_add b now i
  | complete id => exact handedOut_complete b now id
  | update i => exact .inl rfl
  | defer i => exact .inl rfl
  | expire => exact .inl rfl
  | purge olderThan => exact .inl rfl

end Backlog

end RecurringWork
