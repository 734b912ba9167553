import RecurringWork.Proofs.Backlog.Succession

/-!
# RecurringWork.Proofs.Backlog.Updates

**What comes of an item that is handed in.** Whoever updates or defers an item hands it in as a
whole. It is stored in place of the one of its identity if that one waits
(`Backlog.update_of_new`). Otherwise it is refused, as is a completion: there is nothing in its
place, or something that has come to its end (`Backlog.update_of_terminal`,
`Backlog.complete_of_terminal`). So whatever is drafted to replace an item was drafted while the
item waited (`Backlog.hasNew_of_mem_update`, `Backlog.hasNew_of_mem_complete`).
-/

namespace RecurringWork

/-- The item as it is stored when it is handed in at `now` instead of `current`. -/
def WorkItem.inPlaceOf (i current : WorkItem) (now : Int) : WorkItem :=
  { i with
    state := Backlog.targetState i
    creationTime := current.creationTime
    stateChangedAt :=
      if Backlog.targetState i == current.state then current.stateChangedAt else now }

namespace Backlog

variable {b : Backlog}

/-- Nothing stands in the way of replacing a waiting item. -/
theorem update_of_new {i current : WorkItem} (stored : b.get? i.id = some current)
    (new : current.state = .new) (now : Int) :
    b.update now i =
      .ok ⟨i.inPlaceOf current now, [.replace (i.inPlaceOf current now) none]⟩ := by
  have found : b.stored i.id = .ok current := by rw [Backlog.stored, stored]
  have live : current.state.isTerminal = false := WorkState.isTerminal_eq_false_iff.mpr new
  unfold update
  simp only [found, bind, Except.bind, live, Bool.false_eq_true, if_false]
  rfl

/-- What has come to its end is not replaced. The refusal tells the state that the item would have
been stored in. -/
theorem update_of_terminal {i current : WorkItem} (stored : b.get? i.id = some current)
    (ended : current.state.isTerminal) (now : Int) :
    b.update now i = .error (current.state.refusal (targetState i)) := by
  have found : b.stored i.id = .ok current := by rw [Backlog.stored, stored]
  unfold update
  simp only [found, bind, Except.bind, ended, if_true]

/-- Nor is it completed. -/
theorem complete_of_terminal {id : Nat} {current : WorkItem} (stored : b.get? id = some current)
    (ended : current.state.isTerminal) (now : Int) :
    b.complete now id = (.error (current.state.refusal .done), b) := by
  have found : b.stored id = .ok current := by rw [Backlog.stored, stored]
  unfold complete
  simp only [found, ended, if_true]

/-- Only a waiting item can be replaced. -/
theorem update_of_not_hasNew {i : WorkItem} (gone : ¬b.HasNew i.id) (now : Int) :
    ∃ e, b.update now i = .error e := by
  cases found : b.get? i.id with
  | none => exact ⟨absent i.id, by simp only [update, stored, found, bind, Except.bind]⟩
  | some current =>
      cases ended : current.state.isTerminal with
      | true => exact ⟨_, update_of_terminal found ended now⟩
      | false => exact absurd ⟨current, found, WorkState.isTerminal_eq_false_iff.mp ended⟩ gone

/-- Only a waiting item can be completed. -/
theorem complete_of_not_hasNew {id : Nat} (gone : ¬b.HasNew id) (now : Int) :
    ∃ e, b.complete now id = (.error (.error e), b) := by
  cases found : b.get? id with
  | none => exact ⟨absent id, by simp only [complete, stored, found]⟩
  | some current =>
      cases ended : current.state.isTerminal with
      | true => exact ⟨_, complete_of_terminal found ended now⟩
      | false => exact absurd ⟨current, found, WorkState.isTerminal_eq_false_iff.mp ended⟩ gone

/-- An item is only stored as waiting while it may be deferred. -/
theorem lt_of_targetState_eq_new {i : WorkItem} (new : targetState i = .new) :
    i.deferCount < i.effectiveMaxDeferCount := by
  unfold targetState at new
  split at new
  · cases new
  · next open_ =>
      simp only [new, beq_self_eq_true, Bool.true_and, WorkItem.deferLimitReached,
        decide_eq_true_eq, Nat.not_le] at open_
      exact open_

/-- What is drafted to replace an item was drafted while it waited. -/
theorem hasNew_of_mem_update {now : Int} {i : WorkItem} {w : Write}
    (mem : w ∈ draftedWrites (b.update now i)) : ∃ j, w = .replace j none ∧ b.HasNew j.id := by
  by_cases waits : b.HasNew i.id
  · obtain ⟨j, rfl, same⟩ := replace_of_mem_update mem
    exact ⟨j, rfl, same ▸ waits⟩
  · obtain ⟨e, refused⟩ := update_of_not_hasNew waits now
    rw [refused] at mem
    cases mem

/-- And so was what is drafted to complete one. -/
theorem hasNew_of_mem_complete {now : Int} {id : Nat} {w : Write}
    (mem : w ∈ draftedWrites (b.complete now id).1) :
    ∃ j next, w = .replace j next ∧ b.HasNew j.id := by
  by_cases waits : b.HasNew id
  · obtain ⟨j, next, rfl, same, -⟩ := replace_of_mem_complete mem
    exact ⟨j, next, rfl, same ▸ waits⟩
  · obtain ⟨e, refused⟩ := complete_of_not_hasNew waits now
    rw [refused] at mem
    cases mem

end Backlog

end RecurringWork
