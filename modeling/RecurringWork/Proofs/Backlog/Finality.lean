import RecurringWork.Proofs.Backlog.Ledger

/-!
# RecurringWork.Proofs.Backlog.Finality

**What has come to its end stays as it is, and what is gone stays gone.** Both follow
from one fact about a single step (`Ledger.Step.continues`): under an identity that has
been handed out and is not reserved any more, nothing is stored for the first time. That
an identity is in this condition is itself kept by every step, and an identity is in it
from the moment something is stored under it.
-/

namespace RecurringWork.Ledger

variable {β : Type}

/-- The identity was handed out, and no write will store an item under it for the first
time. -/
structure Spent (l : Ledger β) (id : Nat) : Prop where
  handed_out : id < l.backlog.nextId
  not_reserved : id ∉ l.reserved

/-- An identity under which something is stored is spent. -/
theorem Sound.spent {l : Ledger β} (h : l.Sound) {id : Nat} {i : WorkItem}
    (stored : l.backlog.get? id = some i) : l.Spent id where
  handed_out := Backlog.Sound.stored_lt h stored
  not_reserved := by
    intro reserved
    rw [Backlog.Sound.reserved_absent h reserved] at stored
    cases stored

theorem Spent.step {l m : Ledger β} {id : Nat} (h : l.Spent id) (st : Step l m) : m.Spent id := by
  obtain ⟨same, sub⟩ | ⟨op, now, called, perm⟩ | ⟨w, landed, perm⟩ := st.inv
  · exact ⟨same ▸ h.handed_out, fun mem => h.not_reserved (sub.subset mem)⟩
  · have draft := Backlog.drafted op now l.backlog
    refine ⟨?_, fun mem => ?_⟩
    · rw [called]
      exact Nat.lt_of_lt_of_le h.handed_out draft.nextId_le
    · rcases List.mem_append.mp (perm.subset mem) with fresh | reserved
      · -- What a call reserves it hands out itself.
        rcases draft.fresh with ⟨none, -⟩ | ⟨one, -⟩
        · rw [none] at fresh
          cases fresh
        · rw [one, List.mem_singleton] at fresh
          exact absurd h.handed_out (by omega)
      · exact h.not_reserved reserved
  · refine ⟨?_, fun mem => h.not_reserved (perm.symm.subset (List.mem_append_right _ mem))⟩
    rw [landed, Backlog.nextId_settle]
    exact h.handed_out

/-- **A step continues what is stored under an identity that is spent.** -/
theorem Step.continues {l m : Ledger β} (st : Step l m) (sound : l.Sound) {id : Nat}
    (spent : l.Spent id) : Backlog.Continues (l.backlog.get? id) (m.backlog.get? id) := by
  obtain ⟨same, -⟩ | ⟨op, now, called, -⟩ | ⟨w, landed, perm⟩ := st.inv
  · rw [same]
    exact Backlog.Continues.refl _
  · rw [called, (Backlog.drafted op now l.backlog).get?]
    exact Backlog.Continues.refl _
  · rw [landed]
    refine Backlog.continues_settle (Backlog.Sound.ordered sound) fun fresh => ?_
    exact spent.not_reserved (perm.symm.subset (List.mem_append_left _ fresh))

theorem Steps.continues {l m : Ledger β} (run : Steps l m) (sound : l.Sound) {id : Nat}
    (spent : l.Spent id) :
    m.Spent id ∧ Backlog.Continues (l.backlog.get? id) (m.backlog.get? id) := by
  induction run with
  | refl => exact ⟨spent, Backlog.Continues.refl _⟩
  | tail before st ih =>
      obtain ⟨spent, continued⟩ := ih
      exact ⟨spent.step st, continued.trans (st.continues (sound.steps before) spent)⟩

/-- **An item that has come to its end is never changed again, only deleted; and an
identity under which something was stored and then was not is never stored under
again.** -/
theorem Reachable.final {l m n : Ledger β} (start : l.Reachable) {id : Nat} {i : WorkItem}
    (stored : l.backlog.get? id = some i) (run : Steps l m) (later : Steps m n) :
    (i.state.isTerminal → m.backlog.get? id = some i ∨ m.backlog.get? id = none) ∧
      (m.backlog.get? id = none → n.backlog.get? id = none) := by
  have sound := start.sound
  obtain ⟨spent, continued⟩ := Steps.continues run sound (sound.spent stored)
  obtain ⟨-, continued'⟩ := Steps.continues later (sound.steps run) spent
  refine ⟨fun ended => ?_, fun gone => ?_⟩
  · rw [stored] at continued
    exact continued ended
  · rw [gone] at continued'
    exact continued'

/-- A message is added, completed and purged. The one that is added after it does not
take its place. -/
theorem final_of_purged :
    let message := Operation.add (.ofKind (.notification "email" .null))
    let completed := Operation.perform 1 (message.perform 0 (.empty 5)) (.complete 1)
    let purged := Operation.perform 6 completed (.purge 5)
    (completed.get? 1).isSome ∧ purged.get? 1 = none ∧ (message.perform 7 purged).get? 1 = none := by
  intro message completed purged
  have start : (⟨completed, [], []⟩ : Ledger Unit).Reachable :=
    ⟨5, (steps_perform _ _ _ _ _).trans (steps_perform _ _ _ _ _)⟩
  have purge : Steps (⟨completed, [], []⟩ : Ledger Unit) ⟨purged, [], []⟩ := steps_perform _ _ _ _ _
  have again : Steps (⟨purged, [], []⟩ : Ledger Unit) ⟨message.perform 7 purged, [], []⟩ :=
    steps_perform _ _ _ _ _
  have stored : (completed.get? 1).isSome := rfl
  obtain ⟨item, found⟩ := Option.isSome_iff_exists.mp stored
  exact ⟨stored, rfl, (start.final found purge again).2 rfl⟩

end RecurringWork.Ledger
