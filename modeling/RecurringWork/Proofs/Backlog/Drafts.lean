import RecurringWork.Proofs.Backlog.Operations

/-!
# RecurringWork.Proofs.Backlog.Drafts

**What a drafted write refers to.** Whatever an operation drafts concerns items that it
has found in the backlog, and apart from them only the identity that it has used up
itself. `Backlog.Drafts` says so write by write; what is later needed to know of the
writes that wait in transactions is read off it.
-/

namespace RecurringWork

/-- The identities under which a write may change what is stored. -/
def Write.touches : Write → List Nat
  | .insert i => [i.id]
  | .replace i successor => i.id :: (successor.map WorkItem.id).toList
  | .expire id _ => [id]
  | .purge ids => ids

namespace Backlog

/-- A write that an operation drafts at `now`, and what the operation has found. -/
inductive Drafts (b : Backlog) (now : Int) : Write → Prop
  /-- A new item gets the next identity. -/
  | adds {item i : WorkItem} : (b.add now item).1 = .ok ⟨i, [.insert i]⟩ → i.id = b.nextId →
      i.state = .new → Drafts b now (.insert i)
  /-- Whoever hands in an item hands in no successor. -/
  | updates {i : WorkItem} : (b.get? i.id).isSome → Drafts b now (.replace i none)
  /-- A successor is drafted together with the completion that calls for it. -/
  | completes {i : WorkItem} {next : Option WorkItem} : (b.get? i.id).isSome →
      (b.complete now i.id).1 = .ok ⟨⟨i, next⟩, [.replace i next]⟩ → i.state = .done →
      (∀ n ∈ next, n.id = b.nextId ∧ n.state = .new) → Drafts b now (.replace i next)
  | expires {id : Nat} : (b.get? id).isSome → Drafts b now (.expire id now)
  | purges {ids : List Nat} : (∀ id ∈ ids, (b.get? id).isSome) → Drafts b now (.purge ids)

theorem get?_isSome_of_mem {b : Backlog} {i : WorkItem} (mem : i ∈ b.items) :
    (b.get? i.id).isSome :=
  List.find?_isSome.mpr ⟨i, mem, by simp⟩

theorem drafts_add {b : Backlog} {now : Int} {i : WorkItem} {w : Write}
    (mem : w ∈ draftedWrites (b.add now i).1) : b.Drafts now w := by
  cases answer : (b.add now i).1 with
  | error f =>
      rw [answer] at mem
      cases mem
  | ok d =>
      rw [answer] at mem
      have result := answer
      unfold add at result
      split at result
      · cases result
      · cases result
        cases List.mem_singleton.mp mem
        exact .adds answer rfl rfl

theorem drafts_update {b : Backlog} {now : Int} {i : WorkItem} {w : Write}
    (mem : w ∈ draftedWrites (b.update now i)) : b.Drafts now w := by
  unfold update stored at mem
  cases found : b.get? i.id with
  | none =>
      rw [found] at mem
      cases mem
  | some j =>
      rw [found] at mem
      simp only [bind, Except.bind] at mem
      split at mem
      · cases mem
      · cases List.mem_singleton.mp mem
        exact .updates (by simp [found])

theorem new_nextOccurrence {b c : Backlog} {now : Int} {i next : WorkItem}
    (h : b.nextOccurrence now i = (.ok (some next), c)) : next.state = .new := by
  unfold nextOccurrence at h
  split at h
  · cases h
  · split at h
    · cases h
    · dsimp only at h
      split at h
      · cases h
      · split at h
        · cases h
        · cases h
          rfl

theorem drafts_complete {b : Backlog} {now : Int} {id : Nat} {w : Write}
    (mem : w ∈ draftedWrites (b.complete now id).1) : b.Drafts now w := by
  cases answer : (b.complete now id).1 with
  | error f =>
      rw [answer] at mem
      cases mem
  | ok d =>
      rw [answer] at mem
      -- The call has found an item that is new, and has asked for its next occurrence.
      have result := answer
      unfold complete stored at result
      cases found : b.get? id with
      | none =>
          rw [found] at result
          cases result
      | some i =>
          rw [found] at result
          dsimp only at result
          split at result
          · cases result
          · cases occurrence : b.nextOccurrence now (completed now i) with
            | mk next c =>
                rw [occurrence] at result
                cases next with
                | error f => cases result
                | ok next =>
                    cases result
                    cases List.mem_singleton.mp mem
                    have same : (completed now i).id = id :=
                      (id_completed now i).trans (id_of_get? found)
                    refine .completes ?_ ?_ rfl fun n here => ?_
                    · rw [same, found]
                      rfl
                    · rw [same, answer]
                    · rw [Option.mem_def] at here
                      subst here
                      obtain ⟨-, ⟨_, same, fresh, -⟩ | ⟨none, -⟩⟩ := nextOccurrence_inv occurrence
                      · cases same
                        exact ⟨fresh, new_nextOccurrence occurrence⟩
                      · exact absurd rfl (none n)

/-- What an addition drafts is a new item, under the next identity. -/
theorem insert_of_mem_add {b : Backlog} {now : Int} {i : WorkItem} {w : Write}
    (mem : w ∈ draftedWrites (b.add now i).1) : ∃ j, w = .insert j ∧ j.id = b.nextId := by
  unfold add at mem
  split at mem
  · cases mem
  · exact ⟨_, List.mem_singleton.mp mem, rfl⟩

/-- What an update drafts is a replacement of the item. -/
theorem replace_of_mem_update {b : Backlog} {now : Int} {i : WorkItem} {w : Write}
    (mem : w ∈ draftedWrites (b.update now i)) : ∃ j, w = .replace j none ∧ j.id = i.id := by
  unfold update at mem
  cases found : b.stored i.id with
  | error e =>
      rw [found] at mem
      cases mem
  | ok current =>
      simp only [found, bind, Except.bind] at mem
      split at mem
      · cases mem
      · exact ⟨_, List.mem_singleton.mp mem, rfl⟩

/-- And so is what a completion drafts. A successor that comes with it gets the next identity. -/
theorem replace_of_mem_complete {b : Backlog} {now : Int} {id : Nat} {w : Write}
    (mem : w ∈ draftedWrites (b.complete now id).1) :
    ∃ j next, w = .replace j next ∧ j.id = id ∧ ∀ n ∈ next, n.id = b.nextId := by
  unfold complete stored at mem
  cases found : b.get? id with
  | none =>
      rw [found] at mem
      cases mem
  | some i =>
      rw [found] at mem
      dsimp only at mem
      split at mem
      · cases mem
      · cases occurrence : b.nextOccurrence now (completed now i) with
        | mk next c =>
            rw [occurrence] at mem
            cases next with
            | error f => cases mem
            | ok next =>
                have same : (completed now i).id = id :=
                  (id_completed now i).trans (id_of_get? found)
                refine ⟨_, next, List.mem_singleton.mp mem, same, fun n here => ?_⟩
                cases here
                obtain ⟨-, ⟨_, same, fresh, -⟩ | ⟨none, -⟩⟩ := nextOccurrence_inv occurrence
                · cases same
                  exact fresh
                · exact absurd rfl (none n)

/-- **Whatever an operation drafts is of one of five kinds.** -/
theorem drafts_of_mem {b : Backlog} {op : Operation} {now : Int} {w : Write}
    (mem : w ∈ (op.draft now b).1) : b.Drafts now w := by
  cases op with
  | add i => exact drafts_add mem
  | update i => exact drafts_update mem
  | defer i => exact drafts_update mem
  | complete id => exact drafts_complete mem
  | expire =>
      obtain ⟨i, late, rfl⟩ := List.mem_map.mp mem
      exact .expires (get?_isSome_of_mem (List.mem_filter.mp late).1)
  | purge olderThan =>
      cases List.mem_singleton.mp mem
      refine .purges fun id here => ?_
      obtain ⟨i, old, rfl⟩ := List.mem_map.mp here
      exact get?_isSome_of_mem (List.mem_filter.mp old).1

/-- A drafted write touches what was stored when it was drafted, and the identity that was
used up for it. -/
theorem Drafts.touches {b : Backlog} {now : Int} {w : Write} (h : b.Drafts now w) {id : Nat}
    (mem : id ∈ w.touches) : (b.get? id).isSome ∨ id = b.nextId := by
  cases h with
  | adds _ fresh _ => exact .inr (List.mem_singleton.mp mem ▸ fresh)
  | updates stored => exact .inl (List.mem_singleton.mp mem ▸ stored)
  | @completes i next stored _ _ fresh =>
      rcases List.mem_cons.mp mem with rfl | mem
      · exact .inl stored
      · obtain ⟨n, here, rfl⟩ := Option.map_eq_some_iff.mp (Option.mem_toList.mp mem)
        exact .inr (fresh n here).1
  | expires stored => exact .inl (List.mem_singleton.mp mem ▸ stored)
  | purges stored => exact .inl (stored id mem)

/-! ### What writes leave alone -/

/-- A write changes nothing under an identity that it does not touch. -/
theorem get?_settle_of_not_mem {b : Backlog} (ordered : b.Ordered) {w : Write} {id : Nat}
    (apart : id ∉ w.touches) : (b.settle w).get? id = b.get? id := by
  refine settle_induction (motive := fun c => c.get? id = b.get? id) b w rfl ?_
  intro c result
  cases w with
  | insert i =>
      cases result
      have other : i.id ≠ id := by simpa [Write.touches, eq_comm] using apart
      rw [get?_put, if_neg other]
  | replace i successor =>
      obtain ⟨current, -, -, rfl⟩ := carryOut_replace_inv result
      cases successor with
      | none =>
          have other : i.id ≠ id := by simpa [Write.touches, eq_comm] using apart
          simp [get?_put, other]
      | some n =>
          have other : i.id ≠ id ∧ n.id ≠ id := by simpa [Write.touches, eq_comm] using apart
          simp [get?_put, other]
  | expire i now =>
      cases result
      have other : i ≠ id := by simpa [Write.touches, eq_comm] using apart
      exact get?_expireItem_of_ne other now
  | purge ids =>
      cases result
      rw [purgeItems, ordered.get?_filter]
      cases found : b.get? id with
      | none => rfl
      | some j =>
          have kept : j.id ∉ ids := by
            rw [id_of_get? found]
            exact apart
          simp [kept]

theorem Ordered.commit {b : Backlog} (h : b.Ordered) (ws : List Write) : (b.commit ws).Ordered := by
  induction ws generalizing b with
  | nil => exact h
  | cons w ws ih => exact ih (h.settle w)

theorem Ordered.perform {b : Backlog} (h : b.Ordered) (op : Operation) (now : Int) :
    (op.perform now b).Ordered := by
  rw [perform_eq_commit]
  exact Ordered.commit ((drafted op now b).ordered h) _

theorem get?_commit_of_not_mem {b : Backlog} (ordered : b.Ordered) {ws : List Write} {id : Nat}
    (apart : ∀ w ∈ ws, id ∉ w.touches) : (b.commit ws).get? id = b.get? id := by
  induction ws generalizing b with
  | nil => rfl
  | cons w ws ih =>
      have rest : ∀ v ∈ ws, id ∉ v.touches := fun v mem => apart v (List.mem_cons_of_mem _ mem)
      calc (b.commit (w :: ws)).get? id = (b.settle w).get? id := ih (ordered.settle w) rest
        _ = b.get? id := get?_settle_of_not_mem ordered (apart w List.mem_cons_self)

/-- Nothing changes under an identity that nothing is inserted under. -/
theorem get?_commit_insert_of_not_mem {b : Backlog} (ordered : b.Ordered) {stored : List WorkItem}
    {id : Nat} (apart : id ∉ stored.map WorkItem.id) :
    (b.commit (stored.map .insert)).get? id = b.get? id := by
  refine get?_commit_of_not_mem ordered ?_
  intro w mem touched
  obtain ⟨i, i_mem, rfl⟩ := List.mem_map.mp mem
  obtain rfl : id = i.id := List.mem_singleton.mp touched
  exact apart (List.mem_map_of_mem i_mem)

/-- What is inserted under different identities is there afterwards, all of it. -/
theorem get?_commit_insert {b : Backlog} (ordered : b.Ordered) {stored : List WorkItem}
    (distinct : (stored.map WorkItem.id).Nodup) {i : WorkItem} (mem : i ∈ stored) :
    (b.commit (stored.map .insert)).get? i.id = some i := by
  induction stored generalizing b with
  | nil => cases mem
  | cons j rest ih =>
      obtain ⟨first, others⟩ := List.nodup_cons.mp distinct
      have next : b.commit ((j :: rest).map .insert) = (b.put j).commit (rest.map .insert) := rfl
      rw [next]
      rcases List.mem_cons.mp mem with rfl | later
      · rw [get?_commit_insert_of_not_mem (ordered.put i) first, get?_put_self]
      · exact ih (ordered.put j) others later

end Backlog

end RecurringWork
