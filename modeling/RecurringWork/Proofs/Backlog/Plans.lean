import RecurringWork.Proofs.Backlog.Ledger

/-!
# RecurringWork.Proofs.Backlog.Plans

**It makes no difference which plans are kept.** A backlog builds the plan of a recurrence
once and keeps it. What it keeps is what it would build (`PlanCache.Faithful`), and this is so
in every backlog that can come about (`Ledger.Reachable.faithful`). Whether and when an item is
due again once it is completed is therefore a matter of the item and the clock alone
(`WorkItem.dueAgain`), and so is whether a completion is refused (`Backlog.complete_of_new`).
-/

namespace RecurringWork

/-! ### Plans that are kept -/

namespace PlanCache

/-- Every plan is kept for a recurrence that it is the plan of. -/
def Faithful (c : PlanCache) : Prop :=
  ∀ (r : Recurrence) (p : CachedPlan), c.find? r = some p → r.build = .ok p.plan

theorem faithful_empty : empty.Faithful := by
  intro r p found
  cases found

theorem find?_append_singleton (plans : List (Recurrence × CachedPlan)) (built : Nat)
    (r s : Recurrence) (p : CachedPlan) :
    (⟨plans ++ [(r, p)], built⟩ : PlanCache).find? s =
      ((plans.find? fun q => q.1 == s).map Prod.snd).or (if r = s then some p else none) := by
  unfold find?
  rw [List.find?_append, Option.map_or]
  congr 1
  by_cases same : r = s <;> simp [same]

/-- **Asking for a plan gives the plan of the recurrence**, and what is kept then is kept
rightly again. -/
theorem Faithful.resolve {c : PlanCache} (h : c.Faithful) (r : Recurrence) :
    match r.build with
    | .error e => c.resolve r = .error e
    | .ok plan => ∃ p d, c.resolve r = .ok (p, d) ∧ p.plan = plan ∧ d.Faithful := by
  cases kept : c.find? r with
  | some p =>
      rw [h r p kept]
      exact ⟨p, c, resolve_of_find? kept, rfl, h⟩
  | none =>
      cases built : r.build with
      | error e => simp [PlanCache.resolve, kept, built, Except.map]
      | ok plan =>
          have result : c.resolve r =
              .ok (⟨c.built, plan⟩, ⟨c.plans ++ [(r, ⟨c.built, plan⟩)], c.built + 1⟩) := by
            simp [PlanCache.resolve, kept, built, Except.map]
          refine ⟨_, _, result, rfl, fun s p found => ?_⟩
          rw [find?_append_singleton, Option.or_eq_some_iff] at found
          rcases found with old | ⟨-, new⟩
          · exact h s p old
          · split at new
            · next same =>
                cases new
                exact same ▸ built
            · cases new

end PlanCache

/-! ### The next occurrence -/

/-- When the item is due again if it is completed at `now`, unless its recurrence has
ended. -/
def WorkItem.dueAgain (i : WorkItem) (now : Int) : Except Failure (Option Int) :=
  match i.kind.trigger? with
  | none => .ok none
  | some r =>
      match r.build with
      | .error e => .error e
      | .ok plan =>
          (plan.next now (i.history now)).map fun due =>
            if (i.history now).isEndedBy due then none else some due

namespace Backlog

variable {b : Backlog}

/-- What is looked up for the next occurrence is what the item and the clock say, and the plan
that is kept for it is kept rightly. -/
theorem nextOccurrence_of_faithful (h : b.plans.Faithful) (now : Int) (i : WorkItem) :
    (b.nextOccurrence now i).1 =
        (i.dueAgain now).map (Option.map fun due => successor b.nextId now due i) ∧
      (b.nextOccurrence now i).2.plans.Faithful := by
  unfold nextOccurrence WorkItem.dueAgain
  cases i.kind.trigger? with
  | none => exact ⟨rfl, h⟩
  | some r =>
      have resolved := h.resolve r
      dsimp only
      cases built : r.build with
      | error e =>
          rw [built] at resolved
          rw [resolved]
          exact ⟨rfl, h⟩
      | ok plan =>
          rw [built] at resolved
          obtain ⟨p, d, result, rfl, kept⟩ := resolved
          rw [result]
          dsimp only
          cases p.plan.next now (i.history now) with
          | error f => exact ⟨rfl, kept⟩
          | ok due =>
              simp only [Except.map]
              split
              · exact ⟨rfl, kept⟩
              · exact ⟨rfl, kept⟩

/-- **A waiting item is completed unless its recurrence cannot answer**, and it is completed
together with the next occurrence if there is one. -/
theorem complete_of_new (h : b.plans.Faithful) {id : Nat} {i : WorkItem}
    (stored : b.get? id = some i) (new : i.state = .new) (now : Int) :
    (b.complete now id).1 = ((completed now i).dueAgain now).map fun due =>
      let next := due.map fun due => successor b.nextId now due (completed now i)
      ⟨⟨completed now i, next⟩, [.replace (completed now i) next]⟩ := by
  have found : b.stored id = .ok i := by rw [Backlog.stored, stored]
  have live : i.state.isTerminal = false := WorkState.isTerminal_eq_false_iff.mpr new
  obtain ⟨answer, -⟩ := nextOccurrence_of_faithful h now (completed now i)
  unfold complete
  simp only [found, live, Bool.false_eq_true, if_false]
  cases occurrence : b.nextOccurrence now (completed now i) with
  | mk result c =>
      rw [occurrence] at answer
      cases asked : (completed now i).dueAgain now with
      | error f =>
          rw [asked] at answer
          cases answer
          rfl
      | ok due =>
          rw [asked] at answer
          cases answer
          rfl

/-! ### What operations keep -/

@[simp] theorem plans_settle (b : Backlog) (w : Write) : (b.settle w).plans = b.plans := by
  refine settle_induction (motive := fun c => c.plans = b.plans) b w rfl fun c result => ?_
  cases w with
  | insert i =>
      cases result
      rfl
  | replace i successor =>
      obtain ⟨-, -, -, rfl⟩ := carryOut_replace_inv result
      cases successor <;> rfl
  | expire id now =>
      cases result
      unfold expireItem
      split
      · split <;> rfl
      · rfl
  | purge ids =>
      cases result
      rfl

theorem faithful_firstDue (h : b.plans.Faithful) (now : Int) (i : WorkItem) :
    (b.firstDue now i).2.Faithful := by
  unfold firstDue
  cases i.scheduleTime with
  | some t => exact h
  | none =>
      cases i.effectiveRecurrence? with
      | none => exact h
      | some r =>
          have resolved := h.resolve r
          cases built : r.build with
          | error e =>
              rw [built] at resolved
              simp only [resolved]
              exact h
          | ok plan =>
              rw [built] at resolved
              obtain ⟨p, d, result, -, kept⟩ := resolved
              simp only [result]
              exact kept

theorem faithful_add (h : b.plans.Faithful) (now : Int) (i : WorkItem) :
    (b.add now i).2.plans.Faithful := by
  have kept := faithful_firstDue h now i
  unfold add
  cases result : b.firstDue now i with
  | mk due plans =>
      rw [result] at kept
      cases due <;> exact kept

theorem faithful_complete (h : b.plans.Faithful) (now : Int) (id : Nat) :
    (b.complete now id).2.plans.Faithful := by
  unfold complete
  split
  · exact h
  · next i _ =>
      split
      · exact h
      · obtain ⟨-, kept⟩ := nextOccurrence_of_faithful h now (completed now i)
        dsimp only
        split
        · next result =>
            rw [result] at kept
            exact kept
        · next result =>
            rw [result] at kept
            exact kept

/-- A call keeps the plans that it builds, and no others. -/
theorem faithful_draft (h : b.plans.Faithful) (now : Int) (op : Operation) :
    (op.draft now b).2.plans.Faithful := by
  cases op with
  | add i => exact faithful_add h now i
  | complete id => exact faithful_complete h now id
  | update _ | defer _ | expire | purge _ => exact h

end Backlog

/-- **Whatever happens to a backlog, the plans that it keeps are those that it would
build.** -/
theorem Ledger.Reachable.faithful {β : Type} {l : Ledger β} (h : l.Reachable) :
    l.backlog.plans.Faithful := by
  obtain ⟨maxDeferCount, run⟩ := h
  induction run with
  | refl => exact PlanCache.faithful_empty
  | tail _ st ih =>
      obtain ⟨same, -⟩ | ⟨op, now, called, -⟩ | ⟨w, landed, -⟩ := st.inv
      · rw [same]
        exact ih
      · rw [called]
        exact Backlog.faithful_draft ih now op
      · rw [landed, Backlog.plans_settle]
        exact ih

end RecurringWork
