import RecurringWork.Proofs.Backlog.Plans
import RecurringWork.Proofs.Backlog.Updates
import RecurringWork.Proofs.Dispatch.Workshop

/-!
# RecurringWork.Proofs.Dispatch.Verdicts

**What becomes of an item that was handed to the processor.** The verdict on a waiting item is
recorded, and there are only two ways in which this can fail (`Handing.isLost_iff`): the
completed item is a job whose cron expression gives no answer, or the deferred item would be
due beyond the last instant. A verdict that is recorded ends the item or defers it once more
(`Pace.conclude_of_kept`); one that is lost changes nothing at all
(`Pace.conclude_of_lost`), so that the item waits as it did before.
-/

namespace RecurringWork

/-- An item that was handed to the processor, and the verdict on it at `now`. -/
structure Handing where
  item : WorkItem
  now : Int
  verdict : Verdict

namespace Handing

/-- The verdict cannot be recorded. -/
def isLost (pace : Pace) (h : Handing) : Bool :=
  match h.verdict with
  | .completed => !((Backlog.completed h.now h.item).dueAgain h.now).isOk
  | .deferred | .failed => (pace.postponed? h.now h.item).isNone

/-- The item is done, and this is recorded. -/
def Closes (pace : Pace) (h : Handing) : Prop := h.verdict = .completed ∧ h.isLost pace = false

end Handing

/-- Nobody can say whether and when the item is due again exactly if its job recurs by a cron
expression that cannot be read, or that gives no answer. -/
theorem WorkItem.dueAgain_isOk_eq_false_iff (i : WorkItem) (now : Int) :
    (i.dueAgain now).isOk = false ↔
      ∃ name expression zone, i.kind = .job name (.cron expression zone) ∧
        ∀ plan due, (Recurrence.cron expression zone).build = .ok plan →
          plan.next now (i.history now) ≠ .ok due := by
  unfold dueAgain
  cases i.kind with
  | jobInstance id cursor => simp [WorkKind.trigger?, Except.isOk, Except.toBool]
  | notification channel payload => simp [WorkKind.trigger?, Except.isOk, Except.toBool]
  | job name trigger =>
      simp only [WorkKind.trigger?]
      cases trigger with
      | fixedDelay delay initialDelay =>
          simp [Recurrence.build, Plan.next, history, Except.map, Except.isOk, Except.toBool]
      | cron expression zone =>
          cases built : (Recurrence.cron expression zone).build with
          | error e => simp [built, Except.isOk, Except.toBool]
          | ok plan =>
              cases asked : plan.next now (i.history now) with
              | error f =>
                  have silent : ∀ plan' due, plan = plan' →
                      plan'.next now (i.history now) ≠ .ok due := by
                    rintro plan' due rfl answers
                    rw [asked] at answers
                    cases answers
                  simpa [built, asked, Except.map, Except.isOk, Except.toBool] using silent
              | ok due => simp [built, asked, Except.map, Except.isOk, Except.toBool]

/-- **There are two ways to lose a verdict.** -/
theorem Handing.isLost_iff (pace : Pace) (h : Handing) : h.isLost pace = true ↔
    (h.verdict = .completed ∧ ∃ name expression zone,
        h.item.kind = .job name (.cron expression zone) ∧
          ∀ plan due, (Recurrence.cron expression zone).build = .ok plan →
            plan.next h.now ((Backlog.completed h.now h.item).history h.now) ≠ .ok due) ∨
      (h.verdict ≠ .completed ∧ Instant.maximum < h.now + pace.deferDelay.toMillis) := by
  unfold isLost
  cases h.verdict with
  | completed =>
      rw [Bool.not_eq_true', WorkItem.dueAgain_isOk_eq_false_iff]
      simp [Backlog.completed]
  | deferred | failed => simp [Pace.postponed?]

/-! ### What is stored instead of the item -/

/-- `after` is what a recorded verdict makes of `before`: it does not wait any longer, or it has
been deferred once more and may still be deferred. -/
structure WorkItem.Judged (before after : WorkItem) (verdict : Verdict) : Prop where
  id : after.id = before.id
  limit : after.maxDeferCount = before.maxDeferCount
  waits : after.state = .new → verdict ≠ .completed ∧
    after.deferCount = min (before.deferCount + 1) deferCountLimit ∧
    after.deferCount < after.effectiveMaxDeferCount

namespace Pace

variable {pace : Pace} {b : Backlog} {i : WorkItem}

/-- Only its time tells a postponed item from what it was. -/
theorem postponed?_inv {now : Int} {d : WorkItem} (h : pace.postponed? now i = some d) :
    d.id = i.id ∧ d.maxDeferCount = i.maxDeferCount ∧ d.deferCount = i.deferCount := by
  unfold postponed? at h
  dsimp only at h
  split at h
  · cases h
    exact ⟨rfl, rfl, rfl⟩
  · cases h

/-- **Nothing else can go wrong when a verdict is recorded.** The item is replaced, and with
it comes at most a new item that was never deferred. -/
theorem conclude_of_kept (h : b.plans.Faithful) (stored : b.get? i.id = some i)
    (new : i.state = .new) {now : Int} {v : Verdict}
    (kept : (⟨i, now, v⟩ : Handing).isLost pace = false) :
    ∃ j next, (pace.conclude b now i v).1 = .ok [.replace j next] ∧ i.Judged j v ∧
      ∀ n ∈ next, n.id = b.nextId ∧ n.deferCount = 0 := by
  cases v with
  | completed =>
      have answer := Backlog.complete_of_new h stored new now
      cases again : (Backlog.completed now i).dueAgain now with
      | error f => simp [Handing.isLost, again, Except.isOk, Except.toBool] at kept
      | ok due =>
          rw [again] at answer
          cases result : b.complete now i.id with
          | mk r c =>
              rw [result] at answer
              cases answer
              refine ⟨Backlog.completed now i,
                due.map fun due => Backlog.successor b.nextId now due (Backlog.completed now i),
                by simp only [conclude, result], ⟨rfl, rfl, fun new => by cases new⟩,
                fun n mem => ?_⟩
              obtain ⟨t, -, rfl⟩ := Option.map_eq_some_iff.mp mem
              exact ⟨rfl, rfl⟩
  | deferred | failed =>
      cases later : pace.postponed? now i with
      | none => simp [Handing.isLost, later] at kept
      | some d =>
          obtain ⟨same, limit, count⟩ := postponed?_inv later
          rw [← same] at stored
          have result : b.defer now d = .ok ⟨d.deferred.inPlaceOf i now,
              [.replace (d.deferred.inPlaceOf i now) none]⟩ :=
            Backlog.update_of_new (i := d.deferred) stored new now
          refine ⟨d.deferred.inPlaceOf i now, none, by simp only [conclude, later, result],
            ⟨same, limit, fun waits => ⟨by simp, ?_, ?_⟩⟩, fun n mem => by cases mem⟩
          · rw [← count]
            rfl
          · have open_ := Backlog.lt_of_targetState_eq_new (i := d.deferred) waits
            exact open_

/-- **A lost verdict changes nothing.** -/
theorem conclude_of_lost (h : b.plans.Faithful) (stored : b.get? i.id = some i)
    (new : i.state = .new) {now : Int} {v : Verdict}
    (lost : (⟨i, now, v⟩ : Handing).isLost pace = true) :
    (pace.conclude b now i v).2.items = b.items ∧
      ∀ ws, (pace.conclude b now i v).1 = .ok ws → ws = [] := by
  cases v with
  | completed =>
      have answer := Backlog.complete_of_new h stored new now
      have draft := Backlog.drafted_complete b now i.id
      cases again : (Backlog.completed now i).dueAgain now with
      | ok due => simp [Handing.isLost, again, Except.isOk, Except.toBool] at lost
      | error f =>
          rw [again] at answer
          cases result : b.complete now i.id with
          | mk r c =>
              rw [result] at answer draft
              cases answer
              have items : c.items = b.items := draft.items
              cases f <;> simp [conclude, result, items]
  | deferred | failed =>
      cases later : pace.postponed? now i with
      | some d => simp [Handing.isLost, later] at lost
      | none => simp [conclude, later]

/-- What is stored instead of the item when the verdict on it is recorded. -/
theorem items_record_of_kept (β : Type) {c : Backlog} (h : b.plans.Faithful)
    (stored : b.get? i.id = some i) (new : i.state = .new) {now : Int} {v : Verdict}
    {ws : List Write} (kept : (⟨i, now, v⟩ : Handing).isLost pace = false)
    (concluded : pace.conclude b now i v = (.ok ws, c)) :
    ∃ (j : WorkItem) (next : Option WorkItem), i.Judged j v ∧
      (∀ n ∈ next, n.id = b.nextId ∧ n.deferCount = 0) ∧
      (c.record (none : Option (Scope Write β)) ⟨(), ws⟩).2.1.items =
        (next.elim (b.put j) (b.put j).put).items := by
  obtain ⟨j, next, answer, judged, fresh⟩ := conclude_of_kept h stored new kept
  obtain ⟨op, draft, -⟩ := Workshop.conclude_inv concluded
  have drafted := Backlog.drafted op now b
  rw [draft] at drafted
  rw [concluded] at answer
  cases answer
  have waits : c.HasNew j.id := ⟨i, by rw [drafted.get?, judged.id, stored], new⟩
  have items : c.items = b.items := drafted.items
  refine ⟨j, next, judged, fresh, ?_⟩
  rw [drafted.record (), Backlog.commit, List.foldl_cons, List.foldl_nil, Backlog.settle,
    Backlog.carryOut_replace_of_new waits]
  cases next <;> simp only [Option.elim, Backlog.put, items]

/-- What is recorded of a verdict concerns the item alone, and the identity that its successor
gets. -/
theorem mem_touches_of_conclude {c : Backlog} {now : Int} {v : Verdict} {ws : List Write}
    (concluded : pace.conclude b now i v = (.ok ws, c)) {w : Write} (mem : w ∈ ws) {id : Nat}
    (touched : id ∈ w.touches) : id = i.id ∨ id = b.nextId := by
  cases v with
  | completed =>
      have drafted : w ∈ Backlog.draftedWrites (b.complete now i.id).1 := by
        unfold conclude at concluded
        dsimp only at concluded
        split at concluded
        · next d _ result =>
            cases concluded
            rw [result]
            exact mem
        · next result =>
            cases concluded
            cases mem
        · cases concluded
      obtain ⟨j, next, rfl, same, fresh⟩ := Backlog.replace_of_mem_complete drafted
      rcases List.mem_cons.mp touched with rfl | after
      · exact .inl same
      · obtain ⟨n, here, rfl⟩ := Option.map_eq_some_iff.mp (Option.mem_toList.mp after)
        exact .inr (fresh n here)
  | deferred | failed =>
      cases later : pace.postponed? now i with
      | none => simp [conclude, later] at concluded
      | some d =>
          obtain ⟨same, -⟩ := postponed?_inv later
          have drafted : w ∈ Backlog.draftedWrites (b.update now d.deferred) := by
            simp only [conclude, later, Backlog.defer] at concluded
            split at concluded
            · next result =>
                cases concluded
                rw [result]
                exact mem
            · cases concluded
              cases mem
          obtain ⟨j, rfl, same'⟩ := Backlog.replace_of_mem_update drafted
          have mine : id = j.id := by simpa [Write.touches] using touched
          exact .inl (mine.trans (same'.trans same))

/-- A verdict on one item is none on the others. -/
theorem get?_record_of_ne (β : Type) {c : Backlog} (ordered : b.Ordered) {now : Int} {v : Verdict}
    {ws : List Write} (concluded : pace.conclude b now i v = (.ok ws, c)) {id : Nat}
    (other : id ≠ i.id) (old : id ≠ b.nextId) :
    (c.record (none : Option (Scope Write β)) ⟨(), ws⟩).2.1.get? id = b.get? id := by
  obtain ⟨op, draft, -⟩ := Workshop.conclude_inv concluded
  have drafted := Backlog.drafted op now b
  rw [draft] at drafted
  have same := drafted.ordered ordered
  have apart : ∀ w ∈ ws, id ∉ w.touches := fun w mem touched =>
    (mem_touches_of_conclude concluded mem touched).elim other old
  calc (c.record (none : Option (Scope Write β)) ⟨(), ws⟩).2.1.get? id
      = (c.commit ws).get? id := by rw [drafted.record ()]
    _ = c.get? id := Backlog.get?_commit_of_not_mem same apart
    _ = b.get? id := drafted.get? id

/-- A run that breaks off has used up nothing. -/
theorem steps_of_conclude_error {β : Type} {c : Backlog} {now : Int} {v : Verdict} {f : Failure}
    (h : pace.conclude b now i v = (.error f, c)) (scopes landing : List (Scope Write β)) :
    Ledger.Steps ⟨b, scopes, landing⟩ ⟨c, scopes, landing⟩ := by
  cases v with
  | completed =>
      have performed := Ledger.steps_perform b scopes landing (.complete i.id) now
      rw [Backlog.perform_eq_commit] at performed
      unfold conclude at h
      unfold Operation.draft at performed
      dsimp only at h performed
      split at h
      · cases h
      · cases h
      · next d result =>
          cases h
          rw [result] at performed
          exact performed
  | deferred | failed =>
      unfold conclude at h
      dsimp only at h
      split at h
      · cases h
        exact .refl
      · split at h <;> cases h

end Pace

end RecurringWork
