import RecurringWork.Proofs.Backlog.Queries
import RecurringWork.Proofs.Backlog.Refusals

/-!
# RecurringWork.Proofs.Backlog.Budget

**An item is deferred exactly as often as it may.** A `Reprieve` is an item that somebody defers
again and again, each time handing in what the last time has returned. In between the clock moves as
it likes, and anything happens to the backlog that does not concern the item
(`Operation.Spares`).

* The item at hand is the one that is stored, and the count of its deferrals tells whether it
  waits (`Reprieve.Sound`). Each deferral of a waiting item is granted, and counted.
* The first deferral with which the count would reach what the item may bear drops it instead, and
  that is the end of it: from then on it is neither deferred nor updated nor completed, and nobody
  who looks for work gets to see it (`Reprieve.Steps.budget`).
-/

namespace RecurringWork

/-! ### What happens to other items -/

/-- What the operation does at `now` does not concern the item of the identity. -/
def Operation.Spares (b : Backlog) (now : Int) (id : Nat) : Operation → Prop
  | .add _ => True
  | .update i | .defer i => i.id ≠ id
  | .complete other => other ≠ id
  | .expire => ∀ i, b.get? id = some i → i.isPastDeadline now = false
  | .purge olderThan =>
      ∀ i, b.get? id = some i → ¬(i.state.isTerminal ∧ i.stateChangedAt < olderThan)

namespace Backlog

variable {b : Backlog} {now : Int} {id : Nat} {op : Operation}

theorem not_mem_touches_of_spares (ordered : b.Ordered) (old : id < b.nextId)
    (spares : op.Spares b now id) {w : Write} (mem : w ∈ (op.draft now b).1) : id ∉ w.touches := by
  have here {i : WorkItem} (stored : i ∈ b.items) (same : i.id = id) : b.get? id = some i :=
    ordered.get?_eq_some_iff.mpr ⟨stored, same⟩
  cases op with
  | add i =>
      obtain ⟨j, rfl, fresh⟩ := insert_of_mem_add mem
      simp only [Write.touches, List.mem_singleton]
      omega
  | update i | defer i =>
      obtain ⟨j, rfl, same⟩ := replace_of_mem_update mem
      have other : j.id ≠ id := fun h => spares (same.symm.trans h)
      simpa [Write.touches] using other.symm
  | complete i =>
      obtain ⟨j, next, rfl, same, fresh⟩ := replace_of_mem_complete mem
      intro touched
      rcases List.mem_cons.mp touched with rfl | after
      · exact spares same.symm
      · obtain ⟨n, found, rfl⟩ := Option.map_eq_some_iff.mp (Option.mem_toList.mp after)
        have := fresh n found
        omega
  | expire =>
      obtain ⟨i, late, rfl⟩ := List.mem_map.mp mem
      obtain ⟨stored, past⟩ := List.mem_filter.mp late
      intro touched
      have early := spares i (here stored (List.mem_singleton.mp touched).symm)
      rw [early] at past
      cases past
  | purge olderThan =>
      cases List.mem_singleton.mp mem
      intro touched
      obtain ⟨i, old, same⟩ := List.mem_map.mp touched
      obtain ⟨stored, aged⟩ := List.mem_filter.mp old
      simp only [Bool.and_eq_true, decide_eq_true_eq] at aged
      exact spares i (here stored same) aged

/-- What spares an item leaves it as it is. -/
theorem get?_perform_of_spares (ordered : b.Ordered) (old : id < b.nextId)
    (spares : op.Spares b now id) : (op.perform now b).get? id = b.get? id := by
  have drafted := drafted op now b
  have apart : ∀ w ∈ (op.draft now b).1, id ∉ w.touches := fun w mem =>
    not_mem_touches_of_spares ordered old spares mem
  rw [perform_eq_commit, get?_commit_of_not_mem (drafted.ordered ordered) apart, drafted.get?]

end Backlog

/-! ### One item, deferred again and again -/

namespace WorkItem

/-- How often the item has been deferred when it is deferred that many times more. -/
def countAfter (i : WorkItem) (times : Nat) : Nat :=
  if times = 0 then i.deferCount else min (i.deferCount + times) deferCountLimit

/-- The state in which the item is stored then. -/
def stateAfter (i : WorkItem) (times : Nat) : WorkState :=
  if times = 0 ∨ i.deferCount + times < i.effectiveMaxDeferCount then .new else .dropped

variable {i : WorkItem} {times : Nat}

theorem stateAfter_eq_new_iff :
    i.stateAfter times = .new ↔ times = 0 ∨ i.deferCount + times < i.effectiveMaxDeferCount := by
  unfold stateAfter
  split <;> simp_all

/-- An item that waits is deferred once more. What it may bear is a number that can be stored. -/
theorem targetState_deferred {j : WorkItem} (small : i.effectiveMaxDeferCount ≤ deferCountLimit)
    (limit : j.maxDeferCount = i.maxDeferCount) (count : j.deferCount = i.countAfter times)
    (new : j.state = .new) :
    j.deferred.deferCount = i.countAfter (times + 1) ∧
      Backlog.targetState j.deferred = i.stateAfter (times + 1) := by
  have bears : j.deferred.effectiveMaxDeferCount = i.effectiveMaxDeferCount := by
    show j.maxDeferCount.getD _ = _
    rw [limit]
    rfl
  have counted : j.deferred.deferCount = i.countAfter (times + 1) := by
    simp only [deferred, count, countAfter]
    grind
  refine ⟨counted, ?_⟩
  have waits : j.deferred.state = .new := new
  simp only [Backlog.targetState, waits, deferLimitReached, bears, counted, countAfter, stateAfter]
  grind

end WorkItem

/-- An item that is deferred again and again. -/
structure Reprieve where
  backlog : Backlog
  /-- The item as it was returned last. -/
  item : WorkItem
  /-- How often it has been deferred. -/
  times : Nat

namespace Reprieve

/-- Defer the item at hand, outside of any transaction. -/
def defer (r : Reprieve) (now : Int) : Backlog.Aftermath Unit :=
  r.backlog.call none now (.defer r.item)

/-- One thing that happens. -/
inductive Step : Reprieve → Reprieve → Prop
  /-- The item at hand is deferred, and what is returned takes its place. -/
  | defers {r : Reprieve} {j : WorkItem} (now : Int) : (r.defer now).result = .ok (.item j) →
      Step r ⟨(r.defer now).backlog, j, r.times + 1⟩
  /-- An operation on other items is called outside of any transaction. -/
  | calls {r : Reprieve} (op : Operation) (now : Int) : op.Spares r.backlog now r.item.id →
      Step r { r with backlog := op.perform now r.backlog }
  /-- Any operation is called inside of a transaction. -/
  | drafts {r : Reprieve} (op : Operation) (now : Int) :
      Step r { r with backlog := (op.draft now r.backlog).2 }
  /-- A write of a transaction on other items is carried out. -/
  | lands {r : Reprieve} (w : Write) : r.item.id ∉ w.touches →
      Step r { r with backlog := r.backlog.settle w }

/-- Any number of things that happen one after the other. -/
abbrev Steps : Reprieve → Reprieve → Prop := Relation.ReflTransGen Step

/-- What holds when the item `i` has been deferred for some time. -/
structure Sound (i : WorkItem) (r : Reprieve) : Prop where
  ordered : r.backlog.Ordered
  old : i.id < r.backlog.nextId
  /-- The item at hand is the one that is stored. -/
  stored : r.backlog.get? i.id = some r.item
  limit : r.item.maxDeferCount = i.maxDeferCount
  count : r.item.deferCount = i.countAfter r.times
  state : r.item.state = i.stateAfter r.times
  /-- Only a waiting item has been deferred. -/
  granted : r.times ≤ max 1 (i.effectiveMaxDeferCount - i.deferCount)

variable {i : WorkItem} {r s : Reprieve}

theorem Sound.id (h : Sound i r) : r.item.id = i.id := Backlog.id_of_get? h.stored

/-- **An item that waits is deferred at any time.** It is returned as it is stored, counted once
more, and nothing else is changed. -/
theorem Sound.defer_of_new (h : Sound i r)
    (small : i.effectiveMaxDeferCount ≤ WorkItem.deferCountLimit) (new : r.item.state = .new)
    (now : Int) :
    ∃ j, r.defer now = ⟨.ok (.item j), r.backlog.put j, none⟩ ∧ j.id = i.id ∧
      j.maxDeferCount = i.maxDeferCount ∧ j.deferCount = i.countAfter (r.times + 1) ∧
      j.state = i.stateAfter (r.times + 1) := by
  let j := r.item.deferred.inPlaceOf r.item now
  have stored : r.backlog.get? r.item.deferred.id = some r.item := h.id.symm ▸ h.stored
  have drafted : r.backlog.defer now r.item = .ok ⟨j, [.replace j none]⟩ :=
    Backlog.update_of_new stored new now
  have waits : r.backlog.HasNew j.id := ⟨r.item, stored, new⟩
  obtain ⟨counted, state⟩ := WorkItem.targetState_deferred small h.limit h.count new
  refine ⟨j, ?_, h.id, h.limit, counted, state⟩
  simp only [defer, Backlog.call, drafted, Except.mapError, Backlog.grant, Backlog.record,
    List.foldlM_cons, List.foldlM_nil, Backlog.carryOut_replace_of_new waits]
  rfl

/-- No other item is deferred. -/
theorem Sound.new_of_defer (h : Sound i r) {now : Int} {j : WorkItem}
    (granted : (r.defer now).result = .ok (.item j)) : r.item.state = .new := by
  by_contra ended
  have gone : ¬r.backlog.HasNew r.item.id := by
    rintro ⟨k, found, new⟩
    rw [h.id, h.stored] at found
    cases found
    exact ended new
  obtain ⟨e, refused⟩ := Backlog.update_of_not_hasNew (i := r.item.deferred) gone now
  have result : (r.defer now).result = .error e := by
    simp only [defer, Backlog.call_eq, Backlog.answer, Backlog.defer, refused]
    rfl
  rw [result] at granted
  cases granted

/-- **Whatever happens, the item at hand is the one that is stored, and the number of its deferrals
tells in which state.** -/
theorem Sound.step (h : Sound i r) (small : i.effectiveMaxDeferCount ≤ WorkItem.deferCountLimit)
    (st : Step r s) : Sound i s := by
  cases st with
  | @defers j now granted =>
      have new := h.new_of_defer granted
      obtain ⟨k, outcome, id, limit, count, state⟩ := h.defer_of_new small new now
      rw [outcome] at granted
      cases granted
      rw [outcome]
      have open_ : r.times = 0 ∨ i.deferCount + r.times < i.effectiveMaxDeferCount :=
        WorkItem.stateAfter_eq_new_iff.mp (h.state ▸ new)
      refine ⟨h.ordered.put j, h.old, ?_, limit, count, state, by dsimp only; omega⟩
      exact id ▸ Backlog.get?_put_self r.backlog j
  | calls op now spares =>
      rw [h.id] at spares
      have same := Backlog.get?_perform_of_spares h.ordered h.old spares
      exact { h with
        ordered := h.ordered.perform op now
        old := Nat.lt_of_lt_of_le h.old (Backlog.nextId_le_perform op now r.backlog)
        stored := same.trans h.stored }
  | drafts op now =>
      have drafted := Backlog.drafted op now r.backlog
      exact { h with
        ordered := drafted.ordered h.ordered
        old := Nat.lt_of_lt_of_le h.old drafted.nextId_le
        stored := (drafted.get? _).trans h.stored }
  | lands w apart =>
      rw [h.id] at apart
      have same := Backlog.get?_settle_of_not_mem h.ordered apart
      exact { h with
        ordered := h.ordered.settle w
        old := (Backlog.nextId_settle r.backlog w).symm ▸ h.old
        stored := same.trans h.stored }

theorem Sound.steps (h : Sound i r) (small : i.effectiveMaxDeferCount ≤ WorkItem.deferCountLimit)
    (run : Steps r s) : Sound i s := by
  induction run with
  | refl => exact h
  | tail _ st ih => exact ih.step small st

/-- An item that does not wait stays as it is. -/
theorem Sound.item_eq (h : Sound i r)
    (small : i.effectiveMaxDeferCount ≤ WorkItem.deferCountLimit) (ended : r.item.state ≠ .new)
    (run : Steps r s) : s.item = r.item := by
  induction run with
  | refl => rfl
  | tail sofar st ih =>
      cases st with
      | defers now granted =>
          have new := (h.steps small sofar).new_of_defer granted
          rw [ih] at new
          exact absurd new ended
      | calls _ _ _ | drafts _ _ | lands _ _ => exact ih

/-! ### Once it is dropped -/

/-- The item has been dropped, and that is the end of it. -/
structure Over (i : WorkItem) (b : Backlog) : Prop where
  stored : b.get? i.id = some i
  /-- Nothing is stored in its place. -/
  updates : ∀ {β : Type} (scope : Option (Scope Write β)) (now : Int) (j : WorkItem), j.id = i.id →
    b.call scope now (.update j) =
      ⟨.error (.error (WorkState.dropped.refusal (Backlog.targetState j))), b, scope⟩
  defers : ∀ {β : Type} (scope : Option (Scope Write β)) (now : Int) (j : WorkItem), j.id = i.id →
    b.call scope now (.defer j) =
      ⟨.error (.error (WorkState.dropped.refusal (Backlog.targetState j.deferred))), b, scope⟩
  completes : ∀ {β : Type} (scope : Option (Scope Write β)) (now : Int),
    b.call scope now (.complete i.id) =
      ⟨.error (.error (WorkState.dropped.refusal .done)), b, scope⟩
  /-- It is not among what is due. -/
  due : ∀ (now : Int) (share : Share) (limit : Option Nat), ∀ j ∈ b.due now share limit, j.id ≠ i.id
  /-- The next item is due when it would be without it. -/
  nextDue : ∀ share : Share,
    b.nextDue share = Backlog.nextDue { b with items := b.items.filter fun j => j.id ≠ i.id } share

theorem over_of_dropped {b : Backlog} (ordered : b.Ordered) (stored : b.get? i.id = some i)
    (dropped : i.state = .dropped) : Over i b := by
  have ended : i.state.isTerminal := by rw [dropped]; rfl
  -- Whatever waits is another item.
  have other {j : WorkItem} (mem : j ∈ b.items) (new : j.state = .new) : j.id ≠ i.id := by
    intro same
    have found := ordered.get?_eq_some_iff.mpr ⟨mem, same⟩
    rw [stored] at found
    cases found
    rw [dropped] at new
    cases new
  refine ⟨stored, fun scope now j same => ?_, fun scope now j same => ?_, fun scope now => ?_,
    fun now share limit j mem => ?_, fun share => ?_⟩
  · have refused := Backlog.update_of_terminal (i := j) (same ▸ stored) ended now
    simp only [Backlog.call, refused, Except.mapError, Backlog.grant, dropped]
  · have refused := Backlog.update_of_terminal (i := j.deferred) (same ▸ stored) ended now
    simp only [Backlog.call, Backlog.defer, refused, Except.mapError, Backlog.grant, dropped]
  · simp only [Backlog.call, Backlog.complete_of_terminal stored ended, Backlog.grant, dropped]
  · have among : j ∈ b.due now share none := by
      cases limit with
      | none => exact mem
      | some n => exact List.mem_of_mem_take mem
    obtain ⟨here, ⟨_, -, new, -⟩, -⟩ := Backlog.mem_due_iff.mp among
    exact other here new
  · unfold Backlog.nextDue
    dsimp only
    rw [List.filter_filter]
    congr 2
    refine List.filter_congr fun j mem => ?_
    by_cases new : j.state = .new
    · simp [new, other mem new]
    · simp [new]

/-- **An item is deferred as often as it may, and then it is dropped.** Handed in as it was
returned, an item that waits is deferred at any time, whatever has happened to other items. It is
returned as it is stored, with its count raised by one, and it waits again while the count is below
what it may bear; the first deferral with which it is not drops the item. So there are exactly as
many deferrals as the item had left when it was handed in first, and always one. After the last of
them the item stays as it is for good. -/
theorem Steps.budget {β : Type} {l : Ledger β} (start : l.Reachable)
    (stored : l.backlog.get? i.id = some i) (new : i.state = .new)
    (small : i.effectiveMaxDeferCount ≤ WorkItem.deferCountLimit)
    (run : Steps ⟨l.backlog, i, 0⟩ r) :
    r.backlog.get? i.id = some r.item ∧
      (r.item.state = .new → ∀ now, ∃ j, r.defer now = ⟨.ok (.item j), r.backlog.put j, none⟩ ∧
        j.id = i.id ∧
        j.deferCount = min (i.deferCount + (r.times + 1)) WorkItem.deferCountLimit ∧
        j.state = if i.deferCount + (r.times + 1) < i.effectiveMaxDeferCount then .new
          else .dropped) ∧
      (r.item.state ≠ .new → r.item.state = .dropped ∧
        r.times = max 1 (i.effectiveMaxDeferCount - i.deferCount) ∧
        ∀ s, Steps r s → s.item = r.item ∧ Over r.item s.backlog) := by
  have first : Sound i ⟨l.backlog, i, 0⟩ :=
    ⟨start.sound.ordered, Backlog.Sound.stored_lt start.sound stored, stored, rfl, rfl, new,
      Nat.zero_le _⟩
  have sound := first.steps small run
  refine ⟨sound.stored, fun waits now => ?_, fun ended => ?_⟩
  · obtain ⟨j, outcome, id, -, count, state⟩ := sound.defer_of_new small waits now
    refine ⟨j, outcome, id, count, state.trans ?_⟩
    simp [WorkItem.stateAfter]
  · have state := sound.state
    have closed : ¬(r.times = 0 ∨ i.deferCount + r.times < i.effectiveMaxDeferCount) :=
      fun open_ => ended (state.trans (WorkItem.stateAfter_eq_new_iff.mpr open_))
    have dropped : r.item.state = .dropped := by rw [state, WorkItem.stateAfter, if_neg closed]
    refine ⟨dropped, ?_, fun s later => ?_⟩
    · have := sound.granted
      omega
    · have same := sound.item_eq small ended later
      have after := sound.steps small later
      refine ⟨same, same ▸ over_of_dropped after.ordered ?_ (same ▸ dropped)⟩
      rw [after.id]
      exact after.stored

/-- A message may be deferred twice. It is deferred at 1000 and again at 2000, while another message
comes in between. Then it is dropped, and it can no longer be completed. -/
theorem budget_of_twoDeferrals :
    let message := WorkItem.ofKind (.notification "email" .null)
    let add (i : WorkItem) := Operation.add { i with maxDeferCount := some 2 }
    let b := (add message).perform 0 (.empty 5)
    ∃ i r, b.get? 1 = some i ∧ Steps ⟨b, i, 0⟩ r ∧ r.times = 2 ∧ r.item.state = .dropped ∧
      (r.backlog.call (none : Option (Scope Write Unit)) 3000 (.complete 1)).result =
        .error (.error (.invalidTransition "DROPPED" "DONE")) := by
  intro message add b
  let i := (Backlog.empty 5).admitted 0 0 { message with maxDeferCount := some 2 }
  have reachable : (⟨b, [], []⟩ : Ledger Unit).Reachable := ⟨5, Ledger.steps_perform _ _ _ _ _⟩
  let first : WorkItem := { i with deferCount := 1 }
  let second : WorkItem := { i with deferCount := 2, state := .dropped, stateChangedAt := 2000 }
  have once : Steps ⟨b, i, 0⟩ ⟨b.put first, first, 1⟩ := .single (.defers 1000 rfl)
  have comes : Steps ⟨b, i, 0⟩ ⟨(add message).perform 1500 (b.put first), first, 1⟩ :=
    once.tail (.calls (add message) 1500 trivial)
  have twice : Steps ⟨b, i, 0⟩ ⟨((add message).perform 1500 (b.put first)).put second, second, 2⟩ :=
    comes.tail (.defers 2000 rfl)
  obtain ⟨-, -, dropped⟩ := Steps.budget reachable rfl rfl (by decide) twice
  obtain ⟨state, times, after⟩ := dropped (by decide)
  obtain ⟨-, ended⟩ := after _ .refl
  refine ⟨i, _, rfl, twice, times, state, ?_⟩
  exact congrArg Backlog.Aftermath.result (ended.completes none 3000)

end Reprieve

end RecurringWork
