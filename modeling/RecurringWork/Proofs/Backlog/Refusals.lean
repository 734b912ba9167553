import RecurringWork.Proofs.Backlog.Plans
import RecurringWork.Proofs.Backlog.Updates

/-!
# RecurringWork.Proofs.Backlog.Refusals

**An operation that fails has not happened.** An operation on the backlog looks at the stored
items, asks a plan for a time, hands out an identity and records a write. It can be refused, and
it can break off while it looks for a time. A `Backlog.Aftermath` is what comes of such a call, inside
of a transaction or outside of any.

* What has been drafted is recorded without fail, because the item that it is about has just been
  looked at (`Backlog.call_eq`). So nothing can fail any more once an identity has been handed out.
* A call that fails leaves the items, the identity of the next item and the transaction as they
  were, and it keeps no plan of a recurrence that has none (`Backlog.call_of_failure`).
* All that it can leave behind is a plan that was built before the call broke off. Nobody can tell:
  whatever is called afterwards is answered as if the failed call had not been made
  (`Backlog.Matches.calls`).
-/

namespace RecurringWork

/-- What the caller of an operation is told. -/
inductive Reply
  | item (i : WorkItem)
  | completion (c : Completion)
  | count (n : Nat)

namespace Backlog

/-- What comes of a call. -/
structure Aftermath (β : Type) where
  /-- What the caller is told. -/
  result : Except Failure Reply
  backlog : Backlog
  /-- The transaction around the call. -/
  scope : Option (Scope Write β)

variable {α β : Type} {b c : Backlog} {now : Int} {op : Operation}

/-- Record what an operation has drafted, and tell its answer. There is nothing to be recorded if
it has failed. -/
def grant (reply : α → Reply) (scope : Option (Scope Write β)) :
    Except Failure (Draft α) × Backlog → Aftermath β
  | (.error f, b) => ⟨.error f, b, scope⟩
  | (.ok d, b) =>
      let (answer, b, scope) := b.record scope d
      ⟨(answer.map reply).mapError .error, b, scope⟩

/-- Call an operation at `now`, inside of the transaction around it if there is one. -/
def call (b : Backlog) (scope : Option (Scope Write β)) (now : Int) : Operation → Aftermath β
  | .add i => grant .item scope (b.add now i)
  | .update i => grant .item scope ((b.update now i).mapError .error, b)
  | .defer i => grant .item scope ((b.defer now i).mapError .error, b)
  | .complete id => grant .completion scope (b.complete now id)
  | .expire => grant .count scope (.ok (b.expire now), b)
  | .purge olderThan => grant .count scope (.ok (b.purge olderThan), b)

/-- What an operation answers, before anything is recorded. -/
def answer (b : Backlog) (now : Int) : Operation → Except Failure Reply
  | .add i => (b.add now i).1.map fun d => .item d.answer
  | .update i => ((b.update now i).mapError Failure.error).map fun d => .item d.answer
  | .defer i => ((b.defer now i).mapError Failure.error).map fun d => .item d.answer
  | .complete id => (b.complete now id).1.map fun d => .completion d.answer
  | .expire => .ok (.count (b.expire now).answer)
  | .purge olderThan => .ok (.count (b.purge olderThan).answer)

/-! ### What has been drafted is recorded -/

/-- Nothing stands in the way of a write when it is drafted. -/
theorem carryOut_of_mem_draft {w : Write} (mem : w ∈ (op.draft now b).1) :
    ∃ c, (op.draft now b).2.carryOut w = .ok c := by
  have same := (drafted op now b).get?
  -- Only the replacement of an item depends on what is stored.
  have replaced {j : WorkItem} {next : Option WorkItem} (found : w = .replace j next)
      (new : b.HasNew j.id) : ∃ c, (op.draft now b).2.carryOut w = .ok c := by
    obtain ⟨current, stored, state⟩ := new
    exact ⟨_, found ▸ carryOut_replace_of_new ⟨current, (same _).trans stored, state⟩⟩
  cases op with
  | update i | defer i =>
      obtain ⟨j, found, new⟩ := hasNew_of_mem_update mem
      exact replaced found new
  | complete id =>
      obtain ⟨j, next, found, new⟩ := hasNew_of_mem_complete mem
      exact replaced found new
  | add i =>
      obtain ⟨j, rfl, -⟩ := insert_of_mem_add mem
      exact ⟨_, rfl⟩
  | expire =>
      obtain ⟨i, -, rfl⟩ := List.mem_map.mp mem
      exact ⟨_, rfl⟩
  | purge olderThan =>
      cases List.mem_singleton.mp mem
      exact ⟨_, rfl⟩

theorem foldlM_of_length_le_one {ws : List Write} (few : ws.length ≤ 1)
    (each : ∀ w ∈ ws, ∃ c, b.carryOut w = .ok c) : ∃ c, ws.foldlM carryOut b = .ok c := by
  match ws with
  | [] => exact ⟨b, rfl⟩
  | [w] =>
      obtain ⟨c, carried⟩ := each w List.mem_cons_self
      exact ⟨c, by simpa using carried⟩
  | _ :: _ :: _ => simp at few

/-- And so all of them are carried out that are drafted together. -/
theorem foldlM_draft (b : Backlog) (now : Int) (op : Operation) :
    ∃ c, (op.draft now b).1.foldlM carryOut (op.draft now b).2 = .ok c := by
  rcases (drafted op now b).few with few | expiries
  · exact foldlM_of_length_le_one few fun w mem => carryOut_of_mem_draft mem
  · exact foldlM_expiries _ expiries

@[simp] theorem draftedWrites_mapError {ε ε' : Type} (f : ε → ε') (r : Except ε (Draft α)) :
    draftedWrites (r.mapError f) = draftedWrites r := by
  cases r <;> rfl

/-- What may be carried out is recorded without fail, and what has failed has nothing to be
recorded. -/
theorem grant_eq (reply : α → Reply) (scope : Option (Scope Write β))
    {r : Except Failure (Draft α)} {b c : Backlog}
    (carried : (draftedWrites r).foldlM carryOut b = .ok c) :
    grant reply scope (r, b) =
      ⟨r.map fun d => reply d.answer, scope.elim c fun _ => b,
        scope.map fun s => s.stage (draftedWrites r)⟩ := by
  cases r with
  | error f =>
      cases carried
      cases scope <;> simp [grant, Except.map, draftedWrites]
  | ok d =>
      replace carried : d.writes.foldlM carryOut b = .ok c := carried
      cases scope <;> simp [grant, record, carried, Except.map, Except.mapError, draftedWrites]

/-- **What a call answers is settled before anything is recorded**, and then the recording does not
fail. Inside of a transaction the writes are staged, and outside of any they are carried out. -/
theorem call_eq (b : Backlog) (scope : Option (Scope Write β)) (now : Int) (op : Operation) :
    b.call scope now op =
      ⟨b.answer now op, scope.elim (op.perform now b) fun _ => (op.draft now b).2,
        scope.map fun s => s.stage (op.draft now b).1⟩ := by
  obtain ⟨c, carried⟩ := foldlM_draft b now op
  have performed : op.perform now b = c := by
    rw [perform_eq_commit, commit_of_foldlM_eq_ok carried]
  rw [performed]
  cases op with
  | add i => exact grant_eq .item scope carried
  | complete id => exact grant_eq .completion scope carried
  | update i =>
      rw [Operation.draft, ← draftedWrites_mapError Failure.error] at carried ⊢
      exact grant_eq .item scope carried
  | defer i =>
      rw [Operation.draft, ← draftedWrites_mapError Failure.error] at carried ⊢
      exact grant_eq .item scope carried
  | expire => exact grant_eq (r := .ok (b.expire now)) .count scope carried
  | purge olderThan => exact grant_eq (r := .ok (b.purge olderThan)) .count scope carried

/-! ### What a call that fails leaves behind -/

/-- What is left of a backlog when a call fails. -/
inductive Fails (b : Backlog) : Failure → Backlog → Prop
  /-- A call that is refused has done nothing. -/
  | refused (e : Error) : Fails b (.error e) b
  /-- A call that breaks off has looked up the plan that has no answer. -/
  | breaks {r : Recurrence} {p : CachedPlan} {plans : PlanCache} :
      b.plans.resolve r = .ok (p, plans) → Fails b .fault { b with plans }

theorem fails_add {i : WorkItem} {f : Failure} (failed : b.add now i = (.error f, c)) :
    b.Fails f c := by
  unfold add at failed
  split at failed
  · next result =>
      cases failed
      unfold firstDue at result
      split at result
      · cases result
      · split at result
        · cases result
        · split at result
          · cases result
            exact .refused _
          · next resolved =>
              simp only [Prod.mk.injEq] at result
              obtain ⟨silent, rfl⟩ := result
              cases Plan.eq_fault_of_next silent
              exact .breaks resolved
  · cases failed

theorem fails_nextOccurrence {i : WorkItem} {f : Failure}
    (failed : b.nextOccurrence now i = (.error f, c)) : b.Fails f c := by
  unfold nextOccurrence at failed
  split at failed
  · cases failed
  · split at failed
    · cases failed
      exact .refused _
    · next resolved =>
        dsimp only at failed
        split at failed
        · next silent =>
            cases failed
            cases Plan.eq_fault_of_next silent
            exact .breaks resolved
        · split at failed <;> cases failed

theorem fails_complete {id : Nat} {f : Failure} (failed : b.complete now id = (.error f, c)) :
    b.Fails f c := by
  unfold complete at failed
  split at failed
  · cases failed
    exact .refused _
  · split at failed
    · cases failed
      exact .refused _
    · dsimp only at failed
      split at failed
      · next result =>
          cases failed
          exact fails_nextOccurrence result
      · cases failed

/-- An item that is handed in is refused or not, and nothing else. -/
theorem fails_of_refused {r : Except Error (Draft α)} {reply : Draft α → Reply} {f : Failure}
    (failed : (r.mapError Failure.error).map reply = .error f) :
    draftedWrites r = [] ∧ b.Fails f b := by
  cases r with
  | ok d => cases failed
  | error e =>
      cases failed
      exact ⟨rfl, .refused e⟩

/-- **A call that fails has drafted nothing.** -/
theorem fails_draft {f : Failure} (failed : b.answer now op = .error f) :
    (op.draft now b).1 = [] ∧ b.Fails f (op.draft now b).2 := by
  cases op with
  | add i =>
      cases result : b.add now i with
      | mk r c =>
          cases r with
          | ok d => simp [answer, result, Except.map] at failed
          | error g =>
              simp only [answer, result, Except.map, Except.error.injEq] at failed
              subst failed
              simp only [Operation.draft, result]
              exact ⟨rfl, fails_add result⟩
  | complete id =>
      cases result : b.complete now id with
      | mk r c =>
          cases r with
          | ok d => simp [answer, result, Except.map] at failed
          | error g =>
              simp only [answer, result, Except.map, Except.error.injEq] at failed
              subst failed
              simp only [Operation.draft, result]
              exact ⟨rfl, fails_complete result⟩
  | update i | defer i => exact fails_of_refused failed
  | expire | purge _ => cases failed

/-! ### Backlogs that cannot be told apart -/

/-- The backlogs differ in nothing but the plans that they keep, and both keep them rightly. -/
structure Matches (b c : Backlog) : Prop where
  items : b.items = c.items
  nextId : b.nextId = c.nextId
  maxDeferCount : b.maxDeferCount = c.maxDeferCount
  left : b.plans.Faithful
  right : c.plans.Faithful

@[simp] theorem maxDeferCount_settle (b : Backlog) (w : Write) :
    (b.settle w).maxDeferCount = b.maxDeferCount := by
  refine settle_induction (motive := fun c => c.maxDeferCount = b.maxDeferCount) b w rfl
    fun c result => ?_
  cases w with
  | insert i | purge ids =>
      cases result
      rfl
  | replace i successor =>
      obtain ⟨-, -, -, rfl⟩ := carryOut_replace_inv result
      cases successor <;> rfl
  | expire id now =>
      cases result
      unfold expireItem
      split
      · split <;> rfl
      · rfl

/-- What a write does to the items depends on nothing else. -/
theorem items_settle_congr (same : b.items = c.items) (w : Write) :
    (b.settle w).items = (c.settle w).items := by
  have found : b.get? = c.get? := by
    funext id
    rw [get?, get?, same]
  have put (i : WorkItem) : (b.put i).items = (c.put i).items := congrArg (insertItem i) same
  cases w with
  | insert i => exact put i
  | purge ids => simp only [settle, carryOut, purgeItems, same]
  | expire id now =>
      simp only [settle, carryOut, expireItem, found]
      cases c.get? id with
      | none => exact same
      | some i =>
          dsimp only
          split
          · exact put _
          · exact same
  | replace i successor =>
      by_cases waits : c.HasNew i.id
      · have waits' : b.HasNew i.id := by rwa [HasNew, found]
        rw [settle, carryOut_replace_of_new waits', settle, carryOut_replace_of_new waits]
        cases successor with
        | none => exact put i
        | some next => exact congrArg (insertItem next) (put i)
      · have gone : ¬b.HasNew i.id := by rwa [HasNew, found]
        rw [settle_of_not_hasNew gone, settle_of_not_hasNew waits, same]

theorem Matches.settle (h : b.Matches c) (w : Write) : (b.settle w).Matches (c.settle w) where
  items := items_settle_congr h.items w
  nextId := by rw [nextId_settle, nextId_settle, h.nextId]
  maxDeferCount := by rw [maxDeferCount_settle, maxDeferCount_settle, h.maxDeferCount]
  left := by rw [plans_settle]; exact h.left
  right := by rw [plans_settle]; exact h.right

theorem Matches.commit (h : b.Matches c) (ws : List Write) : (b.commit ws).Matches (c.commit ws) := by
  induction ws generalizing b c with
  | nil => exact h
  | cons w ws ih => exact ih (h.settle w)

/-- When a new item is due does not depend on the plans that are kept. -/
theorem firstDue_congr (left : b.plans.Faithful) (right : c.plans.Faithful) (now : Int)
    (i : WorkItem) : (b.firstDue now i).1 = (c.firstDue now i).1 := by
  unfold firstDue
  cases i.scheduleTime with
  | some t => rfl
  | none =>
      cases i.effectiveRecurrence? with
      | none => rfl
      | some r =>
          have mine := left.resolve r
          have yours := right.resolve r
          cases built : r.build with
          | error e =>
              rw [built] at mine yours
              simp only [mine, yours]
          | ok plan =>
              rw [built] at mine yours
              obtain ⟨p, plans, mine, rfl, -⟩ := mine
              obtain ⟨q, plans', yours, same, -⟩ := yours
              simp only [mine, yours, same]

theorem Matches.get? (h : b.Matches c) (id : Nat) : b.get? id = c.get? id := by
  rw [Backlog.get?, Backlog.get?, h.items]

theorem Matches.add (h : b.Matches c) (now : Int) (i : WorkItem) :
    (b.add now i).1 = (c.add now i).1 := by
  have due := firstDue_congr h.left h.right now i
  unfold Backlog.add
  cases mine : b.firstDue now i with
  | mk t plans =>
      cases yours : c.firstDue now i with
      | mk t' plans' =>
          rw [mine, yours] at due
          cases due
          cases t <;> simp only [admitted, h.nextId, h.maxDeferCount]

theorem Matches.update (h : b.Matches c) (now : Int) (i : WorkItem) :
    b.update now i = c.update now i := by
  simp only [Backlog.update, stored, h.get?]

theorem Matches.complete (h : b.Matches c) (now : Int) (id : Nat) :
    (b.complete now id).1 = (c.complete now id).1 := by
  have same := h.get? id
  cases found : c.get? id with
  | none =>
      rw [found] at same
      simp only [Backlog.complete, stored, found, same]
  | some i =>
      rw [found] at same
      cases ended : i.state.isTerminal with
      | true => rw [complete_of_terminal found ended, complete_of_terminal same ended]
      | false =>
          have new := WorkState.isTerminal_eq_false_iff.mp ended
          rw [complete_of_new h.left same new, complete_of_new h.right found new, h.nextId]

/-- **Both backlogs give the same answer to whatever is called.** -/
theorem Matches.answer (h : b.Matches c) (now : Int) (op : Operation) :
    b.answer now op = c.answer now op ∧ (op.draft now b).1 = (op.draft now c).1 := by
  cases op with
  | add i => simp only [Backlog.answer, Operation.draft, h.add, and_self]
  | update i | defer i =>
      simp only [Backlog.answer, Operation.draft, Backlog.defer, h.update, and_self]
  | complete id => simp only [Backlog.answer, Operation.draft, h.complete, and_self]
  | expire => simp only [Backlog.answer, Operation.draft, Backlog.expire, h.items, and_self]
  | purge t => simp only [Backlog.answer, Operation.draft, Backlog.purge, h.items, and_self]

theorem maxDeferCount_draft (b : Backlog) (now : Int) (op : Operation) :
    (op.draft now b).2.maxDeferCount = b.maxDeferCount := by
  have occurrence (i : WorkItem) : (b.nextOccurrence now i).2.maxDeferCount = b.maxDeferCount := by
    unfold nextOccurrence
    split
    · rfl
    · split
      · rfl
      · dsimp only
        split
        · rfl
        · split <;> rfl
  cases op with
  | add i =>
      show (b.add now i).2.maxDeferCount = _
      unfold Backlog.add
      split <;> rfl
  | complete id =>
      show (b.complete now id).2.maxDeferCount = _
      unfold Backlog.complete
      split
      · rfl
      · next i _ =>
        split
        · rfl
        · have same := occurrence (completed now i)
          dsimp only
          split
          · next result => rwa [result] at same
          · next result => rwa [result] at same
  | update _ | defer _ | expire | purge _ => rfl

theorem Matches.draft (h : b.Matches c) (now : Int) (op : Operation) :
    (op.draft now b).2.Matches (op.draft now c).2 where
  items := by rw [(drafted op now b).items, (drafted op now c).items, h.items]
  nextId := by
    -- An identity is used up exactly if the writes store an item under it.
    have mine := (drafted op now b).fresh
    have yours := (drafted op now c).fresh
    rw [(h.answer now op).2] at mine
    have next := h.nextId
    rcases mine with ⟨none, mine⟩ | ⟨one, mine⟩ <;> rcases yours with ⟨none', yours⟩ | ⟨one', yours⟩
    · omega
    · simp [none] at one'
    · simp [one] at none'
    · omega
  maxDeferCount := by rw [maxDeferCount_draft, maxDeferCount_draft, h.maxDeferCount]
  left := faithful_draft h.left now op
  right := faithful_draft h.right now op

/-- And they match again afterwards. -/
theorem Matches.call (h : b.Matches c) (scope : Option (Scope Write β)) (now : Int)
    (op : Operation) :
    (b.call scope now op).result = (c.call scope now op).result ∧
      (b.call scope now op).scope = (c.call scope now op).scope ∧
      (b.call scope now op).backlog.Matches (c.call scope now op).backlog := by
  obtain ⟨answer, writes⟩ := h.answer now op
  rw [call_eq, call_eq]
  refine ⟨answer, by rw [writes], ?_⟩
  cases scope with
  | some s => exact h.draft now op
  | none =>
      show (op.perform now b).Matches (op.perform now c)
      rw [perform_eq_commit, perform_eq_commit, writes]
      exact (h.draft now op).commit _

/-- Call one operation after the other, inside of the transaction around them if there is one: what
the callers are told, and what is left. -/
def calls (b : Backlog) (scope : Option (Scope Write β)) :
    List (Operation × Int) → List (Except Failure Reply) × Backlog × Option (Scope Write β)
  | [] => ([], b, scope)
  | (op, now) :: rest =>
      let first := b.call scope now op
      let (results, b, scope) := first.backlog.calls first.scope rest
      (first.result :: results, b, scope)

/-- **Backlogs that differ in the plans that they keep cannot be told apart** by calling
operations. -/
theorem Matches.calls (h : b.Matches c) (scope : Option (Scope Write β))
    (later : List (Operation × Int)) :
    (b.calls scope later).1 = (c.calls scope later).1 ∧
      (b.calls scope later).2.1.Matches (c.calls scope later).2.1 ∧
      (b.calls scope later).2.2 = (c.calls scope later).2.2 := by
  induction later generalizing b c scope with
  | nil => exact ⟨rfl, h, rfl⟩
  | cons first rest ih =>
      obtain ⟨op, now⟩ := first
      obtain ⟨result, around, after⟩ := h.call scope now op
      obtain ⟨results, left, scopes⟩ := ih after (b.call scope now op).scope
      simp only [Backlog.calls, result]
      rw [← around]
      exact ⟨by rw [results], left, scopes⟩

/-! ### Calls that fail -/

theorem Fails.matches {f : Failure} (h : b.Fails f c) (faithful : b.plans.Faithful) :
    c.Matches b := by
  cases h with
  | refused e => exact ⟨rfl, rfl, rfl, faithful, faithful⟩
  | @breaks r p plans resolved =>
      have kept := faithful.resolve r
      cases built : r.build with
      | error e =>
          rw [built, resolved] at kept
          cases kept
      | ok plan =>
          rw [built, resolved] at kept
          obtain ⟨_, _, same, -, kept⟩ := kept
          cases same
          exact ⟨rfl, rfl, rfl, kept, faithful⟩

theorem Fails.unchanged {f : Failure} (h : b.Fails f c) :
    c.items = b.items ∧ c.nextId = b.nextId ∧ ∀ e, f = .error e → c.plans = b.plans := by
  cases h with
  | refused _ => exact ⟨rfl, rfl, fun _ _ => rfl⟩
  | breaks _ => exact ⟨rfl, rfl, fun _ same => by cases same⟩

/-- A recurrence that cannot be built is not kept. -/
theorem Fails.find?_plans {f : Failure} (h : b.Fails f c) {r : Recurrence} {e : Error}
    (broken : r.build = .error e) : c.plans.find? r = b.plans.find? r := by
  cases h with
  | refused _ => rfl
  | @breaks s p plans resolved =>
      unfold PlanCache.resolve at resolved
      split at resolved
      · cases resolved
        rfl
      · cases built : s.build with
        | error e =>
            rw [built] at resolved
            cases resolved
        | ok plan =>
            rw [built] at resolved
            cases resolved
            have other : s ≠ r := by
              rintro rfl
              rw [built] at broken
              cases broken
            rw [PlanCache.find?_append_singleton, if_neg other, Option.or_none]
            rfl

/-- **A call that fails leaves no trace.** The items are what they were, and so are the identity of
the next item and the writes that are staged in the transaction around the call. A call that is
refused leaves the plans as they were, too, and one that breaks off keeps no plan of a recurrence
that has none. Whatever is called afterwards, inside of this transaction or another or outside of
any, the callers are told what they would have been told anyway, the identities of new items
included. -/
theorem call_of_failure {scope : Option (Scope Write β)} {f : Failure}
    (failed : (b.call scope now op).result = .error f) :
    let after := b.call scope now op
    after.scope = scope ∧ after.backlog.items = b.items ∧ after.backlog.nextId = b.nextId ∧
      (∀ e, f = .error e → after.backlog.plans = b.plans) ∧
      (∀ r e, r.build = .error e → after.backlog.plans.find? r = b.plans.find? r) ∧
      (b.plans.Faithful → ∀ (around : Option (Scope Write β)) (later : List (Operation × Int)),
        (after.backlog.calls around later).1 = (b.calls around later).1 ∧
          (after.backlog.calls around later).2.2 = (b.calls around later).2.2 ∧
          (after.backlog.calls around later).2.1.items = (b.calls around later).2.1.items) := by
  intro after
  have result : b.answer now op = .error f := by rwa [call_eq] at failed
  obtain ⟨nothing, fails⟩ := fails_draft result
  have scope_same : after.scope = scope := by
    simp only [after, call_eq, nothing, Scope.stage_nil, Option.map_id']
  have backlog : after.backlog = (op.draft now b).2 := by
    simp only [after, call_eq, perform_eq_commit, nothing, commit_nil]
    cases scope <;> rfl
  rw [backlog]
  obtain ⟨items, nextId, plans⟩ := fails.unchanged
  refine ⟨scope_same, items, nextId, plans, fun r e broken => fails.find?_plans broken, ?_⟩
  intro faithful around later
  obtain ⟨results, left, scopes⟩ := (fails.matches faithful).calls around later
  exact ⟨results, scopes, left.items⟩

/-- Inside of a transaction a job is added with a cron expression that cannot be read, and then a
message. The message gets the first identity. -/
theorem call_of_failure_of_unreadable :
    let job := Operation.add (.ofKind (.job "digest" (.cron "never" none)))
    let message := Operation.add (.ofKind (.notification "email" .null))
    let scope : Option (Scope Write Unit) := some .empty
    let failed := (empty 5).call scope 0 job
    (∃ reason, failed.result = .error (.error (.invalidSchedule reason))) ∧
      failed.scope = some .empty ∧
      (failed.backlog.calls failed.scope [(message, 0)]).1 =
        [.ok (.item ((empty 5).admitted 0 0 (.ofKind (.notification "email" .null))))] := by
  intro job message scope failed
  have result : failed.result = .error _ := rfl
  obtain ⟨same, -, -, -, -, later⟩ := call_of_failure result
  obtain ⟨told, -, -⟩ := later PlanCache.faithful_empty scope [(message, 0)]
  refine ⟨⟨_, result⟩, same, ?_⟩
  rw [same]
  exact told.trans rfl

end Backlog

end RecurringWork
