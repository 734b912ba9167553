import RecurringWork.Proofs.Backlog.Bookkeeping

/-!
# RecurringWork.Proofs.Backlog.Deadlines

**An item is ended for the deadline that it had when it was looked at.** Whoever ends the items
whose deadline has come looks for them and drafts their end, a write for each. Such a write looks
again whether the item waits when it lands, but not for which deadline.

* With nothing in between it ends exactly the items whose deadline has come
  (`Backlog.get?_perform_expire`).
* An item that still waits when its end lands is the one that was looked at, or else an update
  that has landed since has stored it (`Ledger.Steps.eq_or_updated`). The update does not save it,
  whatever deadline it has given it: `Ledger.Reachable.expiry`, `Ledger.ended_although_extended`.
-/

namespace RecurringWork

/-- The item once it is ended because its deadline had come at `now`. -/
def WorkItem.lapsed (i : WorkItem) (now : Int) : WorkItem :=
  { i with state := .deadlineReached, stateChangedAt := now }

/-- The item as a write leaves it that ends waiting items. -/
def WorkItem.lapsedIfNew (now : Int) (i : WorkItem) : WorkItem :=
  if i.state = .new then i.lapsed now else i

namespace WorkItem

theorem lapsedIfNew_of_new {i : WorkItem} (new : i.state = .new) (now : Int) :
    lapsedIfNew now i = i.lapsed now := if_pos new

/-- An item is ended once. -/
@[simp] theorem lapsedIfNew_lapsedIfNew (now : Int) (i : WorkItem) :
    lapsedIfNew now (lapsedIfNew now i) = lapsedIfNew now i := by
  unfold lapsedIfNew
  by_cases new : i.state = .new
  · simp [new, lapsed]
  · simp [new]

end WorkItem

namespace Backlog

variable {b : Backlog}

/-! ### What ends at once -/

theorem get?_expireItem (b : Backlog) (id : Nat) (now : Int) (other : Nat) :
    (b.expireItem id now).get? other =
      if id = other then (b.get? other).map (WorkItem.lapsedIfNew now) else b.get? other := by
  by_cases same : id = other
  · subst same
    rw [if_pos rfl]
    unfold expireItem
    cases found : b.get? id with
    | none => simp [found]
    | some i =>
        by_cases new : i.state = .new
        · have stored : i.id = id := id_of_get? found
          simp [new, get?_put, stored, WorkItem.lapsedIfNew, WorkItem.lapsed]
        · simp [new, found, WorkItem.lapsedIfNew]
  · rw [if_neg same, get?_expireItem_of_ne same]

/-- Some items are ended if they still wait, and nothing else happens. -/
theorem get?_commit_expiries (b : Backlog) (ids : List Nat) (now : Int) (id : Nat) :
    (b.commit (ids.map fun n => .expire n now)).get? id =
      if id ∈ ids then (b.get? id).map (WorkItem.lapsedIfNew now) else b.get? id := by
  induction ids generalizing b with
  | nil => simp
  | cons n ids ih =>
      have first : b.commit ((n :: ids).map fun n => .expire n now) =
          (b.expireItem n now).commit (ids.map fun n => .expire n now) := rfl
      rw [first, ih, get?_expireItem]
      by_cases here : n = id
      · subst here
        simp [Function.comp_def]
      · have other : id ≠ n := fun same => here same.symm
        simp [here, other]

/-- **With nothing in between, exactly those items are ended whose deadline has come.** -/
theorem get?_perform_expire (ordered : b.Ordered) (now : Int) (id : Nat) :
    (Operation.expire.perform now b).get? id =
      (b.get? id).map fun i => if i.isPastDeadline now then i.lapsed now else i := by
  have drafted : (Operation.expire.draft now b).1 =
      ((b.items.filter fun i => i.isPastDeadline now).map WorkItem.id).map
        fun n => .expire n now := by
    rw [List.map_map]
    rfl
  rw [perform_eq_commit, drafted, get?_commit_expiries]
  show (if _ then (b.get? id).map _ else b.get? id) = _
  cases found : b.get? id with
  | none => simp
  | some i =>
      have late : id ∈ (b.items.filter fun i => i.isPastDeadline now).map WorkItem.id ↔
          i.isPastDeadline now := by
        obtain ⟨stored, same⟩ := ordered.get?_eq_some_iff.mp found
        rw [List.mem_map]
        refine ⟨fun ⟨j, mem, other⟩ => ?_,
          fun past => ⟨i, List.mem_filter.mpr ⟨stored, past⟩, same⟩⟩
        obtain ⟨there, past⟩ := List.mem_filter.mp mem
        have : j = i := ordered.distinct.eq there stored (other.trans same.symm)
        exact this ▸ past
      by_cases past : i.isPastDeadline now
      · have new : i.state = .new := by
          simp only [WorkItem.isPastDeadline, Bool.and_eq_true, beq_iff_eq] at past
          exact past.1
        rw [if_pos (late.mpr past), Option.map_some, Option.map_some, if_pos past,
          WorkItem.lapsedIfNew_of_new new]
      · rw [if_neg (fun mem => past (late.mp mem)), Option.map_some, if_neg past]

/-- The end of an item is drafted only by looking for the items whose deadline has come, and only
if it is among them. -/
theorem expire_of_mem_draft {op : Operation} {now t : Int} {id : Nat}
    (mem : Write.expire id t ∈ (op.draft now b).1) :
    op = .expire ∧ t = now ∧ ∃ i ∈ b.items, i.id = id ∧ i.isPastDeadline now := by
  cases op with
  | expire =>
      obtain ⟨i, late, same⟩ := List.mem_map.mp mem
      cases same
      obtain ⟨stored, past⟩ := List.mem_filter.mp late
      exact ⟨rfl, rfl, i, stored, rfl, past⟩
  | purge olderThan => cases List.mem_singleton.mp mem
  | add i =>
      unfold Operation.draft add at mem
      dsimp only at mem
      split at mem
      · cases mem
      · cases List.mem_singleton.mp mem
  | update i | defer i =>
      obtain ⟨j, same, -⟩ := replace_of_mem_update mem
      cases same
  | complete id =>
      obtain ⟨j, next, same, -⟩ := replace_of_mem_complete mem
      cases same

end Backlog

namespace Ledger

variable {β : Type} {l m : Ledger β} {id : Nat} {i : WorkItem}

/-! ### What happens between the look and the end -/

/-- Between two ledgers an update of an item has landed, and has stored it as one that waits. -/
def Updated (id : Nat) (i : WorkItem) (l m : Ledger β) : Prop :=
  ∃ before after : Ledger β, Steps l before ∧ Lands (.replace i none) before after ∧
    after.backlog.get? id = some i ∧ i.state = .new ∧ Steps after m

theorem Updated.step {n : Ledger β} (h : Updated id i l m) (st : Step m n) : Updated id i l n := by
  obtain ⟨before, after, first, landing, stored, new, rest⟩ := h
  exact ⟨before, after, first, landing, stored, new, rest.tail st⟩

theorem Reachable.authored (h : l.Reachable) : l.Authored := by
  obtain ⟨births, reachable⟩ := Lineage.exists_reachable h
  exact reachable.sound.authored

/-- What is stored as waiting after a step was stored before it, or the step is the landing of an
update. -/
theorem Step.eq_or_replaces (st : Step l m) (start : l.Reachable) (spent : l.Spent id)
    (after : m.backlog.get? id = some i) (new : i.state = .new) :
    l.backlog.get? id = some i ∨ Lands (.replace i none) l m := by
  rcases st.cases with ⟨op, now, call⟩ | ⟨w, landing⟩ | ⟨unchanged, -⟩
  · rw [call.backlog, (Backlog.drafted op now l.backlog).get?] at after
    exact .inl after
  · obtain ⟨waits, outcome⟩ := landing.outcome start.sound id
    have old : id ∉ w.fresh := fun fresh => spent.not_reserved (mem_reserved_of_fresh waits fresh)
    generalize m.backlog.get? id = found at outcome after
    cases outcome with
    | keeps => exact .inl after
    | deletes => cases after
    | stores stored => exact absurd (by simp [Write.fresh, stored]) old
    | @replaces j successor _ _ =>
        cases after
        cases successor with
        | none => exact .inr landing
        | some next =>
            -- A replacement that comes with a successor completes the item.
            obtain ⟨-, done, -⟩ := start.authored.completes waits
            rw [done] at new
            cases new
    | succeeds stored => exact absurd (by simp [Write.fresh, stored]) old
    | expires _ _ =>
        cases after
        cases new
  · rw [unchanged] at after
    exact .inl after

/-- **An item that waits is what it was before, or an update has stored it since.** -/
theorem Steps.eq_or_updated (run : Steps l m) (start : l.Reachable) {seen : WorkItem}
    (before : l.backlog.get? id = some seen) (after : m.backlog.get? id = some i)
    (new : i.state = .new) : i = seen ∨ Updated id i l m := by
  have spent := start.sound.spent before
  induction run with
  | refl =>
      rw [before] at after
      cases after
      exact .inl rfl
  | @tail mid m sofar st ih =>
      obtain ⟨spent', -⟩ := Steps.continues sofar start.sound spent
      rcases st.eq_or_replaces (start.steps sofar) spent' after new with same | landing
      · exact (ih same).imp_right fun updated => updated.step st
      · exact .inr ⟨mid, m, sofar, landing, after, new, .refl⟩

/-- An end that waits to be carried out was drafted by a look that found the item past its deadline,
and the item was left as it was by that. -/
theorem Reachable.exists_look (start : l.Reachable) {now : Int}
    (waits : Write.expire id now ∈ l.writes) :
    ∃ (before called : Ledger β) (seen : WorkItem), before.Reachable ∧
      Calls .expire now before called ∧ Steps called l ∧ before.backlog.get? id = some seen ∧
      called.backlog.get? id = some seen ∧ seen.isPastDeadline now := by
  obtain ⟨t, before, called, op, reached, call, drafted, run⟩ := start.chronicled.drafted _ waits
  obtain ⟨rfl, rfl, seen, stored, same, past⟩ := Backlog.expire_of_mem_draft drafted
  have sighted : before.backlog.get? id = some seen :=
    reached.sound.ordered.get?_eq_some_iff.mpr ⟨stored, same⟩
  have kept : called.backlog.get? id = some seen := by
    rw [call.backlog, (Backlog.drafted .expire now before.backlog).get?, sighted]
  exact ⟨before, called, seen, reached, call, run, sighted, kept, past⟩

/-- **An item is ended for the deadline that it had when it was looked at**, whatever has happened
since. If it still waits then its end lands all the same: its deadline may be another one by then,
but only because an update has landed since that has stored the item as it is. -/
theorem Reachable.expiry (start : l.Reachable) :
    (∀ now id, (Operation.expire.perform now l.backlog).get? id =
      (l.backlog.get? id).map fun i => if i.isPastDeadline now then i.lapsed now else i) ∧
    ∀ m id now, Lands (.expire id now) l m →
      (∀ other, other ≠ id → m.backlog.get? other = l.backlog.get? other) ∧
      ∀ i, l.backlog.get? id = some i → i.state.isTerminal ∧ m.backlog.get? id = some i ∨
        i.state = .new ∧ m.backlog.get? id = some (i.lapsed now) ∧
        ∃ (before called : Ledger β) (seen : WorkItem), before.Reachable ∧
          Calls .expire now before called ∧ Steps called l ∧
          before.backlog.get? id = some seen ∧ seen.isPastDeadline now ∧
          (i = seen ∨ Updated id i called l) := by
  refine ⟨fun now id => Backlog.get?_perform_expire start.sound.ordered now id,
    fun m id now landing => ?_⟩
  obtain ⟨waits, -⟩ := landing.outcome start.sound id
  have ends : m.backlog = l.backlog.expireItem id now := by
    cases landing
    rfl
  refine ⟨fun other apart => ?_, fun i found => ?_⟩
  · rw [ends, Backlog.get?_expireItem_of_ne (Ne.symm apart)]
  · have left : m.backlog.get? id = some (i.lapsedIfNew now) := by
      rw [ends, Backlog.get?_expireItem, if_pos rfl, found, Option.map_some]
    cases live : i.state.isTerminal with
    | true =>
        have other : i.state ≠ .new := fun new => by simp [new] at live
        rw [left, WorkItem.lapsedIfNew, if_neg other]
        exact .inl ⟨rfl, rfl⟩
    | false =>
        have new := WorkState.isTerminal_eq_false_iff.mp live
        obtain ⟨before, called, seen, reached, call, run, sighted, kept, past⟩ :=
          start.exists_look waits
        have since := run.eq_or_updated (reached.steps (.single call.step)) kept found new
        rw [left, WorkItem.lapsedIfNew_of_new new]
        exact .inr ⟨new, rfl, before, called, seen, reached, call, run, sighted, past, since⟩

/-- The deadline of a message comes at 2000, and the message is ended. -/
theorem expiry_of_lateMessage :
    let message : WorkItem := { WorkItem.ofKind (.notification "email" .null) with
      deadline := some 2000 }
    let b := (Operation.add message).perform 1000 (.empty 5)
    let l : Ledger Unit := ⟨b, [], [⟨false, [.expire 1 2000], []⟩]⟩
    l.Reachable ∧ ∃ i, b.get? 1 = some i ∧ i.deadline = some 2000 ∧
      (b.settle (.expire 1 2000)).get? 1 = some (i.lapsed 2000) := by
  intro message b l
  have added : Steps (empty 5 : Ledger Unit) ⟨b, [], []⟩ := steps_perform _ _ _ (.add message) 1000
  have calls : Step (⟨b, [], []⟩ : Ledger Unit) l :=
    .directly (@Directly.intro Unit .expire 2000 b [] [])
  have start : l.Reachable := ⟨5, added.tail calls⟩
  have lands : Lands (.expire 1 2000) l ⟨b.settle (.expire 1 2000), [], [⟨false, [], []⟩]⟩ :=
    @Lands.intro Unit (.expire 1 2000) b [] [] [] false [] []
  have found : b.get? 1 = some _ := rfl
  obtain ⟨-, ends⟩ := start.expiry.2 _ 1 2000 lands
  rcases ends _ found with ⟨ended, -⟩ | ⟨-, after, -⟩
  · cases ended
  · exact ⟨start, _, found, rfl, after⟩

/-- The deadline of a message has come when one transaction puts it off until 5000 and ends the
items whose deadline has come. The update is carried out first, and then the message is ended. -/
theorem ended_although_extended :
    ∃ (l m : Ledger Unit) (i : WorkItem), l.Reachable ∧ Lands (.expire 1 1000) l m ∧
      l.backlog.get? 1 = some i ∧ i.state = .new ∧ i.deadline = some 5000 ∧
      i.isPastDeadline 1000 = false ∧ m.backlog.get? 1 = some (i.lapsed 1000) := by
  let message : WorkItem := { WorkItem.ofKind (.notification "email" .null) with
    scheduleTime := some 9000
    deadline := some 1000 }
  let b := (Operation.add message).perform 1000 (.empty 5)
  let extended : WorkItem := { (Backlog.empty 5).admitted 1000 9000 message with
    deadline := some 5000 }
  let update : Write := .replace extended none
  let once : Scope Write Unit := Scope.empty.stage [update]
  let twice : Scope Write Unit := once.stage [.expire 1 1000]
  have added : Steps (empty 5) (⟨b, [], []⟩ : Ledger Unit) :=
    steps_perform _ _ _ (.add message) 1000
  have opens : Step (⟨b, [], []⟩ : Ledger Unit) ⟨b, [.empty], []⟩ := .turns .opens
  have extends_ : Step (⟨b, [.empty], []⟩ : Ledger Unit) ⟨b, [once], []⟩ :=
    .inside (@Inside.intro Unit (.calls (.update extended) 1000) b [] [] [] .empty)
  have ends : Step (⟨b, [once], []⟩ : Ledger Unit) ⟨b, [twice], []⟩ :=
    .inside (@Inside.intro Unit (.calls .expire 1000) b [] [] [] once)
  have commits : Step (⟨b, [twice], []⟩ : Ledger Unit) ⟨b, [], [twice]⟩ :=
    .turns (@Turns.commits Unit b [] [] [] twice twice rfl)
  have updates : Step (⟨b, [], [twice]⟩ : Ledger Unit)
      ⟨b.settle update, [], [⟨false, [.expire 1 1000], []⟩]⟩ :=
    .lands (@Lands.intro Unit update b [] [] [] false [.expire 1 1000] [])
  have start : (⟨b.settle update, [], [⟨false, [.expire 1 1000], []⟩]⟩ : Ledger Unit).Reachable :=
    ⟨5, ((((added.tail opens).tail extends_).tail ends).tail commits).tail updates⟩
  have lands : Lands (.expire 1 1000) _ _ :=
    @Lands.intro Unit (.expire 1 1000) (b.settle update) [] [] [] false [] []
  exact ⟨_, _, extended, start, lands, rfl, rfl, rfl, rfl, rfl⟩

end Ledger

end RecurringWork
