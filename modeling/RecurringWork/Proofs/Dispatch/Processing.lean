import RecurringWork.Proofs.Dispatch.Verdicts

/-!
# RecurringWork.Proofs.Dispatch.Processing

**No item is handed to the processor more often than it may be deferred, but for lost
verdicts.** A `Bench` is a worker that runs over a backlog again and again, with a record of
what the processor was handed and of what it said. Meanwhile others fill the backlog
(`Ledger.Fills`). The clock shows any time at each step.

What bounds the number of times is that a verdict that is recorded uses one of them up: the
item counts its deferrals, and the run takes up waiting items only (`Tallied`). A verdict that
is lost uses up nothing, and the item is handed out again (`Bench.handed_again_when_done`). How
that can happen is known (`Handing.isLost_iff`), and apart from it the bound holds
(`Bench.Reachable.bounded`).
-/

namespace RecurringWork

/-! ### Filling a backlog -/

/-- What may happen to a backlog without any verdict: an item that still waits is what it was,
and one that has come in was never deferred. -/
structure Backlog.Unjudged (b c : Backlog) : Prop where
  kept : ∀ {id : Nat} {i : WorkItem}, b.get? id = some i → ∃ j, c.get? id = some j ∧
    j.maxDeferCount = i.maxDeferCount ∧ (j.state = .new → j = i)
  added : ∀ {id : Nat} {j : WorkItem}, b.get? id = none → c.get? id = some j → j.state = .new →
    j.deferCount = 0

/-- Nothing that is stored is touched, and what has come in was never deferred. -/
structure Backlog.Grows (b c : Backlog) : Prop where
  kept : ∀ {id : Nat} {i : WorkItem}, b.get? id = some i → c.get? id = some i
  added : ∀ {id : Nat} {j : WorkItem}, b.get? id = none → c.get? id = some j → j.deferCount = 0

namespace Backlog

variable {b c d : Backlog}

theorem Grows.of_items (same : c.items = b.items) : b.Grows c where
  kept := by
    intro id i found
    rw [get?, same]
    exact found
  added := by
    intro id j absent found
    rw [get?, same] at found
    cases absent.symm.trans found

theorem Grows.trans (first : b.Grows c) (second : c.Grows d) : b.Grows d where
  kept := fun found => second.kept (first.kept found)
  added := by
    intro id k absent found
    cases between : c.get? id with
    | none => exact second.added between found
    | some j =>
        cases found.symm.trans (second.kept between)
        exact first.added absent between

theorem Grows.unjudged (h : b.Grows c) : b.Unjudged c where
  kept := fun {_ i} found => ⟨i, h.kept found, rfl, fun _ => rfl⟩
  added := fun absent found _ => h.added absent found

theorem Unjudged.trans (first : b.Unjudged c) (second : c.Unjudged d) : b.Unjudged d where
  kept := by
    intro id i found
    obtain ⟨j, found', limit, waits⟩ := first.kept found
    obtain ⟨k, found'', limit', waits'⟩ := second.kept found'
    refine ⟨k, found'', limit'.trans limit, fun new => ?_⟩
    have same := waits' new
    exact same.trans (waits (same ▸ new))
  added := by
    intro id k absent found new
    cases found' : c.get? id with
    | none => exact second.added found' found new
    | some j =>
        obtain ⟨k', found'', -, waits⟩ := second.kept found'
        cases found.symm.trans found''
        have same := waits new
        exact same ▸ first.added absent found' (same ▸ new)

theorem unjudged_expireItem (b : Backlog) (id : Nat) (now : Int) :
    b.Unjudged (b.expireItem id now) := by
  unfold expireItem
  split
  · next i found =>
      split
      · have same : i.id = id := id_of_get? found
        refine ⟨fun {other j} here => ?_, fun {other j} absent here new => ?_⟩
        · rw [get?_put]
          split
          · next other_eq =>
              rw [← other_eq, same, found] at here
              cases here
              exact ⟨_, rfl, rfl, fun new => by cases new⟩
          · exact ⟨j, here, rfl, fun _ => rfl⟩
        · rw [get?_put] at here
          split at here
          · cases here
            cases new
          · rw [absent] at here
            cases here
      · exact (Grows.of_items rfl).unjudged
  · exact (Grows.of_items rfl).unjudged

/-- When deadlines come, items are ended and nothing else happens. -/
theorem unjudged_expire (b : Backlog) (now : Int) : b.Unjudged (Operation.expire.perform now b) := by
  rw [perform_eq_commit]
  have all : ∀ (late : List WorkItem) (b : Backlog),
      b.Unjudged (b.commit (late.map fun i => .expire i.id now)) := by
    intro late
    induction late with
    | nil => exact fun b => (Grows.of_items rfl).unjudged
    | cons i rest ih => exact fun b => (unjudged_expireItem b i.id now).trans (ih _)
  exact all _ b

/-- An item is stored that was never deferred. -/
theorem grows_put {i : WorkItem} (absent : b.get? i.id = none) (zero : i.deferCount = 0) :
    b.Grows (b.put i) where
  kept := by
    intro id j found
    have other : i.id ≠ id := by
      rintro rfl
      rw [absent] at found
      cases found
    rw [get?_put, if_neg other, found]
  added := by
    intro id j absent found
    rw [get?_put, absent] at found
    split at found
    · cases found
      exact zero
    · cases found

/-- What comes with an item that is judged has an identity of its own. -/
theorem Sound.grows_next {reserved : List Nat} (sound : b.Sound reserved) {i j : WorkItem}
    {v : Verdict} {next : Option WorkItem} (stored : b.get? i.id = some i) (judged : i.Judged j v)
    (fresh : ∀ n ∈ next, n.id = b.nextId ∧ n.deferCount = 0)
    (items : c.items = (next.elim (b.put j) (b.put j).put).items) : (b.put j).Grows c := by
  cases next with
  | none => exact .of_items items
  | some n =>
      obtain ⟨number, zero⟩ := fresh n rfl
      have apart : j.id ≠ n.id := by
        rw [judged.id, number]
        exact Nat.ne_of_lt (sound.stored_lt stored)
      have absent : (b.put j).get? n.id = none := by
        rw [get?_put, if_neg apart, number]
        exact sound.get?_of_nextId_le (Nat.le_refl _)
      exact (grows_put absent zero).trans (.of_items items)

end Backlog

namespace Ledger

variable {l m : Ledger Notice}

/-- One thing that those do who fill a backlog. All that they draft are new items that were never
deferred. -/
structure Fills (l m : Ledger Notice) : Prop where
  step : Step l m
  adds : ∀ w ∈ m.writes, w ∈ l.writes ∨ ∃ (item : WorkItem) (now : Int), item.deferCount = 0 ∧
    w ∈ ((Operation.add item).draft now l.backlog).1

/-- Nothing but new items waits to be stored. -/
def Filling (l : Ledger Notice) : Prop := ∀ w ∈ l.writes, ∃ i, w = .insert i ∧ i.deferCount = 0

/-- What is drafted for an item that is added is the item, as often deferred as it was. -/
theorem insert_of_mem_draft_add {item : WorkItem} {now : Int} {b : Backlog} {w : Write}
    (mem : w ∈ ((Operation.add item).draft now b).1) :
    ∃ i, w = .insert i ∧ i.deferCount = item.deferCount := by
  unfold Operation.draft Backlog.add at mem
  dsimp only at mem
  split at mem
  · cases mem
  · next due plans _ => exact ⟨b.admitted now due item, List.mem_singleton.mp mem, rfl⟩

/-- An item is added outside of any transaction. -/
theorem fills_perform_add {item : WorkItem} (zero : item.deferCount = 0) (now : Int) (b : Backlog) :
    Relation.ReflTransGen Fills (⟨b, [], []⟩ : Ledger Notice)
      ⟨(Operation.add item).perform now b, [], []⟩ := by
  have calls : Fills (⟨b, [], []⟩ : Ledger Notice) ⟨((Operation.add item).draft now b).2, [],
      [Scope.empty.stage ((Operation.add item).draft now b).1]⟩ :=
    ⟨.directly .intro, fun w mem =>
      .inr ⟨item, now, zero, by simpa [writes, all, Scope.empty] using mem⟩⟩
  have ends (c : Backlog) : Fills (⟨c, [], [⟨false, [], []⟩]⟩ : Ledger Notice) ⟨c, [], []⟩ :=
    ⟨.turns (@Turns.ends Notice c [] [] [] false), fun w mem => by cases mem⟩
  rw [Backlog.perform_eq_commit]
  obtain ⟨none, -⟩ | ⟨i, -, one, -⟩ := draft_add_inv item now b
  · rw [none] at calls ⊢
    exact (Relation.ReflTransGen.single calls).tail (ends _)
  · rw [one] at calls ⊢
    have lands : Fills (⟨((Operation.add item).draft now b).2, [], [⟨false, [.insert i], []⟩]⟩ :
        Ledger Notice) ⟨((Operation.add item).draft now b).2.settle (.insert i), [],
          [⟨false, [], []⟩]⟩ :=
      ⟨.lands (@Lands.intro Notice (.insert i) _ [] [] [] false [] []), fun w mem => by cases mem⟩
    exact ((Relation.ReflTransGen.single calls).tail lands).tail (ends _)

theorem Filling.fills (h : l.Filling) (st : Fills l m) : m.Filling := by
  intro w mem
  rcases st.adds w mem with waiting | ⟨item, now, zero, drafted⟩
  · exact h w waiting
  · obtain ⟨i, rfl, same⟩ := insert_of_mem_draft_add drafted
    exact ⟨i, rfl, same.trans zero⟩

/-- A step leaves the items alone, or it carries out a write that was waiting. -/
theorem Step.items_or_lands (st : Step l m) :
    m.backlog.items = l.backlog.items ∨ ∃ w ∈ l.writes, m.backlog = l.backlog.settle w := by
  rcases st.cases with ⟨op, now, call⟩ | ⟨w, landing⟩ | ⟨same, -⟩
  · exact .inl (call.backlog ▸ (Backlog.drafted op now l.backlog).items)
  · exact .inr ⟨w, landing.mem_writes, landing.backlog⟩
  · exact .inl (same ▸ rfl)

/-- Nothing is stored yet under the identity of an item that waits to be stored. -/
theorem Sound.get?_of_insert (h : l.Sound) {i : WorkItem} (waits : Write.insert i ∈ l.writes) :
    l.backlog.get? i.id = none :=
  Backlog.Sound.reserved_absent h (mem_reserved_of_fresh waits (List.mem_singleton_self i.id))

/-- Where a backlog is filled it grows. -/
theorem Filling.grows (h : l.Filling) (sound : l.Sound) (st : Step l m) :
    l.backlog.Grows m.backlog := by
  rcases st.items_or_lands with same | ⟨w, waits, landed⟩
  · exact .of_items same
  · obtain ⟨i, rfl, zero⟩ := h w waits
    rw [landed]
    exact Backlog.grows_put (sound.get?_of_insert waits) zero

end Ledger

/-! ### Counting verdicts -/

/-- How many verdicts on an item were recorded. -/
def Handing.recorded (pace : Pace) (handed : List Handing) (id : Nat) : Nat :=
  handed.countP fun h => h.item.id == id && !h.isLost pace

/-- So many verdicts on the item have been recorded. While it waits, each of them has deferred
it, and it may be deferred again. -/
structure WorkItem.Bears (i : WorkItem) (n : Nat) : Prop where
  bound : i.effectiveMaxDeferCount ≤ deferCountLimit → n ≤ max 1 i.effectiveMaxDeferCount
  waits : i.state = .new → i.deferCount = min n deferCountLimit ∧
    (n = 0 ∨ i.deferCount < i.effectiveMaxDeferCount)

namespace WorkItem

theorem Bears.of_never_deferred {i : WorkItem} (zero : i.state = .new → i.deferCount = 0) :
    i.Bears 0 :=
  ⟨fun _ => Nat.zero_le _, fun new => ⟨by simp [zero new], .inl rfl⟩⟩

/-- An item that waits can bear another verdict. -/
theorem Bears.more {i : WorkItem} {n : Nat} (h : i.Bears n) (new : i.state = .new)
    (small : i.effectiveMaxDeferCount ≤ deferCountLimit) :
    n + 1 ≤ max 1 i.effectiveMaxDeferCount := by
  obtain ⟨count, none | open_⟩ := h.waits new
  · omega
  · omega

theorem Bears.judged {i j : WorkItem} {n : Nat} {v : Verdict} (h : i.Bears n)
    (new : i.state = .new) (judged : i.Judged j v) : j.Bears (n + 1) where
  bound := by
    rw [effectiveMaxDeferCount, judged.limit]
    exact h.more new
  waits := by
    intro waits
    obtain ⟨-, count, open_⟩ := judged.waits waits
    obtain ⟨before, -⟩ := h.waits new
    exact ⟨by omega, .inr open_⟩

end WorkItem

/-- What was handed out is stored, and bears the verdicts on it. What is done does not wait. -/
structure Tallied (pace : Pace) (b : Backlog) (handed : List Handing) : Prop where
  stored : ∀ h ∈ handed, ∃ i, b.get? h.item.id = some i ∧ i.maxDeferCount = h.item.maxDeferCount
  bears : ∀ id i, b.get? id = some i → i.Bears (Handing.recorded pace handed id)
  closed : ∀ h ∈ handed, h.Closes pace → ¬b.HasNew h.item.id

namespace Tallied

variable {pace : Pace} {b c : Backlog} {handed : List Handing}

theorem empty (maxDeferCount : Nat) : Tallied pace (.empty maxDeferCount) [] where
  stored := fun _ mem => by cases mem
  bears := fun _ _ found => by cases found
  closed := fun _ mem => by cases mem

/-- There is no verdict on an item that is not stored. -/
theorem recorded_of_absent (t : Tallied pace b handed) {id : Nat} (absent : b.get? id = none) :
    Handing.recorded pace handed id = 0 := by
  refine List.countP_eq_zero.mpr fun h mem => ?_
  obtain ⟨i, found, -⟩ := t.stored h mem
  have other : h.item.id ≠ id := by
    rintro rfl
    rw [absent] at found
    cases found
  simp [other]

theorem unjudged (t : Tallied pace b handed) (rests : b.Unjudged c) : Tallied pace c handed where
  stored := by
    intro h mem
    obtain ⟨i, found, limit⟩ := t.stored h mem
    obtain ⟨j, found', limit', -⟩ := rests.kept found
    exact ⟨j, found', limit'.trans limit⟩
  bears := by
    intro id j found
    cases before : b.get? id with
    | none =>
        rw [t.recorded_of_absent before]
        exact .of_never_deferred (rests.added before found)
    | some i =>
        obtain ⟨j', found', limit, same⟩ := rests.kept before
        cases found.symm.trans found'
        have bears := t.bears id i before
        refine ⟨?_, fun new => ?_⟩
        · rw [WorkItem.effectiveMaxDeferCount, limit]
          exact bears.bound
        · cases same new
          exact bears.waits new
  closed := by
    rintro h mem closes ⟨j, found, new⟩
    obtain ⟨i, before, -⟩ := t.stored h mem
    obtain ⟨j', found', -, same⟩ := rests.kept before
    cases found.symm.trans found'
    exact t.closed h mem closes ⟨i, before, same new ▸ new⟩

variable {i : WorkItem} {now : Int} {v : Verdict}

/-- A verdict that is lost counts for nothing. -/
theorem lost (t : Tallied pace b handed) (found : b.get? i.id = some i)
    (lost : (⟨i, now, v⟩ : Handing).isLost pace = true) :
    Tallied pace b (⟨i, now, v⟩ :: handed) where
  stored := by
    intro h mem
    rcases List.mem_cons.mp mem with rfl | mem
    · exact ⟨i, found, rfl⟩
    · exact t.stored h mem
  bears := by
    intro id j here
    have same : Handing.recorded pace (⟨i, now, v⟩ :: handed) id =
        Handing.recorded pace handed id := by
      simp [Handing.recorded, lost]
    exact same ▸ t.bears id j here
  closed := by
    intro h mem closes
    rcases List.mem_cons.mp mem with rfl | mem
    · rw [closes.2] at lost
      cases lost
    · exact t.closed h mem closes

/-- A verdict that is recorded counts for its item. -/
theorem judged (t : Tallied pace b handed) (found : b.get? i.id = some i) (new : i.state = .new)
    (kept : (⟨i, now, v⟩ : Handing).isLost pace = false) {j : WorkItem} (judged : i.Judged j v) :
    Tallied pace (b.put j) (⟨i, now, v⟩ :: handed) where
  stored := by
    intro h mem
    rcases List.mem_cons.mp mem with rfl | mem
    · exact ⟨j, by rw [← judged.id, Backlog.get?_put_self], judged.limit⟩
    · obtain ⟨k, here, limit⟩ := t.stored h mem
      rw [Backlog.get?_put]
      split
      · next same =>
          rw [← same, judged.id, found] at here
          cases here
          exact ⟨j, rfl, judged.limit.trans limit⟩
      · exact ⟨k, here, limit⟩
  bears := by
    intro id k here
    rw [Backlog.get?_put] at here
    split at here
    · next same =>
        cases here
        have mine : i.id = id := judged.id.symm.trans same
        have one_more : Handing.recorded pace (⟨i, now, v⟩ :: handed) id =
            Handing.recorded pace handed id + 1 := by
          simp [Handing.recorded, kept, mine]
        rw [one_more]
        exact (t.bears id i (mine ▸ found)).judged new judged
    · next other =>
        have apart : i.id ≠ id := judged.id ▸ other
        have same : Handing.recorded pace (⟨i, now, v⟩ :: handed) id =
            Handing.recorded pace handed id := by
          simp [Handing.recorded, apart]
        exact same ▸ t.bears id k here
  closed := by
    rintro h mem closes ⟨k, here, waits⟩
    rw [Backlog.get?_put] at here
    rcases List.mem_cons.mp mem with rfl | mem
    · rw [if_pos judged.id] at here
      cases here
      exact (judged.waits waits).1 closes.1
    · have done := t.closed h mem closes
      split at here
      · next same =>
          rw [← same, judged.id] at done
          exact done ⟨i, found, new⟩
      · exact done ⟨k, here, waits⟩

end Tallied

/-! ### Batches -/

/-- The items wait, and they are all different. -/
structure Backlog.Offers (b : Backlog) (batch : List WorkItem) : Prop where
  distinct : (batch.map WorkItem.id).Nodup
  waiting : ∀ i ∈ batch, b.get? i.id = some i ∧ i.state = .new

namespace Backlog

variable {b c : Backlog} {batch : List WorkItem}

/-- What a run takes up waits. -/
theorem Ordered.offers_batch (h : b.Ordered) (pace : Pace) (now : Int) (share : Share) :
    b.Offers (pace.batch b now share) where
  distinct := by
    have stored : (b.items.map WorkItem.id).Nodup :=
      (List.pairwise_map.mpr h).imp Nat.ne_of_lt
    have due : ((b.due now share none).map WorkItem.id).Nodup := by
      refine ((List.mergeSort_perm _ comesBefore).map WorkItem.id).nodup_iff.mpr ?_
      exact stored.sublist ((List.filter_sublist).map WorkItem.id)
    exact due.sublist ((List.take_sublist _ _).map WorkItem.id)
  waiting := by
    intro i mem
    obtain ⟨stored, due, -⟩ := mem_due (List.mem_of_mem_take mem)
    exact ⟨h.get?_eq_some_iff.mpr ⟨stored, rfl⟩, WorkItem.state_eq_new_of_isDue due⟩

theorem Offers.grows (h : b.Offers batch) (grows : b.Grows c) : c.Offers batch :=
  ⟨h.distinct, fun i mem => ⟨grows.kept (h.waiting i mem).1, (h.waiting i mem).2⟩⟩

theorem Offers.tail {i : WorkItem} (h : b.Offers (i :: batch)) : b.Offers batch :=
  ⟨(List.nodup_cons.mp h.distinct).2, fun j mem => h.waiting j (List.mem_cons_of_mem i mem)⟩

/-- A verdict on the first item is none on the others. -/
theorem Offers.judged {i j : WorkItem} {v : Verdict} (h : b.Offers (i :: batch))
    (judged : i.Judged j v) : (b.put j).Offers batch := by
  obtain ⟨first, distinct⟩ := List.nodup_cons.mp h.distinct
  refine ⟨distinct, fun k mem => ?_⟩
  obtain ⟨stored, new⟩ := h.waiting k (List.mem_cons_of_mem i mem)
  have other : j.id ≠ k.id := fun equal =>
    first (judged.id ▸ equal ▸ List.mem_map_of_mem mem)
  exact ⟨by rw [get?_put, if_neg other, stored], new⟩

end Backlog

/-- A run takes up all that is due if it is not too much. -/
theorem Pace.batch_of_filter {pace : Pace} {b : Backlog} {now : Int} {share : Share}
    {found : List WorkItem} (due : (b.items.filter fun i => i.isDue now && share.holds i) = found)
    (sorted : found.Pairwise fun i j => Backlog.comesBefore i j)
    (few : found.length ≤ pace.limit) : pace.batch b now share = found := by
  rw [Pace.batch, Backlog.due, due, List.mergeSort_of_pairwise sorted]
  exact List.take_of_length_le few

/-! ### Runs -/

/-- The item that the processor has in hand. -/
def Progress.atHand? : Progress → Option WorkItem
  | working _ (i :: _) => some i
  | working _ [] | begun | marked | expired | planned _ _ | settled _ => none

/-- A worker that runs over a backlog, with a record of the verdicts on what it has handed to
the processor, the last first. -/
structure Bench where
  ledger : Ledger Notice
  progress : Option Progress
  handed : List Handing

namespace Bench

/-- One thing that happens. -/
inductive Step (pace : Pace) : Bench → Bench → Prop
  /-- The backlog is being filled. -/
  | fills {l m : Ledger Notice} {progress : Option Progress} {handed : List Handing} :
      Ledger.Fills l m → Step pace ⟨l, progress, handed⟩ ⟨m, progress, handed⟩
  /-- A run begins. -/
  | begins {l : Ledger Notice} {handed : List Handing} :
      Step pace ⟨l, none, handed⟩ ⟨l, some .begun, handed⟩
  /-- A run does the next thing that it does by itself, whatever the wake target was. -/
  | advances {b : Backlog} {scopes landing : List (Scope Write Notice)} {r : Progress}
      {handed : List Handing} (share : Share) (now : Int) (target : WakeTarget) :
      Step pace ⟨⟨b, scopes, landing⟩, some r, handed⟩
        ⟨⟨(r.next pace share now (⟨target, b, none⟩ : Desk Notice)).2.backlog, scopes, landing⟩,
          some (r.next pace share now (⟨target, b, none⟩ : Desk Notice)).1, handed⟩
  /-- The verdict on the item at hand is recorded, if it can be. -/
  | judges {b c : Backlog} {scopes landing : List (Scope Write Notice)} {full : Bool}
      {i : WorkItem} {rest : List WorkItem} {ws : List Write} {handed : List Handing} (now : Int)
      (verdict : Verdict) : pace.conclude b now i verdict = (.ok ws, c) →
      Step pace ⟨⟨b, scopes, landing⟩, some (.working full (i :: rest)), handed⟩
        ⟨⟨(c.record (none : Option (Scope Write Notice)) ⟨(), ws⟩).2.1, scopes, landing⟩,
          some (.working full rest), ⟨i, now, verdict⟩ :: handed⟩
  /-- The run breaks off over the verdict. -/
  | breaks {b c : Backlog} {scopes landing : List (Scope Write Notice)} {full : Bool}
      {i : WorkItem} {rest : List WorkItem} {f : Failure} {handed : List Handing} (now : Int)
      (verdict : Verdict) : pace.conclude b now i verdict = (.error f, c) →
      Step pace ⟨⟨b, scopes, landing⟩, some (.working full (i :: rest)), handed⟩
        ⟨⟨c, scopes, landing⟩, none, ⟨i, now, verdict⟩ :: handed⟩
  /-- The run ends. -/
  | ends {l : Ledger Notice} {pause : Duration} {handed : List Handing} :
      Step pace ⟨l, some (.settled pause), handed⟩ ⟨l, none, handed⟩

/-- Any number of things that happen one after the other. -/
abbrev Steps (pace : Pace) : Bench → Bench → Prop := Relation.ReflTransGen (Step pace)

/-- What can come of an empty backlog. -/
def Reachable (pace : Pace) (k : Bench) : Prop :=
  ∃ maxDeferCount, Steps pace ⟨.empty maxDeferCount, none, []⟩ k

/-- The item that the processor has in hand. -/
def atHand? (k : Bench) : Option WorkItem := k.progress.bind Progress.atHand?

/-- What the processor was handed, the last first. -/
def taken (k : Bench) : List WorkItem := k.atHand?.toList ++ k.handed.map Handing.item

/-- How often the processor was handed an item. -/
def times (k : Bench) (id : Nat) : Nat := k.taken.countP fun i => i.id == id

/-- How many verdicts on an item were lost. -/
def lost (pace : Pace) (k : Bench) (id : Nat) : Nat :=
  k.handed.countP fun h => h.item.id == id && h.isLost pace

theorem Steps.fills {pace : Pace} {l m : Ledger Notice} {progress : Option Progress}
    {handed : List Handing} (run : Relation.ReflTransGen Ledger.Fills l m) :
    Steps pace ⟨l, progress, handed⟩ ⟨m, progress, handed⟩ := by
  induction run with
  | refl => exact .refl
  | tail _ st ih => exact ih.tail (.fills st)

/-- A run that finds a single item hands it out. -/
theorem steps_run_of_one {pace : Pace} {b c : Backlog} {scopes landing : List (Scope Write Notice)}
    {i : WorkItem} {ws : List Write} {handed : List Handing} (share : Share) (now : Int)
    (v : Verdict) (only : ((Operation.expire.perform now b).items.filter fun j =>
      j.isDue now && share.holds j) = [i])
    (concluded : pace.conclude (Operation.expire.perform now b) now i v = (.ok ws, c)) :
    Steps pace ⟨⟨b, scopes, landing⟩, none, handed⟩
      ⟨⟨(c.record (none : Option (Scope Write Notice)) ⟨(), ws⟩).2.1, scopes, landing⟩, none,
        ⟨i, now, v⟩ :: handed⟩ := by
  have one : pace.batch (Operation.expire.perform now b) now share = [i] :=
    Pace.batch_of_filter only (List.pairwise_singleton _ _) (Nat.le_max_right _ _)
  let late := Operation.expire.perform now b
  let after := (c.record (none : Option (Scope Write Notice)) ⟨(), ws⟩).2.1
  let more := ⟨i, now, v⟩ :: handed
  let full := pace.isFull [i]
  let pause := pace.pause after now share full
  have marks : Step pace ⟨⟨b, scopes, landing⟩, some .begun, handed⟩
      ⟨⟨b, scopes, landing⟩, some .marked, handed⟩ := .advances share now .unknown
  have expires : Step pace ⟨⟨b, scopes, landing⟩, some .marked, handed⟩
      ⟨⟨late, scopes, landing⟩, some .expired, handed⟩ := by
    rw [show late = _ from (@Workshop.record_expire Notice b now).symm]
    exact .advances share now .unknown
  have looks : Step pace ⟨⟨late, scopes, landing⟩, some .expired, handed⟩
      ⟨⟨late, scopes, landing⟩, some (.working full [i]), handed⟩ := by
    rw [show full = pace.isFull _ from rfl, ← one]
    exact .advances share now .unknown
  have judges : Step pace ⟨⟨late, scopes, landing⟩, some (.working full [i]), handed⟩
      ⟨⟨after, scopes, landing⟩, some (.working full []), more⟩ := .judges now v concluded
  have plans : Step pace ⟨⟨after, scopes, landing⟩, some (.working full []), more⟩
      ⟨⟨after, scopes, landing⟩, some (.planned now pause), more⟩ := .advances share now .unknown
  have settles : Step pace ⟨⟨after, scopes, landing⟩, some (.planned now pause), more⟩
      ⟨⟨after, scopes, landing⟩, some (.settled pause), more⟩ := .advances share now .unknown
  exact ((((((Relation.ReflTransGen.single .begins).tail marks).tail expires).tail looks).tail
    judges).tail plans).tail settles |>.tail .ends

/-! ### Every bench -/

/-- What holds of every bench. -/
structure Sound (pace : Pace) (k : Bench) : Prop where
  ledger : k.ledger.Reachable
  filling : k.ledger.Filling
  tallied : Tallied pace k.ledger.backlog k.handed
  /-- Nothing is handed out after it was done. -/
  order : k.handed.Pairwise fun later h => h.Closes pace → later.item.id ≠ h.item.id
  batch : ∀ full rest, k.progress = some (.working full rest) → k.ledger.backlog.Offers rest

variable {pace : Pace} {k k' : Bench}

theorem Sound.fills {l m : Ledger Notice} {progress : Option Progress} {handed : List Handing}
    (h : Sound pace ⟨l, progress, handed⟩) (st : Ledger.Fills l m) :
    Sound pace ⟨m, progress, handed⟩ := by
  have grows := h.filling.grows h.ledger.sound st.step
  exact ⟨h.ledger.steps (.single st.step), h.filling.fills st, h.tallied.unjudged grows.unjudged,
    h.order, fun full rest works => (h.batch full rest works).grows grows⟩

theorem Sound.advances {b : Backlog} {scopes landing : List (Scope Write Notice)}
    {r r' : Progress} {target : WakeTarget} {d : Desk Notice} {handed : List Handing}
    {share : Share} {now : Int} (h : Sound pace ⟨⟨b, scopes, landing⟩, some r, handed⟩)
    (next : r.next pace share now ⟨target, b, none⟩ = (r', d)) :
    Sound pace ⟨⟨d.backlog, scopes, landing⟩, some r', handed⟩ := by
  obtain ⟨target', c, scope⟩ := d
  cases Workshop.advance_next next with
  | marks | plans | settles =>
      exact ⟨h.ledger, h.filling, h.tallied, h.order, fun _ _ works => by cases works⟩
  | expires =>
      exact ⟨h.ledger.steps (Ledger.steps_perform _ _ _ _ _), h.filling,
        h.tallied.unjudged (Backlog.unjudged_expire b now), h.order, fun _ _ works => by cases works⟩
  | looks =>
      cases next
      refine ⟨h.ledger, h.filling, h.tallied, h.order, fun full rest works => ?_⟩
      cases works
      exact (Backlog.Sound.ordered h.ledger.sound).offers_batch pace now share
  | rests => exact h

theorem atHand?_inv {i : WorkItem} (here : k.atHand? = some i) :
    ∃ full rest, k.progress = some (.working full (i :: rest)) := by
  unfold atHand? at here
  obtain ⟨r, runs, here⟩ := Option.bind_eq_some_iff.mp here
  match r, here with
  | .working full (_ :: rest), rfl => exact ⟨full, rest, runs⟩

/-- The item at hand waits, so it was never done. -/
theorem Sound.open (h : Sound pace k) {i : WorkItem} (here : k.atHand? = some i) :
    k.ledger.backlog.get? i.id = some i ∧ i.state = .new ∧
      ∀ g ∈ k.handed, g.Closes pace → i.id ≠ g.item.id := by
  obtain ⟨full, rest, runs⟩ := atHand?_inv here
  obtain ⟨found, new⟩ := (h.batch full (i :: rest) runs).waiting i List.mem_cons_self
  refine ⟨found, new, fun g mem closes same => ?_⟩
  exact h.tallied.closed g mem closes ⟨i, same ▸ found, new⟩

theorem Sound.judges {b c : Backlog} {scopes landing : List (Scope Write Notice)} {full : Bool}
    {i : WorkItem} {rest : List WorkItem} {ws : List Write} {handed : List Handing} {now : Int}
    {v : Verdict} (h : Sound pace ⟨⟨b, scopes, landing⟩, some (.working full (i :: rest)), handed⟩)
    (concluded : pace.conclude b now i v = (.ok ws, c)) :
    Sound pace ⟨⟨(c.record (none : Option (Scope Write Notice)) ⟨(), ws⟩).2.1, scopes, landing⟩,
      some (.working full rest), ⟨i, now, v⟩ :: handed⟩ := by
  obtain ⟨found, new, open_⟩ := h.open rfl
  have offers := h.batch full (i :: rest) rfl
  have ledger := h.ledger.steps (Workshop.steps_conclude concluded scopes landing)
  have order := (List.pairwise_cons (a := ⟨i, now, v⟩)).mpr ⟨open_, h.order⟩
  cases lost : (⟨i, now, v⟩ : Handing).isLost pace with
  | true =>
      obtain ⟨items, nothing⟩ := Pace.conclude_of_lost h.ledger.faithful found new lost
      rw [concluded] at items nothing
      cases nothing ws rfl
      have grows : b.Grows c := .of_items items
      refine ⟨ledger, h.filling, (h.tallied.lost found lost).unjudged grows.unjudged, order,
        fun _ _ works => ?_⟩
      cases works
      exact offers.tail.grows grows
  | false =>
      obtain ⟨j, next, judged, fresh, items⟩ :=
        Pace.items_record_of_kept Notice h.ledger.faithful found new lost concluded
      have grows := Backlog.Sound.grows_next h.ledger.sound found judged fresh items
      refine ⟨ledger, h.filling, (h.tallied.judged found new lost judged).unjudged grows.unjudged,
        order, fun _ _ works => ?_⟩
      cases works
      exact (offers.judged judged).grows grows

theorem Sound.breaks {b c : Backlog} {scopes landing : List (Scope Write Notice)} {full : Bool}
    {i : WorkItem} {rest : List WorkItem} {f : Failure} {handed : List Handing} {now : Int}
    {v : Verdict} (h : Sound pace ⟨⟨b, scopes, landing⟩, some (.working full (i :: rest)), handed⟩)
    (concluded : pace.conclude b now i v = (.error f, c)) :
    Sound pace ⟨⟨c, scopes, landing⟩, none, ⟨i, now, v⟩ :: handed⟩ := by
  obtain ⟨found, new, open_⟩ := h.open rfl
  have order := (List.pairwise_cons (a := ⟨i, now, v⟩)).mpr ⟨open_, h.order⟩
  cases lost : (⟨i, now, v⟩ : Handing).isLost pace with
  | true =>
      obtain ⟨items, -⟩ := Pace.conclude_of_lost h.ledger.faithful found new lost
      rw [concluded] at items
      exact ⟨h.ledger.steps (Pace.steps_of_conclude_error concluded scopes landing), h.filling,
        (h.tallied.lost found lost).unjudged (Backlog.Grows.of_items items).unjudged, order,
        fun _ _ works => by cases works⟩
  | false =>
      obtain ⟨j, next, answer, -⟩ := Pace.conclude_of_kept h.ledger.faithful found new lost
      rw [concluded] at answer
      cases answer

/-- **Every step keeps a bench sound.** -/
theorem Sound.step (h : Sound pace k) (st : Step pace k k') : Sound pace k' := by
  cases st with
  | fills fills => exact h.fills fills
  | begins => exact ⟨h.ledger, h.filling, h.tallied, h.order, fun _ _ works => by cases works⟩
  | advances share now target => exact h.advances rfl
  | judges now verdict concluded => exact h.judges concluded
  | breaks now verdict concluded => exact h.breaks concluded
  | ends => exact ⟨h.ledger, h.filling, h.tallied, h.order, fun _ _ works => by cases works⟩

theorem sound_empty (pace : Pace) (maxDeferCount : Nat) :
    Sound pace ⟨.empty maxDeferCount, none, []⟩ where
  ledger := ⟨maxDeferCount, .refl⟩
  filling := fun _ mem => by cases mem
  tallied := .empty maxDeferCount
  order := List.Pairwise.nil
  batch := fun _ _ works => by cases works

theorem Reachable.sound (h : Reachable pace k) : Sound pace k := by
  obtain ⟨maxDeferCount, run⟩ := h
  induction run with
  | refl => exact sound_empty pace maxDeferCount
  | tail _ st ih => exact ih.step st

/-- A verdict is recorded or lost. -/
theorem times_eq (pace : Pace) (k : Bench) (id : Nat) :
    k.times id = k.atHand?.toList.countP (fun i => i.id == id) +
      Handing.recorded pace k.handed id + k.lost pace id := by
  have verdicts : ∀ handed : List Handing,
      (handed.map Handing.item).countP (fun i => i.id == id) = Handing.recorded pace handed id +
        handed.countP fun h => h.item.id == id && h.isLost pace := by
    unfold Handing.recorded
    intro handed
    induction handed with
    | nil => rfl
    | cons h rest ih =>
        simp only [List.map_cons, List.countP_cons, ih]
        cases h.isLost pace <;> cases h.item.id == id <;> simp <;> omega
  rw [times, taken, List.countP_append, verdicts, lost, Nat.add_assoc]

/-- What was handed out is stored, and may be deferred as often as it might be then. -/
theorem Sound.stored (h : Sound pace k) {i : WorkItem} (mem : i ∈ k.taken) :
    ∃ j, k.ledger.backlog.get? i.id = some j ∧
      j.effectiveMaxDeferCount = i.effectiveMaxDeferCount := by
  rcases List.mem_append.mp mem with here | before
  · exact ⟨i, (h.open (Option.mem_toList.mp here)).1, rfl⟩
  · obtain ⟨g, there, rfl⟩ := List.mem_map.mp before
    obtain ⟨j, found, limit⟩ := h.tallied.stored g there
    refine ⟨j, found, ?_⟩
    rw [WorkItem.effectiveMaxDeferCount, limit, WorkItem.effectiveMaxDeferCount]

/-- An item has no more recorded verdicts than it can bear, and room for one more while it is at
hand. -/
theorem Sound.recorded_le (h : Sound pace k) {id : Nat} {j : WorkItem}
    (found : k.ledger.backlog.get? id = some j)
    (small : j.effectiveMaxDeferCount ≤ WorkItem.deferCountLimit) :
    k.atHand?.toList.countP (fun i => i.id == id) + Handing.recorded pace k.handed id ≤
      max 1 j.effectiveMaxDeferCount := by
  have bears := h.tallied.bears id j found
  cases here : k.atHand? with
  | none =>
      rw [Option.toList_none, List.countP_nil, Nat.zero_add]
      exact bears.bound small
  | some g =>
      obtain ⟨found', new, -⟩ := h.open here
      rw [Option.toList_some, List.countP_singleton]
      split
      · next mine =>
          rw [beq_iff_eq.mp mine, found] at found'
          cases found'
          rw [Nat.add_comm]
          exact bears.more new small
      · rw [Nat.zero_add]
        exact bears.bound small

/-- **An item that may be deferred `m` times is handed to the processor at most `m` times, or
once if `m` is 0, and once more for each verdict on it that was lost. It is never handed out
again after it was done, unless that verdict was lost.** -/
theorem Reachable.bounded (h : Reachable pace k) :
    (∀ i ∈ k.taken, i.effectiveMaxDeferCount ≤ WorkItem.deferCountLimit →
      k.times i.id ≤ max 1 i.effectiveMaxDeferCount + k.lost pace i.id) ∧
    ∀ later h earlier, k.handed = later ++ h :: earlier → h.Closes pace →
      ∀ i ∈ k.atHand?.toList ++ later.map Handing.item, i.id ≠ h.item.id := by
  have sound := h.sound
  refine ⟨fun i mem small => ?_, fun later g earlier split closes i mem => ?_⟩
  · obtain ⟨j, found, same⟩ := sound.stored mem
    have bound := sound.recorded_le found (same ▸ small)
    rw [times_eq pace, ← same]
    exact Nat.add_le_add_right bound _
  · rcases List.mem_append.mp mem with here | before
    · refine (sound.open (Option.mem_toList.mp here)).2.2 g ?_ closes
      simp [split]
    · obtain ⟨g', there, rfl⟩ := List.mem_map.mp before
      have order := sound.order
      rw [split] at order
      exact (List.pairwise_append.mp order).2.2 g' there g List.mem_cons_self closes

/-- A message that may be deferred once is deferred when it is handed out. So it is dropped, and
it is not handed out again. -/
theorem bounded_of_oneMessage : ∃ (k : Bench) (i : WorkItem), k.Reachable .standard ∧ i ∈ k.taken ∧
    i.effectiveMaxDeferCount = 1 ∧ k.lost .standard i.id = 0 ∧ k.times i.id ≤ 1 := by
  let message : WorkItem := { WorkItem.ofKind (.notification "email" .null) with
    scheduleTime := some 1000
    maxDeferCount := some 1 }
  let stored := (Backlog.empty 5).admitted 1000 1000 message
  let b := (Operation.add message).perform 1000 (.empty 5)
  have concluded : Pace.standard.conclude (Operation.expire.perform 1000 b) 1000 stored .deferred =
      (.ok [_], b) := rfl
  have added : Steps .standard ⟨.empty 5, none, []⟩ ⟨⟨b, [], []⟩, none, []⟩ :=
    .fills (Ledger.fills_perform_add rfl 1000 _)
  have reached : Reachable .standard _ :=
    ⟨5, added.trans (steps_run_of_one ⟨0, 1, .all⟩ 1000 .deferred rfl concluded)⟩
  obtain ⟨bounded, -⟩ := reached.bounded
  exact ⟨_, stored, reached, List.mem_cons_self, rfl, rfl,
    bounded stored List.mem_cons_self (by decide)⟩

/-- A job is added with a time, so that nobody looks at its cron expression, which cannot be
read. It may be deferred once. It is done when it is handed out, and then it is handed out
again. -/
theorem handed_again_when_done : ∃ (k : Bench) (first second : Handing), k.Reachable .standard ∧
    k.handed = [second, first] ∧ first.verdict = .completed ∧ first.item.id = 1 ∧
      second.item.id = 1 ∧ first.item.effectiveMaxDeferCount = 1 ∧ first.item.deferCount = 0 := by
  let job : WorkItem := { WorkItem.ofKind (.job "digest" (.cron "never" none)) with
    scheduleTime := some 1000
    maxDeferCount := some 1 }
  let stored := (Backlog.empty 5).admitted 1000 1000 job
  let b := (Operation.add job).perform 1000 (.empty 5)
  have concluded : Pace.standard.conclude (Operation.expire.perform 1000 b) 1000 stored .completed =
      (.ok [], b) := rfl
  have added : Steps .standard ⟨.empty 5, none, []⟩ ⟨⟨b, [], []⟩, none, []⟩ :=
    .fills (Ledger.fills_perform_add rfl 1000 _)
  have run (handed : List Handing) : Steps .standard ⟨⟨b, [], []⟩, none, handed⟩
      ⟨⟨b, [], []⟩, none, ⟨stored, 1000, .completed⟩ :: handed⟩ :=
    steps_run_of_one ⟨0, 1, .all⟩ 1000 .completed rfl concluded
  exact ⟨_, _, _, ⟨5, (added.trans (run [])).trans (run _)⟩, rfl, rfl, rfl, rfl, rfl, rfl⟩

end Bench

end RecurringWork
