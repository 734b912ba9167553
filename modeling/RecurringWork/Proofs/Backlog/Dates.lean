import RecurringWork.Proofs.Backlog.Operations

/-!
# RecurringWork.Proofs.Backlog.Dates

**Every stored item has a time at which it is due.** An item that is added without one
gets one, and what is done to it later leaves it one (`Backlog.Dated`). So whoever asks when
the next item is due hears of all of them (`Backlog.nextDue_le`).
-/

namespace RecurringWork

/-- The item has a time. -/
def WorkItem.Dated (i : WorkItem) : Prop := i.scheduleTime.isSome

/-- A write stores only items that have a time. -/
def Write.Dated : Write → Prop
  | .insert i => i.Dated
  | .replace i successor => i.Dated ∧ ∀ next ∈ successor, next.Dated
  | .expire _ _ | .purge _ => True

namespace Backlog

/-! ### The earliest time -/

theorem foldl_earlier (ts : List Int) (a : Int) :
    ∃ d, ts.foldl earlier (some a) = some d ∧ (d = a ∨ d ∈ ts) ∧ d ≤ a ∧ ∀ t ∈ ts, d ≤ t := by
  induction ts generalizing a with
  | nil => exact ⟨a, rfl, .inl rfl, Int.le_refl a, by simp⟩
  | cons t ts ih =>
      obtain ⟨d, result, mem, le, all⟩ := ih (min a t)
      refine ⟨d, result, ?_, by omega, ?_⟩
      · rcases mem with rfl | mem
        · rcases Int.le_total a t with first | second
          · exact .inl (Int.min_eq_left first)
          · exact .inr (by rw [Int.min_eq_right second]; exact List.mem_cons_self)
        · exact .inr (List.mem_cons_of_mem t mem)
      · intro u here
        rcases List.mem_cons.mp here with rfl | here
        · omega
        · exact all u here

/-- The earliest of some times is one of them, and none is before it. -/
theorem earliest_eq_some_inv {ts : List Int} {d : Int} (h : earliest ts = some d) :
    d ∈ ts ∧ ∀ t ∈ ts, d ≤ t := by
  cases ts with
  | nil => cases h
  | cons a ts =>
      obtain ⟨e, result, mem, le, all⟩ := foldl_earlier ts a
      have same : earliest (a :: ts) = some e := result
      rw [same] at h
      cases h
      refine ⟨List.mem_cons.mpr mem, fun t here => ?_⟩
      rcases List.mem_cons.mp here with rfl | here
      · exact le
      · exact all t here

theorem earliest_le {ts : List Int} {t : Int} (mem : t ∈ ts) :
    ∃ d, earliest ts = some d ∧ d ≤ t := by
  cases result : earliest ts with
  | none =>
      cases ts with
      | nil => cases mem
      | cons a ts =>
          obtain ⟨d, some, -⟩ := foldl_earlier ts a
          have same : earliest (a :: ts) = Option.some d := some
          rw [result] at same
          cases same
  | some d => exact ⟨d, rfl, (earliest_eq_some_inv result).2 t mem⟩

/-- The next item of a share is due no later than any that waits. -/
theorem nextDue_le {b : Backlog} {share : Share} {id : Nat} {i : WorkItem} {t : Int}
    (stored : b.get? id = some i) (new : i.state = .new) (holds : share.holds i)
    (due : i.scheduleTime = some t) : ∃ d, b.nextDue share = some d ∧ d ≤ t := by
  have mem : i ∈ b.items := List.mem_of_find?_eq_some stored
  refine earliest_le (List.mem_filterMap.mpr ⟨i, ?_, due⟩)
  exact List.mem_filter.mpr ⟨mem, by simp [new, holds]⟩

/-! ### All stored items -/

/-- Every stored item has a time. -/
def Dated (b : Backlog) : Prop := ∀ (id : Nat) (i : WorkItem), b.get? id = some i → i.Dated

theorem dated_empty (maxDeferCount : Nat) : (empty maxDeferCount).Dated := by
  intro id i found
  cases found

theorem Dated.put {b : Backlog} (h : b.Dated) {i : WorkItem} (dated : i.Dated) :
    (b.put i).Dated := by
  intro id j found
  rw [get?_put] at found
  split at found
  · cases found
    exact dated
  · exact h id j found

theorem Dated.of_items {b c : Backlog} (h : b.Dated) (same : c.items = b.items) : c.Dated := by
  intro id i found
  unfold get? at found
  rw [same] at found
  exact h id i found

theorem Dated.expireItem {b : Backlog} (h : b.Dated) (id : Nat) (now : Int) :
    (b.expireItem id now).Dated := by
  unfold Backlog.expireItem
  split
  · next i found =>
      split
      · have dated : i.Dated := h id i found
        exact h.put dated
      · exact h
  · exact h

theorem Dated.settle {b : Backlog} (h : b.Dated) (ordered : b.Ordered) {w : Write}
    (dated : w.Dated) : (b.settle w).Dated := by
  refine settle_induction (motive := Backlog.Dated) b w h fun c result => ?_
  cases w with
  | insert i =>
      cases result
      exact h.put dated
  | replace i successor =>
      obtain ⟨-, -, -, rfl⟩ := carryOut_replace_inv result
      obtain ⟨first, second⟩ := dated
      cases successor with
      | none => exact h.put first
      | some next => exact (h.put first).put (second next rfl)
  | expire id now =>
      cases result
      exact h.expireItem id now
  | purge ids =>
      cases result
      intro id i found
      rw [purgeItems, ordered.get?_filter, Option.filter_eq_some_iff] at found
      exact h id i found.1

theorem Dated.commit {b : Backlog} (h : b.Dated) (ordered : b.Ordered) {ws : List Write}
    (dated : ∀ w ∈ ws, w.Dated) : (b.commit ws).Dated := by
  induction ws generalizing b with
  | nil => exact h
  | cons w ws ih =>
      exact ih (h.settle ordered (dated w List.mem_cons_self)) (ordered.settle w) fun v mem =>
        dated v (List.mem_cons_of_mem w mem)

/-! ### What operations draft -/

theorem dated_nextOccurrence {b c : Backlog} {now : Int} {i next : WorkItem}
    (h : b.nextOccurrence now i = (.ok (some next), c)) : next.Dated := by
  unfold nextOccurrence at h
  split at h
  · cases h
  · split at h
    · cases h
    · dsimp only at h
      split at h
      · cases h
      · split at h
        · cases h
        · cases h
          rfl

/-- What is drafted to complete an item or to defer one to some time has times. -/
theorem dated_complete {b : Backlog} (h : b.Dated) (now : Int) (id : Nat) :
    ∀ w ∈ draftedWrites (b.complete now id).1, w.Dated := by
  intro w mem
  unfold complete stored at mem
  cases found : b.get? id with
  | none =>
      rw [found] at mem
      cases mem
  | some i =>
      rw [found] at mem
      dsimp only at mem
      split at mem
      · cases mem
      · cases next : b.nextOccurrence now (completed now i) with
        | mk result c =>
            rw [next] at mem
            cases result with
            | error f => cases mem
            | ok successor =>
                rw [List.mem_singleton.mp mem]
                have dated : i.Dated := h id i found
                refine ⟨dated, fun j here => ?_⟩
                rw [Option.mem_def] at here
                subst here
                exact dated_nextOccurrence next

theorem dated_update {b : Backlog} {now : Int} {i : WorkItem} (dated : i.Dated) :
    ∀ w ∈ draftedWrites (b.update now i), w.Dated := by
  intro w mem
  unfold update at mem
  cases stored : b.stored i.id with
  | error e =>
      rw [stored] at mem
      cases mem
  | ok j =>
      rw [stored] at mem
      simp only [bind, Except.bind] at mem
      split at mem
      · cases mem
      · rw [List.mem_singleton.mp mem]
        exact ⟨dated, fun _ here => by cases here⟩

theorem dated_expire (b : Backlog) (now : Int) : ∀ w ∈ (b.expire now).writes, w.Dated := by
  intro w mem
  obtain ⟨i, -, rfl⟩ := List.mem_map.mp mem
  trivial

/-- What is performed outside of any transaction keeps every item dated. -/
theorem Dated.perform {b : Backlog} (h : b.Dated) (ordered : b.Ordered) {op : Operation} {now : Int}
    (dated : ∀ w ∈ (op.draft now b).1, w.Dated) : (op.perform now b).Dated := by
  have draft := drafted op now b
  rw [perform_eq_commit]
  refine (h.of_items draft.items).commit ?_ dated
  unfold Ordered
  rw [draft.items]
  exact ordered

end Backlog

end RecurringWork
