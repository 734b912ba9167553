import RecurringWork.Backlog.Change
import RecurringWork.Proofs.Backlog.Writes

/-!
# RecurringWork.Proofs.Backlog.Operations

**What a call of an operation leaves behind.** Whatever changes the backlog is an
`Operation`. A call of one drafts writes and uses up identities (`Operation.draft`), but
it changes no item: the items change when the writes are carried out, which may be much
later. The identity that a call uses up is the one under which its writes will store a
new item, and it hands out none in vain (`Backlog.drafted`).
-/

namespace RecurringWork

/-- An operation that changes the backlog. -/
inductive Operation
  | add (item : WorkItem)
  | update (item : WorkItem)
  | defer (item : WorkItem)
  | complete (id : Nat)
  | expire
  | purge (olderThan : Int)

/-- The writes that an operation takes for granted, none if it is refused. -/
def Backlog.draftedWrites {ε α : Type} : Except ε (Backlog.Draft α) → List Write
  | .ok d => d.writes
  | .error _ => []

/-- Call an operation at `now`: its writes, and the backlog with the identities that the
call has used up. -/
def Operation.draft (now : Int) (b : Backlog) : Operation → List Write × Backlog
  | .add i => (Backlog.draftedWrites (b.add now i).1, (b.add now i).2)
  | .update i => (Backlog.draftedWrites (b.update now i), b)
  | .defer i => (Backlog.draftedWrites (b.defer now i), b)
  | .complete id => (Backlog.draftedWrites (b.complete now id).1, (b.complete now id).2)
  | .expire => ((b.expire now).writes, b)
  | .purge olderThan => ((b.purge olderThan).writes, b)

/-- The backlog after an operation outside of any transaction. -/
def Operation.perform (now : Int) (b : Backlog) (op : Operation) : Backlog :=
  ((op.draft now b).2.record (none : Option (Scope Write Unit)) ⟨(), (op.draft now b).1⟩).2.1

/-! ### Calling an operation -/

namespace Backlog

/-- The identities under which some writes store items for the first time. -/
def freshOf (ws : List Write) : List Nat := ws.flatMap Write.fresh

@[simp] theorem freshOf_nil : freshOf [] = [] := rfl

@[simp] theorem freshOf_cons (w : Write) (ws : List Write) :
    freshOf (w :: ws) = w.fresh ++ freshOf ws := rfl

@[simp] theorem freshOf_append (ws vs : List Write) :
    freshOf (ws ++ vs) = freshOf ws ++ freshOf vs := List.flatMap_append

@[simp] theorem freshOf_map_insert (items : List WorkItem) :
    freshOf (items.map .insert) = items.map WorkItem.id := by
  induction items with
  | nil => rfl
  | cons i rest ih => exact congrArg (i.id :: ·) ih

/-- A call leaves the items as they are, and its writes store an item for the first
time only under the identity that the call has used up. -/
structure Drafted (b : Backlog) (ws : List Write) (c : Backlog) : Prop where
  items : c.items = b.items
  fresh : freshOf ws = [] ∧ c.nextId = b.nextId ∨ freshOf ws = [b.nextId] ∧ c.nextId = b.nextId + 1
  /-- There is no more than one write, unless they are of the kind that is never refused. -/
  few : ws.length ≤ 1 ∨ ∀ w ∈ ws, ∃ id now, w = .expire id now

theorem Drafted.refused (b : Backlog) : b.Drafted [] b :=
  ⟨rfl, .inl ⟨rfl, rfl⟩, .inl (Nat.zero_le _)⟩

theorem drafted_add (b : Backlog) (now : Int) (i : WorkItem) :
    b.Drafted (draftedWrites (b.add now i).1) (b.add now i).2 := by
  unfold add
  split
  · exact ⟨rfl, .inl ⟨rfl, rfl⟩, .inl (Nat.zero_le _)⟩
  · exact ⟨rfl, .inr ⟨rfl, rfl⟩, .inl (Nat.le_refl _)⟩

theorem drafted_update (b : Backlog) (now : Int) (i : WorkItem) :
    b.Drafted (draftedWrites (b.update now i)) b := by
  unfold update
  cases b.stored i.id with
  | error e => exact Drafted.refused b
  | ok stored =>
      simp only [bind, Except.bind]
      split
      · exact Drafted.refused b
      · exact ⟨rfl, .inl ⟨rfl, rfl⟩, .inl (Nat.le_refl _)⟩

/-- Looking for the next occurrence uses up an identity exactly if there is one. -/
theorem nextOccurrence_inv {b c : Backlog} {now : Int} {i : WorkItem}
    {r : Except Failure (Option WorkItem)} (h : b.nextOccurrence now i = (r, c)) :
    c.items = b.items ∧
      ((∃ next, r = .ok (some next) ∧ next.id = b.nextId ∧ c.nextId = b.nextId + 1) ∨
        (∀ next, r ≠ .ok (some next)) ∧ c.nextId = b.nextId) := by
  have same : c.items = b.items := by
    have := items_nextOccurrence b now i
    rwa [h] at this
  refine ⟨same, ?_⟩
  unfold nextOccurrence at h
  split at h
  · cases h
    exact .inr ⟨by simp, rfl⟩
  · split at h
    · cases h
      exact .inr ⟨by simp, rfl⟩
    · dsimp only at h
      split at h
      · cases h
        exact .inr ⟨by simp, rfl⟩
      · split at h
        · cases h
          exact .inr ⟨by simp, rfl⟩
        · cases h
          exact .inl ⟨_, rfl, rfl, rfl⟩

theorem drafted_complete (b : Backlog) (now : Int) (id : Nat) :
    b.Drafted (draftedWrites (b.complete now id).1) (b.complete now id).2 := by
  unfold complete
  split
  · exact Drafted.refused b
  · next stored _ =>
      split
      · exact Drafted.refused b
      · dsimp only
        split
        · next h =>
            obtain ⟨items, ⟨_, cannot, -⟩ | ⟨-, same⟩⟩ := nextOccurrence_inv h
            · cases cannot
            · exact ⟨items, .inl ⟨rfl, same⟩, .inl (by simp [draftedWrites])⟩
        · next next c h =>
            obtain ⟨items, ⟨following, found, numbered, used⟩ | ⟨none, same⟩⟩ :=
              nextOccurrence_inv h
            · cases found
              exact ⟨items, .inr ⟨by simp [draftedWrites, Write.fresh, numbered], used⟩,
                .inl (Nat.le_refl _)⟩
            · cases next with
              | none => exact ⟨items, .inl ⟨rfl, same⟩, .inl (by simp [draftedWrites])⟩
              | some following => exact absurd rfl (none following)

theorem drafted_expire (b : Backlog) (now : Int) : b.Drafted (b.expire now).writes b := by
  refine ⟨rfl, .inl ⟨?_, rfl⟩, .inr fun w mem => ?_⟩
  · rw [freshOf, expire, List.flatMap_map]
    exact List.flatMap_eq_nil_iff.mpr fun _ _ => rfl
  · obtain ⟨i, -, rfl⟩ := List.mem_map.mp mem
    exact ⟨i.id, now, rfl⟩

/-- **Every operation drafts.** -/
theorem drafted (op : Operation) (now : Int) (b : Backlog) :
    b.Drafted (op.draft now b).1 (op.draft now b).2 := by
  cases op with
  | add i => exact drafted_add b now i
  | update i => exact drafted_update b now i
  | defer i => exact drafted_update b now i.deferred
  | complete id => exact drafted_complete b now id
  | expire => exact drafted_expire b now
  | purge olderThan => exact ⟨rfl, .inl ⟨rfl, rfl⟩, .inl (Nat.le_refl _)⟩

theorem Drafted.get? {b c : Backlog} {ws : List Write} (h : b.Drafted ws c) (id : Nat) :
    c.get? id = b.get? id := by
  unfold Backlog.get?
  rw [h.items]

theorem Drafted.nextId_le {b c : Backlog} {ws : List Write} (h : b.Drafted ws c) :
    b.nextId ≤ c.nextId := by
  rcases h.fresh with ⟨-, same⟩ | ⟨-, used⟩ <;> omega

theorem Drafted.ordered {b c : Backlog} {ws : List Write} (h : b.Drafted ws c)
    (ordered : b.Ordered) : c.Ordered := by
  rw [Ordered, h.items]
  exact ordered

/-- The writes of a call reserve an identity that nothing is stored under and that is
not reserved yet. -/
theorem Sound.drafted {b c : Backlog} {ws : List Write} {reserved : List Nat}
    (h : b.Sound reserved) (d : b.Drafted ws c) : c.Sound (freshOf ws ++ reserved) := by
  have ordered := d.ordered h.ordered
  rcases d.fresh with ⟨none, same⟩ | ⟨one, used⟩
  · rw [none, List.nil_append]
    refine ⟨ordered, fun found => ?_, fun mem => ?_, fun mem => ?_, h.distinct⟩
    · rw [d.get?] at found
      exact same ▸ h.stored_lt found
    · exact same ▸ h.reserved_lt mem
    · rw [d.get?]
      exact h.reserved_absent mem
  · rw [one, List.singleton_append]
    refine ⟨ordered, fun found => ?_, fun mem => ?_, fun mem => ?_, ?_⟩
    · rw [d.get?] at found
      have := h.stored_lt found
      omega
    · rcases List.mem_cons.mp mem with rfl | mem
      · omega
      · have := h.reserved_lt mem
        omega
    · rw [d.get?]
      rcases List.mem_cons.mp mem with rfl | mem
      · exact h.get?_of_nextId_le (Nat.le_refl _)
      · exact h.reserved_absent mem
    · exact List.nodup_cons.mpr ⟨fun mem => Nat.lt_irrefl _ (h.reserved_lt mem), h.distinct⟩

/-! ### Calling an operation outside of any transaction -/

theorem commit_of_foldlM_eq_ok {b c : Backlog} {ws : List Write}
    (h : ws.foldlM carryOut b = .ok c) : b.commit ws = c := by
  induction ws generalizing b with
  | nil =>
      cases h
      rfl
  | cons w ws ih =>
      rw [List.foldlM_cons] at h
      cases result : b.carryOut w with
      | error e =>
          rw [result] at h
          cases h
      | ok d =>
          rw [result] at h
          have : b.settle w = d := by rw [settle, result]
          rw [commit, List.foldl_cons, this]
          exact ih h

theorem foldlM_expiries (b : Backlog) {ws : List Write}
    (h : ∀ w ∈ ws, ∃ id now, w = .expire id now) : ∃ c, ws.foldlM carryOut b = .ok c := by
  induction ws generalizing b with
  | nil => exact ⟨b, rfl⟩
  | cons w ws ih =>
      obtain ⟨id, now, rfl⟩ := h w List.mem_cons_self
      exact ih (b.expireItem id now) fun v mem => h v (List.mem_cons_of_mem _ mem)

/-- Carried out at once, the writes of a call do what they do one by one: either there
is no more than one, or none of them is refused. -/
theorem Drafted.record {b c : Backlog} {ws : List Write} (h : b.Drafted ws c) {α β : Type}
    (answer : α) : (c.record (none : Option (Scope Write β)) ⟨answer, ws⟩).2.1 = c.commit ws := by
  unfold Backlog.record
  dsimp only
  split
  · next d result => exact (commit_of_foldlM_eq_ok result).symm
  · next e result =>
      rcases h.few with few | expiries
      · match ws with
        | [] => rfl
        | [w] =>
            have alone : [w].foldlM carryOut c = c.carryOut w := by simp
            rw [alone] at result
            rw [commit, List.foldl_cons, List.foldl_nil, settle, result]
        | _ :: _ :: _ => exact absurd few (by simp)
      · obtain ⟨d, carried⟩ := foldlM_expiries c expiries
        rw [carried] at result
        cases result

theorem perform_eq_commit (op : Operation) (now : Int) (b : Backlog) :
    op.perform now b = (op.draft now b).2.commit (op.draft now b).1 :=
  (drafted op now b).record ()

theorem nextId_commit (b : Backlog) (ws : List Write) : (b.commit ws).nextId = b.nextId := by
  induction ws generalizing b with
  | nil => rfl
  | cons w ws ih => exact (ih (b.settle w)).trans (nextId_settle b w)

/-- No identity is handed out twice. -/
theorem nextId_le_perform (op : Operation) (now : Int) (b : Backlog) :
    b.nextId ≤ (op.perform now b).nextId := by
  rw [perform_eq_commit, nextId_commit]
  exact (drafted op now b).nextId_le

end Backlog

end RecurringWork
