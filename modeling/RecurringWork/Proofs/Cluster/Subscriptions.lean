import Mathlib.Data.List.Induction
import Mathlib.Data.List.Nodup
import RecurringWork.Cluster.Dispatcher

/-!
# RecurringWork.Proofs.Cluster.Subscriptions

**Which subscriptions there are, and which of them hear an event.** A dispatcher is told to
subscribe listeners and to remove subscriptions (`Dispatcher.Call`). A subscription is *live* if
it was made by one of these calls and no later call was to remove it (`Dispatcher.Live`), which
says nothing of lists or numbers that are kept. The subscriptions of a dispatcher are those that
are live, in the order in which they were made (`mem_subscriptions_after`,
`pairwise_subscriptions_after`).

An event is heard by the live subscriptions to its tags (`Dispatcher.hearers`). As its tags are
all different (`Event.Built`), so are these, and they stand in the order of the tags and then in
that of subscription (`pairwise_hearers`).
-/

namespace RecurringWork

/-! ### The tags of an event -/

namespace Event

/-- An event that was made fresh, and then given further tags and origins. -/
inductive Built : Event → Prop
  | ofKind (kind : EventKind) : Built (ofKind kind)
  | withCategory {e : Event} (built : Built e) (c : Category) : Built (e.withCategory c)
  | withOrigin {e : Event} (built : Built e) (node : Address) : Built (e.withOrigin node)

/-- **No event has a tag twice.** -/
theorem Built.nodup {e : Event} (built : e.Built) : e.categories.Nodup := by
  induction built with
  | ofKind kind => cases kind <;> simp [Event.ofKind, EventKind.categories]
  | @withCategory e _ c ih =>
      unfold Event.withCategory
      split
      · exact ih
      · next other =>
          refine List.nodup_append.mpr ⟨ih, List.nodup_singleton c, ?_⟩
          intro d mem d' new same
          rw [List.mem_singleton.mp new] at same
          exact other (List.contains_iff_mem.mpr (same ▸ mem))
  | withOrigin _ _ ih => exact ih

/-- One subscription hears of an event before another: its tag comes first, or it is for the same
tag and was made earlier. -/
def Sooner {α : Type} (e : Event) (s t : Subscription α) : Prop :=
  e.categories.idxOf s.category < e.categories.idxOf t.category ∨
    s.category = t.category ∧ s.number < t.number

end Event

namespace Dispatcher

/-! ### The calls of those who subscribe -/

/-- What a dispatcher is told. -/
inductive Call (α : Type)
  | subscribe (category : Category) (listener : α)
  | unsubscribe (number : Nat)

variable {α : Type} {calls : List (Call α)} {s : Subscription α}

def perform (d : Dispatcher α) : Call α → Dispatcher α
  | .subscribe c listener => (d.subscribe c listener).2
  | .unsubscribe number => (d.unsubscribe number).2

/-- The dispatcher after some calls, the first one first. -/
def after (calls : List (Call α)) : Dispatcher α := calls.foldl perform empty

/-- A subscription was made by one of the calls, which answered its number, and no later call was to
remove that number. -/
def Live (calls : List (Call α)) (s : Subscription α) : Prop :=
  ∃ earlier later, calls = earlier ++ .subscribe s.category s.listener :: later ∧
    s.number = ((after earlier).subscribe s.category s.listener).1 ∧
    .unsubscribe s.number ∉ later

theorem after_append (calls more : List (Call α)) :
    after (calls ++ more) = more.foldl perform (after calls) := List.foldl_append

theorem after_concat (calls : List (Call α)) (call : Call α) :
    after (calls ++ [call]) = (after calls).perform call := after_append calls [call]

/-- The last call leaves live what it does not remove, and what it makes. -/
theorem live_concat_iff {call : Call α} : Live (calls ++ [call]) s ↔
    Live calls s ∧ call ≠ .unsubscribe s.number ∨
      call = .subscribe s.category s.listener ∧ s.number = (after calls).next := by
  constructor
  · rintro ⟨earlier, later, split, number, kept⟩
    rcases List.eq_nil_or_concat later with rfl | ⟨rest, last, rfl⟩
    · obtain ⟨rfl, same⟩ := List.append_inj' split rfl
      exact .inr ⟨List.singleton_inj.mp same, number⟩
    · rw [List.concat_eq_append, ← List.cons_append, ← List.append_assoc] at split
      obtain ⟨rfl, same⟩ := List.append_inj' split rfl
      rw [List.concat_eq_append, List.mem_append, not_or] at kept
      refine .inl ⟨⟨earlier, rest, rfl, number, kept.1⟩, ?_⟩
      rintro rfl
      exact kept.2 (List.singleton_inj.mp same ▸ List.mem_singleton_self _)
  · rintro (⟨⟨earlier, later, rfl, number, kept⟩, other⟩ | ⟨rfl, number⟩)
    · refine ⟨earlier, later ++ [call], by simp, number, ?_⟩
      rw [List.mem_append, List.mem_singleton, not_or]
      exact ⟨kept, other.symm⟩
    · exact ⟨calls, [], rfl, number, List.not_mem_nil⟩

/-- **A dispatcher keeps the subscriptions that are live**, -/
theorem mem_subscriptions_after : s ∈ (after calls).subscriptions ↔ Live calls s := by
  induction calls using List.reverseRecOn with
  | nil =>
      refine ⟨fun mem => absurd mem List.not_mem_nil, ?_⟩
      rintro ⟨earlier, later, split, -⟩
      cases earlier <;> cases split
  | append_singleton calls call ih =>
      rw [after_concat, live_concat_iff, ← ih]
      cases call with
      | subscribe c listener =>
          obtain ⟨number, category, made⟩ := s
          simp only [perform, subscribe, List.mem_append, List.mem_singleton,
            Subscription.mk.injEq, ne_eq, reduceCtorEq, not_false_eq_true, and_true,
            Call.subscribe.injEq]
          refine or_congr_right ⟨?_, ?_⟩
          · rintro ⟨rfl, rfl, rfl⟩
            exact ⟨⟨rfl, rfl⟩, rfl⟩
          · rintro ⟨⟨rfl, rfl⟩, rfl⟩
            exact ⟨rfl, rfl, rfl⟩
      | unsubscribe number =>
          simp only [perform, unsubscribe, List.mem_filter, bne_iff_ne, ne_eq, reduceCtorEq,
            false_and, or_false, Call.unsubscribe.injEq]
          exact and_congr_right fun _ => not_congr eq_comm

/-- **and keeps them in the order in which they were made.** -/
theorem pairwise_subscriptions_after (calls : List (Call α)) :
    (after calls).subscriptions.Pairwise (fun s t => s.number < t.number) ∧
      ∀ s ∈ (after calls).subscriptions, s.number < (after calls).next := by
  induction calls using List.reverseRecOn with
  | nil => exact ⟨List.Pairwise.nil, fun s mem => absurd mem List.not_mem_nil⟩
  | append_singleton calls call ih =>
      obtain ⟨ordered, below⟩ := ih
      rw [after_concat]
      cases call with
      | subscribe c listener =>
          refine ⟨List.pairwise_append.mpr ⟨ordered, List.pairwise_singleton _ _, ?_⟩, ?_⟩
          · rintro s mem t new
            rw [List.mem_singleton.mp new]
            exact below s mem
          · intro s mem
            rcases List.mem_append.mp mem with old | new
            · exact Nat.lt_succ_of_lt (below s old)
            · rw [List.mem_singleton.mp new]
              exact Nat.lt_succ_self _
      | unsubscribe number =>
          exact ⟨ordered.filter _, fun s mem => below s (List.mem_filter.mp mem).1⟩

theorem next_le_foldl (d : Dispatcher α) (calls : List (Call α)) :
    d.next ≤ (calls.foldl perform d).next := by
  induction calls generalizing d with
  | nil => exact Nat.le_refl _
  | cons call rest ih =>
      refine Nat.le_trans ?_ (ih _)
      cases call with
      | subscribe c listener => exact Nat.le_succ _
      | unsubscribe number => exact Nat.le_refl _

/-- **No number is given twice.** -/
theorem number_lt_of_later {earlier later : List (Call α)} (c c' : Category)
    (listener listener' : α) : ((after earlier).subscribe c listener).1 <
      ((after (earlier ++ .subscribe c listener :: later)).subscribe c' listener').1 := by
  rw [after_append]
  exact next_le_foldl ((after earlier).perform (.subscribe c listener)) later

/-- A number is removed if and only if it is that of a live subscription. -/
theorem unsubscribe_eq_true_iff {number : Nat} : ((after calls).unsubscribe number).1 = true ↔
    ∃ s, Live calls s ∧ s.number = number := by
  simp only [unsubscribe, List.any_eq_true, beq_iff_eq, mem_subscriptions_after]

/-! ### Who hears an event -/

/-- The subscriptions that hear an event, in order. -/
def hearers (d : Dispatcher α) (e : Event) : List (Subscription α) :=
  e.categories.flatMap d.subscribers

theorem audience_eq (d : Dispatcher α) (e : Event) :
    d.audience e = (d.hearers e).map Subscription.listener := List.map_flatMap.symm

theorem mem_hearers {d : Dispatcher α} {e : Event} :
    s ∈ d.hearers e ↔ s ∈ d.subscriptions ∧ s.category ∈ e.categories := by
  simp only [hearers, subscribers, List.mem_flatMap, List.mem_filter, beq_iff_eq]
  constructor
  · rintro ⟨c, tagged, mem, rfl⟩
    exact ⟨mem, tagged⟩
  · exact fun h => ⟨s.category, h.2, h.1, rfl⟩

/-- **Subscriptions hear an event in the order of its tags, and then in their own.** -/
theorem pairwise_hearers {d : Dispatcher α}
    (ordered : d.subscriptions.Pairwise fun s t => s.number < t.number) {e : Event}
    (built : e.Built) : (d.hearers e).Pairwise e.Sooner := by
  refine List.pairwise_flatMap.mpr ⟨fun c _ => ?_, ?_⟩
  · refine List.Pairwise.imp_of_mem (fun {s t} first second lt => ?_) (ordered.filter _)
    have same := (List.mem_filter.mp first).2
    have same' := (List.mem_filter.mp second).2
    rw [beq_iff_eq] at same same'
    exact .inr ⟨same.trans same'.symm, lt⟩
  · refine List.pairwise_iff_getElem.mpr fun i j low high lt s first t second => ?_
    have same := (List.mem_filter.mp first).2
    have same' := (List.mem_filter.mp second).2
    rw [beq_iff_eq] at same same'
    left
    rw [same, same', built.nodup.idxOf_getElem, built.nodup.idxOf_getElem]
    exact lt

theorem nodup_hearers {d : Dispatcher α}
    (ordered : d.subscriptions.Pairwise fun s t => s.number < t.number) {e : Event}
    (built : e.Built) : (d.hearers e).Nodup := by
  refine (pairwise_hearers ordered built).imp ?_
  rintro s t (sooner | ⟨-, sooner⟩) rfl
  · exact Nat.lt_irrefl _ sooner
  · exact Nat.lt_irrefl _ sooner

end Dispatcher

end RecurringWork
