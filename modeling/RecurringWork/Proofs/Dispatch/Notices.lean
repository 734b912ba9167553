import RecurringWork.Dispatch.Writer
import RecurringWork.Proofs.Backlog.Dates
import RecurringWork.Proofs.Backlog.Ledger

/-!
# RecurringWork.Proofs.Dispatch.Notices

**What writers promise before anybody is told.** A writer adds items in a transaction
and leaves a `Notice` there, which says which items they are and when the first of them
is due. The notice is delivered after the commit; until then, and while its items are
stored one by one, transactions of other writers and runs of the worker go on.

Writers change a ledger by `Ledger.Posts`. Two things hold of the notices all the while:

* a notice that is still in a transaction lists items that are staged there, or stored,
  and none that is staged elsewhere; one that was delivered lists no staged item at all
  (`Ledger.Noticed`);
* no stored item of a notice is due before the notice says so, unless it is heeded
  anyhow (`Ledger.Kept`). What it takes to be heeded is left open here: `heeded t` is
  anything that is true of all times later than `t` if it is true of `t`.
-/

namespace RecurringWork

/-- What a writer is going to tell. -/
structure Notice where
  /-- When the first of the items is due. -/
  due : Int
  /-- The items that were added. -/
  ids : List Nat

/-- The item has a time, and not one of those that stand for something else. -/
def WorkItem.Timely (i : WorkItem) : Prop :=
  ∃ t, i.scheduleTime = some t ∧ Instant.minimum ≤ t ∧ t < Instant.maximum

theorem WorkItem.Timely.dated {i : WorkItem} (h : i.Timely) : i.Dated := by
  obtain ⟨t, due, -⟩ := h
  rw [Dated, due]
  rfl

namespace Backlog

theorem staged_announced {β : Type} (announce : Int → β) (stored : List WorkItem)
    (s : Scope Write β) : (announced announce stored s).staged = s.staged := by
  unfold announced
  split <;> rfl

theorem doomed_announced {β : Type} (announce : Int → β) (stored : List WorkItem)
    (s : Scope Write β) : (announced announce stored s).doomed = s.doomed := by
  unfold announced
  split <;> rfl

end Backlog

namespace Ledger

/-- One thing that writers do, except deliver a notice. -/
inductive Posts : Ledger Notice → Ledger Notice → Prop
  | turns {l m : Ledger Notice} : Turns l m → Posts l m
  /-- An item is added in a transaction, or refused. -/
  | adds {l m : Ledger Notice} {item : WorkItem} {now : Int} :
      (∀ i, Write.insert i ∈ ((Operation.add item).draft now l.backlog).1 → i.Timely) →
      Inside (.calls (.add item) now) l m → Posts l m
  /-- A writer leaves the notice for items that it has added. -/
  | announces {b : Backlog} {before after landing : List (Scope Write Notice)}
      {s : Scope Write Notice} {stored : List WorkItem} :
      (∀ i ∈ stored, Write.insert i ∈ s.staged) →
      Posts ⟨b, before ++ s :: after, landing⟩
        ⟨b, before ++ Backlog.announced (fun due => ⟨due, stored.map WorkItem.id⟩) stored s :: after,
          landing⟩
  /-- A writer has failed in the transaction of another one. -/
  | dooms {l m : Ledger Notice} : Inside .dooms l m → Posts l m
  /-- An item is stored. -/
  | lands {l m : Ledger Notice} {w : Write} : Lands w l m → Posts l m

/-- What writers do, others could do as well. -/
theorem Posts.steps {l m : Ledger Notice} (h : Posts l m) : Steps l m := by
  cases h with
  | turns turn => exact .single (.turns turn)
  | adds _ call => exact .single (.inside call)
  | @announces b before after landing s stored _ =>
      unfold Backlog.announced
      split
      · next due _ =>
          exact .single (.inside (@Inside.intro Notice (.listens ⟨due, stored.map WorkItem.id⟩) b
            before after landing s))
      · exact .refl
  | dooms fails => exact .single (.inside fails)
  | lands landing => exact .single (.lands landing)

/-! ### Transactions in any order -/

theorem reserved_eq (l : Ledger Notice) : l.reserved = reservedBy l.all :=
  (reservedBy_append l.scopes l.landing).symm

theorem mem_reservedBy {scopes : List (Scope Write Notice)} {id : Nat} :
    id ∈ reservedBy scopes ↔ ∃ s ∈ scopes, id ∈ Backlog.freshOf s.staged := List.mem_flatMap

theorem mem_freshOf {ws : List Write} {i : WorkItem} (mem : Write.insert i ∈ ws) :
    i.id ∈ Backlog.freshOf ws :=
  List.mem_flatMap.mpr ⟨_, mem, List.mem_singleton_self i.id⟩

/-- Where identities are reserved only once, they tell inserted items apart. -/
theorem insert_inj {ws : List Write} (distinct : (Backlog.freshOf ws).Nodup) {i j : WorkItem}
    (first : Write.insert i ∈ ws) (second : Write.insert j ∈ ws) (same : i.id = j.id) : i = j := by
  induction ws with
  | nil => cases first
  | cons w ws ih =>
      obtain ⟨-, later, apart⟩ := List.nodup_append.mp distinct
      rcases List.mem_cons.mp first with rfl | first'
      · rcases List.mem_cons.mp second with equal | second'
        · exact (Write.insert.inj equal).symm
        · exact absurd same (apart _ (List.mem_singleton_self i.id) _ (mem_freshOf second'))
      · rcases List.mem_cons.mp second with rfl | second'
        · exact absurd same.symm (apart _ (List.mem_singleton_self j.id) _ (mem_freshOf first'))
        · exact ih later first' second'

/-! ### The notices of a transaction -/

/-- What is true of a transaction of writers. Of the identities in `reserved` nothing is
stored yet, and those from `bound` on have not been handed out. -/
structure Truthful (s : Scope Write Notice) (reserved : List Nat) (bound : Nat) : Prop where
  inserts : ∀ w ∈ s.staged, ∃ i, w = .insert i ∧ i.Timely
  ordinary : ∀ n ∈ s.listeners, Instant.minimum ≤ n.due ∧ n.due < Instant.maximum
  known : ∀ n ∈ s.listeners, ∀ id ∈ n.ids, id < bound
  own : ∀ n ∈ s.listeners, ∀ id ∈ n.ids, id ∈ reserved → id ∈ Backlog.freshOf s.staged
  early : ∀ n ∈ s.listeners, ∀ i t, Write.insert i ∈ s.staged → i.id ∈ n.ids →
    i.scheduleTime = some t → n.due ≤ t

theorem truthful_empty (reserved : List Nat) (bound : Nat) :
    Truthful .empty reserved bound where
  inserts := fun _ mem => by cases mem
  ordinary := fun _ mem => by cases mem
  known := fun _ mem => by cases mem
  own := fun _ mem => by cases mem
  early := fun _ mem => by cases mem

/-- What others reserve is none of what the notices list. -/
theorem Truthful.mono {s : Scope Write Notice} {reserved further : List Nat} {bound beyond : Nat}
    (h : Truthful s reserved bound) (le : bound ≤ beyond)
    (old : ∀ id ∈ further, id < bound → id ∈ reserved) : Truthful s further beyond where
  inserts := h.inserts
  ordinary := h.ordinary
  known := fun n mem id listed => Nat.lt_of_lt_of_le (h.known n mem id listed) le
  own := fun n mem id listed here => h.own n mem id listed (old id here (h.known n mem id listed))
  early := h.early

/-- An item is added under an identity that no notice lists. -/
theorem Truthful.stage {s : Scope Write Notice} {reserved : List Nat} {bound : Nat}
    (h : Truthful s reserved bound) {i : WorkItem} (timely : i.Timely) (fresh : i.id = bound) :
    Truthful (s.stage [.insert i]) (bound :: reserved) (bound + 1) where
  inserts := by
    intro w mem
    rcases List.mem_append.mp mem with mem | mem
    · exact h.inserts w mem
    · exact ⟨i, List.mem_singleton.mp mem, timely⟩
  ordinary := h.ordinary
  known := fun n mem id listed => Nat.lt_succ_of_lt (h.known n mem id listed)
  own := by
    intro n mem id listed here
    have lower := h.known n mem id listed
    rw [Scope.staged_stage, Backlog.freshOf_append]
    rcases List.mem_cons.mp here with rfl | here
    · exact absurd lower (Nat.lt_irrefl _)
    · exact List.mem_append_left _ (h.own n mem id listed here)
  early := by
    intro n mem j t staged listed due
    rcases List.mem_append.mp staged with staged | staged
    · exact h.early n mem j t staged listed due
    · -- No notice could list an identity that had not been handed out.
      cases List.mem_singleton.mp staged
      exact absurd (h.known n mem i.id listed) (by omega)

/-- A notice is as early as the first of its items, and lists only what is staged with
it. -/
theorem Truthful.announce {s : Scope Write Notice} {reserved : List Nat} {bound : Nat}
    (h : Truthful s reserved bound) {stored : List WorkItem}
    (staged : ∀ i ∈ stored, Write.insert i ∈ s.staged)
    (lower : ∀ id ∈ Backlog.freshOf s.staged, id < bound)
    (distinct : (Backlog.freshOf s.staged).Nodup) :
    Truthful (Backlog.announced (fun due => ⟨due, stored.map WorkItem.id⟩) stored s) reserved
      bound := by
  unfold Backlog.announced
  split
  · next due first =>
      obtain ⟨attained, earliest⟩ := Backlog.earliest_eq_some_inv first
      have listed : ∀ id ∈ stored.map WorkItem.id, id ∈ Backlog.freshOf s.staged := by
        intro id mem
        obtain ⟨i, here, rfl⟩ := List.mem_map.mp mem
        exact mem_freshOf (staged i here)
      refine ⟨h.inserts, ?_, ?_, ?_, ?_⟩
      · intro n mem
        rcases List.mem_append.mp mem with mem | mem
        · exact h.ordinary n mem
        · -- The notice is due with one of its items.
          cases List.mem_singleton.mp mem
          obtain ⟨i, here, time⟩ := List.mem_filterMap.mp attained
          obtain ⟨j, same, t, timed, low, high⟩ := h.inserts _ (staged i here)
          cases same
          rw [time] at timed
          cases timed
          exact ⟨low, high⟩
      · intro n mem id here
        rcases List.mem_append.mp mem with mem | mem
        · exact h.known n mem id here
        · cases List.mem_singleton.mp mem
          exact lower id (listed id here)
      · intro n mem id here reserved
        rcases List.mem_append.mp mem with mem | mem
        · exact h.own n mem id here reserved
        · cases List.mem_singleton.mp mem
          exact listed id here
      · intro n mem i t here among time
        rcases List.mem_append.mp mem with mem | mem
        · exact h.early n mem i t here among time
        · cases List.mem_singleton.mp mem
          obtain ⟨j, inside, same⟩ := List.mem_map.mp among
          cases insert_inj distinct (staged j inside) here same
          exact earliest t (List.mem_filterMap.mpr ⟨i, inside, time⟩)
  · exact h

/-- An item that is stored is not reserved any more. -/
theorem Truthful.land {doomed : Bool} {w : Write} {ws : List Write} {listeners : List Notice}
    {reserved : List Nat} {bound : Nat}
    (h : Truthful ⟨doomed, w :: ws, listeners⟩ (w.fresh ++ reserved) bound)
    (distinct : (w.fresh ++ reserved).Nodup) : Truthful ⟨doomed, ws, listeners⟩ reserved bound where
  inserts := fun v mem => h.inserts v (List.mem_cons_of_mem w mem)
  ordinary := h.ordinary
  known := h.known
  own := by
    intro n mem id listed here
    have own := h.own n mem id listed (List.mem_append_right _ here)
    rcases List.mem_append.mp own with now | later
    · exact absurd rfl ((List.nodup_append.mp distinct).2.2 id now id here)
    · exact later
  early := fun n mem i t staged => h.early n mem i t (List.mem_cons_of_mem w staged)

/-! ### All notices -/

/-- Notices list what their own transaction reserves, if it is reserved at all, and those
that were delivered list nothing that is reserved. -/
structure Noticed (heard : List Notice) (scopes : List (Scope Write Notice)) (bound : Nat) :
    Prop where
  truthful : ∀ s ∈ scopes, Truthful s (reservedBy scopes) bound
  known : ∀ n ∈ heard, ∀ id ∈ n.ids, id < bound
  landed : ∀ n ∈ heard, ∀ id ∈ n.ids, id ∉ reservedBy scopes

variable {heard : List Notice} {scopes rest : List (Scope Write Notice)}
  {s s' : Scope Write Notice} {bound beyond : Nat}

theorem Noticed.perm {others : List (Scope Write Notice)} (h : Noticed heard scopes bound)
    (perm : scopes.Perm others) : Noticed heard others bound where
  truthful := by
    intro s mem
    refine (h.truthful s (perm.symm.subset mem)).mono (Nat.le_refl _) fun id here _ => ?_
    exact (perm.flatMap_right _).symm.subset here
  known := h.known
  landed := fun n mem id listed here =>
    h.landed n mem id listed ((perm.flatMap_right _).symm.subset here)

/-- One transaction changes, and reserves nothing that was handed out before. -/
theorem Noticed.replace (h : Noticed heard (s :: rest) bound) (le : bound ≤ beyond)
    (old : ∀ id ∈ Backlog.freshOf s'.staged, id < bound → id ∈ Backlog.freshOf s.staged)
    (own : Truthful s' (reservedBy (s' :: rest)) beyond) : Noticed heard (s' :: rest) beyond := by
  have sub : ∀ id ∈ reservedBy (s' :: rest), id < bound → id ∈ reservedBy (s :: rest) := by
    intro id mem lower
    rcases List.mem_append.mp mem with here | there
    · exact List.mem_append_left _ (old id here lower)
    · exact List.mem_append_right _ there
  refine ⟨fun t mem => ?_, fun n mem id listed => ?_, fun n mem id listed here => ?_⟩
  · rcases List.mem_cons.mp mem with rfl | mem
    · exact own
    · exact (h.truthful t (List.mem_cons_of_mem s mem)).mono le sub
  · exact Nat.lt_of_lt_of_le (h.known n mem id listed) le
  · exact h.landed n mem id listed (sub id here (h.known n mem id listed))

theorem Noticed.drop (h : Noticed heard (s :: rest) bound) : Noticed heard rest bound where
  truthful := fun t mem => (h.truthful t (List.mem_cons_of_mem s mem)).mono (Nat.le_refl _)
    fun _ here _ => List.mem_append_right _ here
  known := h.known
  landed := fun n mem id listed here => h.landed n mem id listed (List.mem_append_right _ here)

theorem Noticed.open (h : Noticed heard rest bound) : Noticed heard (.empty :: rest) bound where
  truthful := by
    intro t mem
    rcases List.mem_cons.mp mem with rfl | mem
    · exact truthful_empty _ _
    · exact h.truthful t mem
  known := h.known
  landed := h.landed

/-- By the time a notice is delivered, none of its items is staged any more. -/
theorem Noticed.deliver {doomed : Bool} {n : Notice} {listeners : List Notice}
    (h : Noticed heard (⟨doomed, [], n :: listeners⟩ :: rest) bound) :
    Noticed (n :: heard) (⟨doomed, [], listeners⟩ :: rest) bound := by
  have truthful := h.truthful _ List.mem_cons_self
  have kept : Noticed heard (⟨doomed, [], listeners⟩ :: rest) bound :=
    h.replace (Nat.le_refl _) (fun _ here _ => here)
      { inserts := truthful.inserts
        ordinary := fun m mem => truthful.ordinary m (List.mem_cons_of_mem n mem)
        known := fun m mem => truthful.known m (List.mem_cons_of_mem n mem)
        own := fun m mem => truthful.own m (List.mem_cons_of_mem n mem)
        early := fun m mem => truthful.early m (List.mem_cons_of_mem n mem) }
  refine ⟨kept.truthful, fun m mem => ?_, fun m mem id listed here => ?_⟩
  · rcases List.mem_cons.mp mem with rfl | mem
    · exact truthful.known m List.mem_cons_self
    · exact h.known m mem
  · rcases List.mem_cons.mp mem with rfl | mem
    · -- Its own transaction would have to reserve the identity, and has no writes left.
      cases truthful.own m List.mem_cons_self id listed here
    · exact h.landed m mem id listed here

/-! ### Items and their notices -/

/-- The items of a slice that wait are heeded in time if their notice has been delivered,
and if not then they are at least not due before it says. -/
def Kept (heeded : Int → Prop) (key : PartitionKey) (heard : List Notice) (b : Backlog)
    (scopes : List (Scope Write Notice)) : Prop :=
  ∀ id i t, b.get? id = some i → i.state = .new → key.selects i → i.scheduleTime = some t →
    (∀ n ∈ heard, id ∈ n.ids → heeded t) ∧
      ∀ s ∈ scopes, ∀ n ∈ s.listeners, id ∈ n.ids → n.due ≤ t ∨ heeded t

variable {heeded : Int → Prop} {key : PartitionKey} {b c : Backlog}

/-- Nothing new is stored, and there is no new notice for what is stored. -/
theorem Kept.mono {others : List (Scope Write Notice)} (h : Kept heeded key heard b scopes)
    (same : ∀ id, c.get? id = b.get? id)
    (old : ∀ t ∈ others, ∀ n ∈ t.listeners, (∃ s ∈ scopes, n ∈ s.listeners) ∨
      ∀ id ∈ n.ids, b.get? id = none) : Kept heeded key heard c others := by
  intro id i t found new mine time
  rw [same] at found
  obtain ⟨told, untold⟩ := h id i t found new mine time
  refine ⟨told, fun t mem n here listed => ?_⟩
  rcases old t mem n here with ⟨s, mem, here⟩ | absent
  · exact untold s mem n here listed
  · rw [absent id listed] at found
    cases found

theorem Kept.perm {others : List (Scope Write Notice)} (h : Kept heeded key heard b scopes)
    (perm : scopes.Perm others) : Kept heeded key heard b others :=
  h.mono (fun _ => rfl) fun t mem _ here => .inl ⟨t, perm.symm.subset mem, here⟩

/-- The items of a notice are heeded if the notice itself is. -/
theorem Kept.deliver {doomed : Bool} {n : Notice} {listeners : List Notice}
    (h : Kept heeded key heard b (⟨doomed, [], n :: listeners⟩ :: rest))
    (heeds : ∀ t, n.due ≤ t → heeded t) :
    Kept heeded key (n :: heard) b (⟨doomed, [], listeners⟩ :: rest) := by
  intro id i t found new mine time
  obtain ⟨told, untold⟩ := h id i t found new mine time
  refine ⟨fun m mem listed => ?_, fun u mem m here listed => ?_⟩
  · rcases List.mem_cons.mp mem with rfl | mem
    · rcases untold _ List.mem_cons_self m List.mem_cons_self listed with early | done
      · exact heeds t early
      · exact done
    · exact told m mem listed
  · rcases List.mem_cons.mp mem with rfl | mem
    · exact untold _ List.mem_cons_self m (List.mem_cons_of_mem n here) listed
    · exact untold u (List.mem_cons_of_mem _ mem) m here listed

/-- An item that is stored has a notice in its own transaction, if it has one. -/
theorem Kept.land {doomed : Bool} {w : Write} {ws : List Write} {listeners : List Notice}
    (h : Kept heeded key heard b (⟨doomed, w :: ws, listeners⟩ :: rest))
    (noticed : Noticed heard (⟨doomed, w :: ws, listeners⟩ :: rest) bound)
    (distinct : (reservedBy (⟨doomed, w :: ws, listeners⟩ :: rest)).Nodup) :
    Kept heeded key heard (b.settle w) (⟨doomed, ws, listeners⟩ :: rest) := by
  have truthful := noticed.truthful _ List.mem_cons_self
  obtain ⟨i, rfl, -⟩ := truthful.inserts w List.mem_cons_self
  have reserved : i.id ∈ reservedBy (⟨doomed, .insert i :: ws, listeners⟩ :: rest) :=
    List.mem_cons_self
  intro id j t found new mine time
  have stores : b.settle (.insert i) = b.put i := rfl
  rw [stores, Backlog.get?_put] at found
  by_cases here : i.id = id
  · rw [if_pos here] at found
    cases found
    subst here
    refine ⟨fun n mem listed => absurd reserved (noticed.landed n mem i.id listed), ?_⟩
    intro u mem n told listed
    rcases List.mem_cons.mp mem with rfl | mem
    · exact .inl (truthful.early n told i t List.mem_cons_self listed time)
    · -- No other transaction reserves the identity.
      have other := noticed.truthful u (List.mem_cons_of_mem _ mem)
      have there := other.own n told i.id listed reserved
      have once := (List.nodup_cons.mp distinct).1
      exact absurd (List.mem_append_right _ (mem_reservedBy.mpr ⟨u, mem, there⟩)) once
  · rw [if_neg here] at found
    obtain ⟨told, untold⟩ := h id j t found new mine time
    refine ⟨told, fun u mem n here listed => ?_⟩
    rcases List.mem_cons.mp mem with rfl | mem
    · exact untold _ List.mem_cons_self n here listed
    · exact untold u (List.mem_cons_of_mem _ mem) n here listed

/-! ### Every ledger of writers -/

/-- What writers have promised is kept. -/
structure Honours (l : Ledger Notice) (heeded : Int → Prop) (key : PartitionKey)
    (heard : List Notice) : Prop where
  noticed : Noticed heard l.all l.backlog.nextId
  kept : Kept heeded key heard l.backlog l.all
  dated : l.backlog.Dated

theorem Honours.of_perm {l : Ledger Notice} (perm : scopes.Perm l.all)
    (noticed : Noticed heard scopes l.backlog.nextId)
    (kept : Kept heeded key heard l.backlog scopes) (dated : l.backlog.Dated) :
    l.Honours heeded key heard :=
  ⟨noticed.perm perm, kept.perm perm, dated⟩

theorem honours_empty (maxDeferCount : Nat) :
    (empty maxDeferCount : Ledger Notice).Honours heeded key [] where
  noticed := by
    constructor <;> (intro _ mem; cases mem)
  kept := by
    intro id i t found
    cases found
  dated := Backlog.dated_empty maxDeferCount

theorem Honours.imp {l : Ledger Notice} {sooner : Int → Prop} (h : l.Honours heeded key heard)
    (weaker : ∀ t, heeded t → sooner t) : l.Honours sooner key heard where
  noticed := h.noticed
  kept := by
    intro id i t found new mine time
    obtain ⟨told, untold⟩ := h.kept id i t found new mine time
    exact ⟨fun n mem listed => weaker t (told n mem listed), fun s mem n here listed =>
      (untold s mem n here listed).imp_right (weaker t)⟩
  dated := h.dated

/-- An item is added under the next identity, or nothing is drafted. -/
theorem draft_add_inv (item : WorkItem) (now : Int) (b : Backlog) :
    (((Operation.add item).draft now b).1 = [] ∧
        ((Operation.add item).draft now b).2.nextId = b.nextId) ∨
      ∃ i, i.id = b.nextId ∧ ((Operation.add item).draft now b).1 = [.insert i] ∧
        ((Operation.add item).draft now b).2.nextId = b.nextId + 1 := by
  unfold Operation.draft Backlog.add
  dsimp only
  split
  · exact .inl ⟨rfl, rfl⟩
  · next due plans _ => exact .inr ⟨b.admitted now due item, rfl, rfl, rfl⟩

theorem Honours.adds {before after landing : List (Scope Write Notice)} {item : WorkItem}
    {now : Int} (h : (⟨b, before ++ s :: after, landing⟩ : Ledger Notice).Honours heeded key heard)
    (timely : ∀ i, Write.insert i ∈ ((Operation.add item).draft now b).1 → i.Timely) :
    (⟨((Operation.add item).draft now b).2,
      before ++ s.stage ((Operation.add item).draft now b).1 :: after, landing⟩ :
      Ledger Notice).Honours heeded key heard := by
  have draft := Backlog.drafted (.add item) now b
  have noticed := h.noticed.perm (all_open b before after landing s)
  have kept := h.kept.perm (all_open b before after landing s)
  have truthful := noticed.truthful _ List.mem_cons_self
  have old : ∀ t ∈ s.stage ((Operation.add item).draft now b).1 ::
        (⟨b, before ++ after, landing⟩ : Ledger Notice).all, ∀ n ∈ t.listeners,
      (∃ u ∈ s :: (⟨b, before ++ after, landing⟩ : Ledger Notice).all, n ∈ u.listeners) ∨
        ∀ id ∈ n.ids, b.get? id = none := by
    intro t mem n here
    rcases List.mem_cons.mp mem with rfl | mem
    · exact .inl ⟨s, List.mem_cons_self, here⟩
    · exact .inl ⟨t, List.mem_cons_of_mem s mem, here⟩
  refine .of_perm (all_open _ before after landing _).symm ?_ (kept.mono draft.get? old)
    (h.dated.of_items draft.items)
  -- What is left is the promise of the notices: a refused item stages nothing, and one that
  -- is accepted takes an identity that nobody has seen.
  obtain ⟨none, same⟩ | ⟨i, fresh, one, used⟩ := draft_add_inv item now b
  · rw [none, same]
    rw [Scope.stage_nil]
    exact noticed.replace (Nat.le_refl _) (fun _ here _ => here) truthful
  · rw [one, used]
    rw [one] at timely
    refine noticed.replace (Nat.le_succ _) (fun id here lower => ?_) ?_
    · rw [Scope.staged_stage, Backlog.freshOf_append] at here
      rcases List.mem_append.mp here with here | here
      · exact here
      · rw [List.mem_singleton.mp here, fresh] at lower
        exact absurd lower (Nat.lt_irrefl _)
    · refine (truthful.stage (timely i (List.mem_singleton_self _)) fresh).mono (Nat.le_refl _)
        fun id here _ => ?_
      rw [reservedBy_cons, Scope.staged_stage, Backlog.freshOf_append] at here
      rcases List.mem_append.mp here with here | here
      · rcases List.mem_append.mp here with here | here
        · exact List.mem_cons_of_mem _ (List.mem_append_left _ here)
        · rw [List.mem_singleton.mp here, fresh]
          exact List.mem_cons_self
      · exact List.mem_cons_of_mem _ (List.mem_append_right _ here)

theorem Honours.announces {before after landing : List (Scope Write Notice)}
    {stored : List WorkItem}
    (h : (⟨b, before ++ s :: after, landing⟩ : Ledger Notice).Honours heeded key heard)
    (sound : (⟨b, before ++ s :: after, landing⟩ : Ledger Notice).Sound)
    (staged : ∀ i ∈ stored, Write.insert i ∈ s.staged) :
    (⟨b, before ++ Backlog.announced (fun due => ⟨due, stored.map WorkItem.id⟩) stored s :: after,
      landing⟩ : Ledger Notice).Honours heeded key heard := by
  have noticed := h.noticed.perm (all_open b before after landing s)
  have kept := h.kept.perm (all_open b before after landing s)
  have truthful := noticed.truthful _ List.mem_cons_self
  have perm := all_open b before after landing s
  rw [Sound, reserved_eq] at sound
  have reserves := sound.subperm (perm.flatMap_right _).symm.subperm
  have writes := Backlog.staged_announced (fun due => ⟨due, stored.map WorkItem.id⟩) stored s
  refine .of_perm (all_open _ before after landing _).symm ?_ (kept.mono (fun _ => rfl) ?_) h.dated
  · refine noticed.replace (Nat.le_refl _) (fun id here _ => writes ▸ here) ?_
    rw [reservedBy_cons, writes, ← reservedBy_cons]
    refine truthful.announce staged (fun id mem => ?_) (List.nodup_append.mp reserves.distinct).1
    exact reserves.reserved_lt (List.mem_append_left _ mem)
  · intro t mem n here
    rcases List.mem_cons.mp mem with rfl | mem
    · unfold Backlog.announced at here
      split at here
      · rcases List.mem_append.mp here with here | here
        · exact .inl ⟨s, List.mem_cons_self, here⟩
        · -- What the new notice lists is not stored yet.
          refine .inr fun id listed => ?_
          rw [List.mem_singleton.mp here] at listed
          obtain ⟨i, inside, rfl⟩ := List.mem_map.mp listed
          exact reserves.reserved_absent (List.mem_append_left _ (mem_freshOf (staged i inside)))
      · exact .inl ⟨s, List.mem_cons_self, here⟩
    · exact .inl ⟨t, List.mem_cons_of_mem s mem, here⟩

/-- What concerns none of the items and none of the notices. -/
theorem Honours.quiet {others : List (Scope Write Notice)}
    {l m : Ledger Notice} (h : l.Honours heeded key heard) (before : l.all.Perm scopes)
    (after : others.Perm m.all) (same : m.backlog = l.backlog)
    (noticed : Noticed heard scopes l.backlog.nextId → Noticed heard others l.backlog.nextId)
    (old : ∀ t ∈ others, ∀ n ∈ t.listeners, ∃ s ∈ scopes, n ∈ s.listeners) :
    m.Honours heeded key heard := by
  refine .of_perm after ?_ ?_ ?_
  · rw [same]
    exact noticed (h.noticed.perm before)
  · rw [same]
    exact (h.kept.perm before).mono (fun _ => rfl) fun t mem n here => .inl (old t mem n here)
  · rw [same]
    exact h.dated

/-- Transactions that begin or come to an end break no promise. -/
theorem Honours.turns {l m : Ledger Notice} (h : l.Honours heeded key heard) (turn : Turns l m) :
    m.Honours heeded key heard := by
  cases turn with
  | @opens b scopes landing =>
      refine h.quiet (.refl _) (.refl _) rfl Noticed.open fun t mem n here => ?_
      rcases List.mem_cons.mp mem with rfl | mem
      · cases here
      · exact ⟨t, mem, here⟩
  | @aborts b before after landing s =>
      exact h.quiet (all_open b before after landing s) (.refl _) rfl Noticed.drop
        fun t mem n here => ⟨t, List.mem_cons_of_mem s mem, here⟩
  | @commits b before after landing s t verdict =>
      obtain ⟨-, -, rfl⟩ := Scope.verdict_eq_ok_iff.mp verdict
      have moved : (s :: ((before ++ after) ++ landing)).Perm
          (⟨b, before ++ after, s :: landing⟩ : Ledger Notice).all := List.perm_middle.symm
      exact h.quiet (all_open b before after landing s) moved rfl id
        fun t mem n here => ⟨t, mem, here⟩
  | @ends b scopes before after doomed =>
      exact h.quiet (all_landing b scopes before after _) (.refl _) rfl Noticed.drop
        fun t mem n here => ⟨t, List.mem_cons_of_mem _ mem, here⟩

/-- A transaction that fails breaks no promise. -/
theorem Honours.dooms {l m : Ledger Notice} (h : l.Honours heeded key heard)
    (fails : Inside .dooms l m) : m.Honours heeded key heard := by
  cases fails with
  | @intro b before after landing s =>
      refine h.quiet (all_open b before after landing s)
        (all_open b before after landing s.doom).symm rfl (fun noticed => ?_) fun t mem n here => ?_
      · have truthful := noticed.truthful s List.mem_cons_self
        exact noticed.replace (Nat.le_refl _) (fun _ here _ => here)
          ⟨truthful.inserts, truthful.ordinary, truthful.known, truthful.own, truthful.early⟩
      · rcases List.mem_cons.mp mem with rfl | mem
        · exact ⟨s, List.mem_cons_self, here⟩
        · exact ⟨t, List.mem_cons_of_mem s mem, here⟩

/-- An item that is stored is due as its notice says. -/
theorem Honours.lands {l m : Ledger Notice} {w : Write} (h : l.Honours heeded key heard)
    (sound : l.Sound) (landing : Lands w l m) : m.Honours heeded key heard := by
  cases landing with
  | @intro b scopes before after doomed ws listeners =>
      have perm := all_landing b scopes before after ⟨doomed, w :: ws, listeners⟩
      have noticed := h.noticed.perm perm
      have truthful := noticed.truthful _ List.mem_cons_self
      rw [Sound, reserved_eq] at sound
      have reserves := sound.subperm (perm.flatMap_right _).symm.subperm
      have shape : reservedBy (⟨doomed, w :: ws, listeners⟩ ::
            (⟨b, scopes, before ++ after⟩ : Ledger Notice).all) =
          w.fresh ++ reservedBy (⟨doomed, ws, listeners⟩ ::
            (⟨b, scopes, before ++ after⟩ : Ledger Notice).all) := by
        rw [reservedBy_cons, reservedBy_cons, Backlog.freshOf_cons, List.append_assoc]
      refine .of_perm (all_landing _ scopes before after _).symm ?_ ?_ ?_
      · -- The identity that is stored now was reserved here, and nowhere else.
        rw [Backlog.nextId_settle]
        refine noticed.replace (Nat.le_refl _) (fun id here _ => List.mem_append_right _ here) ?_
        rw [shape] at truthful
        exact truthful.land (shape ▸ reserves.distinct)
      · exact (h.kept.perm perm).land noticed reserves.distinct
      · obtain ⟨i, rfl, timely⟩ := truthful.inserts w List.mem_cons_self
        exact h.dated.settle reserves.ordered timely.dated

/-- **Whatever writers do, what they have promised is kept.** -/
theorem Honours.posts {l m : Ledger Notice} (h : l.Honours heeded key heard) (sound : l.Sound)
    (st : Posts l m) : m.Honours heeded key heard := by
  cases st with
  | turns turn => exact h.turns turn
  | adds timely call =>
      cases call
      exact h.adds timely
  | announces staged => exact h.announces sound staged
  | dooms fails => exact h.dooms fails
  | lands landing => exact h.lands sound landing

/-- A notice that is delivered has an ordinary time. -/
theorem Honours.ordinary {l m : Ledger Notice} {n : Notice} (h : l.Honours heeded key heard)
    (tells : Tells n l m) : Instant.minimum ≤ n.due ∧ n.due < Instant.maximum := by
  cases tells with
  | @intro b scopes before after doomed listeners =>
      have noticed := h.noticed.perm (all_landing b scopes before after _)
      exact (noticed.truthful _ List.mem_cons_self).ordinary n List.mem_cons_self

/-- A notice is delivered, and from then on it is heeded. -/
theorem Honours.tells {l m : Ledger Notice} {n : Notice} (h : l.Honours heeded key heard)
    (tells : Tells n l m) (heeds : ∀ t, n.due ≤ t → heeded t) :
    m.Honours heeded key (n :: heard) := by
  cases tells with
  | @intro b scopes before after doomed listeners =>
      exact .of_perm (all_landing b scopes before after _).symm
        (h.noticed.perm (all_landing b scopes before after _)).deliver
        ((h.kept.perm (all_landing b scopes before after _)).deliver heeds) h.dated

/-- The worker changes items without regard to notices while everything is heeded. -/
theorem Honours.of_heeded {l : Ledger Notice} {c : Backlog} (h : l.Honours heeded key heard)
    {always : Int → Prop} (all : ∀ t, always t) (le : l.backlog.nextId ≤ c.nextId)
    (dated : c.Dated) : ({ l with backlog := c } : Ledger Notice).Honours always key heard where
  noticed :=
    { truthful := fun s mem => (h.noticed.truthful s mem).mono le fun _ here _ => here
      known := fun n mem id listed => Nat.lt_of_lt_of_le (h.noticed.known n mem id listed) le
      landed := h.noticed.landed }
  kept := fun _ _ t _ _ _ _ => ⟨fun _ _ _ => all t, fun _ _ _ _ _ => .inr (all t)⟩
  dated := dated

/-- It is enough that what is stored is heeded. -/
theorem Honours.of_stored {l : Ledger Notice} (h : l.Honours heeded key heard)
    {sooner : Int → Prop} (stored : ∀ id i t, l.backlog.get? id = some i → i.state = .new →
      key.selects i → i.scheduleTime = some t → sooner t) : l.Honours sooner key heard where
  noticed := h.noticed
  kept := by
    intro id i t found new mine time
    have heeds := stored id i t found new mine time
    exact ⟨fun _ _ _ => heeds, fun _ _ _ _ _ => .inr heeds⟩
  dated := h.dated

/-! ### Submissions -/

/-- Any number of things that writers do. -/
abbrev Writes : Ledger Notice → Ledger Notice → Prop := Relation.ReflTransGen Posts

/-- Whether the rest is refused or not, what it leaves behind stays. -/
theorem addAll_cons_snd (now : Int) (item : WorkItem) (rest : List WorkItem) (b : Backlog)
    (s : Scope Write Notice) : (Backlog.addAll now (item :: rest) b s).2 =
      match b.add now item with
      | (.error _, c) => (c, s)
      | (.ok d, c) => (Backlog.addAll now rest c (s.stage d.writes)).2 := by
  rw [Backlog.addAll]
  rcases b.add now item with ⟨f | d, c⟩
  · rfl
  · dsimp only
    rcases Backlog.addAll now rest c (s.stage d.writes) with ⟨f | stored, e, t⟩ <;> rfl

theorem staged_addAll (now : Int) (items : List WorkItem) (b : Backlog) (s : Scope Write Notice) :
    s.staged ⊆ (Backlog.addAll now items b s).2.2.staged := by
  induction items generalizing b s with
  | nil => exact List.Subset.refl _
  | cons item rest ih =>
      rw [addAll_cons_snd]
      split
      · exact List.Subset.refl _
      · next d c _ =>
          exact List.Subset.trans (List.subset_append_left _ _) (ih c (s.stage d.writes))

/-- Each of the items that have been added is staged. -/
theorem insert_mem_addAll {now : Int} {items stored : List WorkItem} {s t : Scope Write Notice}
    (h : Backlog.addAll now items b s = (.ok stored, c, t)) :
    ∀ i ∈ stored, Write.insert i ∈ t.staged := by
  induction items generalizing b s stored with
  | nil =>
      cases h
      intro i mem
      cases mem
  | cons item rest ih =>
      unfold Backlog.addAll at h
      split at h
      · cases h
      · next d e added =>
          split at h
          · next others e' u result =>
              cases h
              intro i mem
              rcases List.mem_cons.mp mem with rfl | mem
              · -- What is staged for the first item stays staged while others are added.
                have staged := staged_addAll now rest e (s.stage d.writes)
                rw [result] at staged
                refine staged (List.mem_append_right _ ?_)
                unfold Backlog.add at added
                split at added
                · cases added
                · cases added
                  exact List.mem_singleton_self _
              · exact ih result i mem
          · cases h

/-- A writer adds its items one after the other. -/
theorem writes_addAll {now : Int} {items : List WorkItem}
    {before after landing : List (Scope Write Notice)}
    (timely : ∀ i, Write.insert i ∈ (Backlog.addAll now items b s).2.2.staged → i.Timely) :
    Writes ⟨b, before ++ s :: after, landing⟩
      ⟨(Backlog.addAll now items b s).2.1, before ++ (Backlog.addAll now items b s).2.2 :: after,
        landing⟩ := by
  induction items generalizing b s with
  | nil => exact .refl
  | cons item rest ih =>
      have step : (∀ i, Write.insert i ∈ ((Operation.add item).draft now b).1 → i.Timely) →
          Posts ⟨b, before ++ s :: after, landing⟩
            ⟨((Operation.add item).draft now b).2,
              before ++ s.stage ((Operation.add item).draft now b).1 :: after, landing⟩ :=
        fun timely => .adds timely .intro
      unfold Operation.draft at step
      dsimp only at step
      rw [addAll_cons_snd] at timely ⊢
      split
      · next f e refused =>
          -- A refusal is a step that stages nothing.
          rw [refused] at step
          rw [Backlog.draftedWrites, Scope.stage_nil] at step
          exact .single (step fun i mem => by cases mem)
      · next d e added =>
          rw [added] at step timely
          have earlier := staged_addAll now rest e (s.stage d.writes)
          exact .head (step fun i mem => timely i (earlier (List.mem_append_right _ mem)))
            (ih timely)

/-- **A submission inside of a transaction is made of steps of writers.** -/
theorem writes_submit {now : Int} {items stored : List WorkItem} {t : Scope Write Notice}
    {before after landing : List (Scope Write Notice)} (healthy : s.doomed = false)
    (added : Backlog.addAll now items b s = (.ok stored, c, t))
    (timely : ∀ i, Write.insert i ∈ t.staged → i.Timely) :
    let announce := fun due => (⟨due, stored.map WorkItem.id⟩ : Notice)
    submit b now (some s) announce items =
        ⟨.ok stored, c, some (Backlog.announced announce stored t), []⟩ ∧
      Writes ⟨b, before ++ s :: after, landing⟩
        ⟨c, before ++ Backlog.announced announce stored t :: after, landing⟩ := by
  intro announce
  constructor
  · rw [submit, Option.filter_some, healthy]
    simp [added]
  · have adds : Writes ⟨b, before ++ s :: after, landing⟩ ⟨(Backlog.addAll now items b s).2.1,
        before ++ (Backlog.addAll now items b s).2.2 :: after, landing⟩ := by
      refine writes_addAll ?_
      rw [added]
      exact timely
    rw [added] at adds
    exact adds.tail (.announces (insert_mem_addAll added))

/-- The items of a transaction are stored one after the other. -/
theorem writes_commit (b : Backlog) (scopes landing : List (Scope Write Notice))
    (s : Scope Write Notice) : Writes ⟨b, scopes, s :: landing⟩
      ⟨b.commit s.staged, scopes, ⟨s.doomed, [], s.listeners⟩ :: landing⟩ := by
  obtain ⟨doomed, staged, listeners⟩ := s
  induction staged generalizing b with
  | nil => exact .refl
  | cons w ws ih =>
      have first : Posts ⟨b, scopes, ⟨doomed, w :: ws, listeners⟩ :: landing⟩
          ⟨b.settle w, scopes, ⟨doomed, ws, listeners⟩ :: landing⟩ :=
        .lands (@Lands.intro Notice w b scopes [] landing doomed ws listeners)
      exact .head first (ih (b.settle w))

/-- A transaction that a submission has for itself does not fail of itself. -/
theorem doomed_addAll (now : Int) (items : List WorkItem) (b : Backlog) (s : Scope Write Notice) :
    (Backlog.addAll now items b s).2.2.doomed = s.doomed := by
  induction items generalizing b s with
  | nil => rfl
  | cons item rest ih =>
      rw [addAll_cons_snd]
      split
      · rfl
      · next d c _ => exact ih c (s.stage d.writes)

/-- **Without a transaction around it, a submission stores its items at once**, and its
notice is to be delivered next. -/
theorem writes_submit_alone {now : Int} {items stored : List WorkItem} {t : Scope Write Notice}
    {scopes landing : List (Scope Write Notice)}
    (added : Backlog.addAll now items b .empty = (.ok stored, c, t))
    (timely : ∀ i, Write.insert i ∈ t.staged → i.Timely) :
    let announce := fun due => (⟨due, stored.map WorkItem.id⟩ : Notice)
    (submit b now none announce items).result = .ok stored ∧
      Writes ⟨b, scopes, landing⟩ ⟨(submit b now none announce items).backlog, scopes,
        ⟨false, [], (submit b now none announce items).told⟩ :: landing⟩ := by
  intro announce
  have healthy : (Backlog.announced announce stored t).doomed = false := by
    have same := doomed_addAll now items b .empty
    rw [added] at same
    rw [Backlog.doomed_announced]
    exact same
  have comes_to : submit b now none announce items =
      ⟨.ok stored, c.commit (Backlog.announced announce stored t).staged, none,
        (Backlog.announced announce stored t).listeners⟩ := by
    rw [submit, Option.filter_none, added]
  rw [comes_to]
  constructor
  · rfl
  · have adds : Writes ⟨b, [] ++ .empty :: scopes, landing⟩
        ⟨c, [] ++ Backlog.announced announce stored t :: scopes, landing⟩ :=
      (writes_submit rfl added timely).2
    have verdict : (Backlog.announced announce stored t).verdict (.ok ()) =
        .ok ((), Backlog.announced announce stored t) :=
      Scope.verdict_eq_ok_iff.mpr ⟨rfl, healthy, rfl⟩
    have commit : Posts ⟨c, Backlog.announced announce stored t :: scopes, landing⟩
        ⟨c, scopes, Backlog.announced announce stored t :: landing⟩ :=
      .turns (@Turns.commits Notice c [] scopes landing _ _ verdict)
    have lands := writes_commit c scopes landing (Backlog.announced announce stored t)
    rw [healthy] at lands
    exact (adds.head (.turns .opens)).trans (lands.head commit)

end Ledger

end RecurringWork
