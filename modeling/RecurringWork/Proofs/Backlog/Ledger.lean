import Mathlib.Data.List.Flatten
import Mathlib.Logic.Relation
import RecurringWork.Proofs.Backlog.Operations

/-!
# RecurringWork.Proofs.Backlog.Ledger

**A backlog that is changed from many sides at once.** A `Ledger` is a backlog with the
transactions that are open and those that have committed but are not finished. In one `Step`
of it a transaction begins or comes to an end, an operation is called directly, something is
done inside of a transaction, a single write is carried out, or a single listener is told.
Each of these is a relation of its own, so that others can be made of the same parts. Steps of
different transactions follow each other in any order, and the clock shows any time at each.

Two points decide what can come in between:

* an operation looks at the backlog and drafts its writes in one step, but each write
  is carried out in a step of its own, also when no transaction is around. What others
  do meanwhile is what makes a draft out of date;
* a transaction that commits is *landing* from then on. Its writes are carried out in
  the order in which they were staged, and its listeners are told when none is left.

`Ledger.Step.cases` sums up what any step does to the backlog and to the writes that wait, and
`Ledger.Step.inv` says it of the identities that are reserved. What holds of every ledger is
derived from these.
-/

namespace RecurringWork

/-- A backlog with the transactions on it. -/
structure Ledger (β : Type) where
  backlog : Backlog
  /-- The transactions that are open. -/
  scopes : List (Scope Write β)
  /-- The transactions that have committed, with the writes that have not been carried
  out and the listeners that have not been told. -/
  landing : List (Scope Write β)

namespace Ledger

variable {β : Type}

/-- Nothing has happened. -/
def empty (maxDeferCount : Nat) : Ledger β := ⟨.empty maxDeferCount, [], []⟩

/-- What can be done inside of a transaction that is open. -/
inductive Action (β : Type)
  /-- An operation is called. -/
  | calls (op : Operation) (now : Int)
  /-- Somebody wants to be told of the commit. -/
  | listens (listener : β)
  /-- What has joined the transaction fails. -/
  | dooms

/-- The backlog and the transaction after it. -/
def Action.apply (b : Backlog) (s : Scope Write β) : Action β → Backlog × Scope Write β
  | .calls op now => ((op.draft now b).2, s.stage (op.draft now b).1)
  | .listens listener => (b, s.listen listener)
  | .dooms => (b, s.doom)

/-- Something is done inside of one of the transactions that are open. -/
inductive Inside (a : Action β) : Ledger β → Ledger β → Prop
  | intro {b : Backlog} {before after landing : List (Scope Write β)} {s : Scope Write β} :
      Inside a ⟨b, before ++ s :: after, landing⟩
        ⟨(a.apply b s).1, before ++ (a.apply b s).2 :: after, landing⟩

/-- An operation is called outside of any transaction. -/
inductive Directly (op : Operation) (now : Int) : Ledger β → Ledger β → Prop
  | intro {b : Backlog} {scopes landing : List (Scope Write β)} :
      Directly op now ⟨b, scopes, landing⟩
        ⟨(op.draft now b).2, scopes, Scope.empty.stage (op.draft now b).1 :: landing⟩

/-- An operation is called at `now`. -/
def Calls (op : Operation) (now : Int) (l m : Ledger β) : Prop :=
  Directly op now l m ∨ Inside (.calls op now) l m

/-- A write is carried out or discarded. -/
inductive Lands (w : Write) : Ledger β → Ledger β → Prop
  | intro {b : Backlog} {scopes before after : List (Scope Write β)} {doomed : Bool}
      {ws : List Write} {listeners : List β} :
      Lands w ⟨b, scopes, before ++ ⟨doomed, w :: ws, listeners⟩ :: after⟩
        ⟨b.settle w, scopes, before ++ ⟨doomed, ws, listeners⟩ :: after⟩

/-- A transaction begins or comes to an end. -/
inductive Turns : Ledger β → Ledger β → Prop
  | opens {b : Backlog} {scopes landing : List (Scope Write β)} :
      Turns ⟨b, scopes, landing⟩ ⟨b, .empty :: scopes, landing⟩
  /-- It is given up. -/
  | aborts {b : Backlog} {before after landing : List (Scope Write β)} {s : Scope Write β} :
      Turns ⟨b, before ++ s :: after, landing⟩ ⟨b, before ++ after, landing⟩
  | commits {b : Backlog} {before after landing : List (Scope Write β)} {s t : Scope Write β} :
      s.verdict (.ok ()) = .ok ((), t) →
      Turns ⟨b, before ++ s :: after, landing⟩ ⟨b, before ++ after, t :: landing⟩
  /-- It has committed, and nothing is left of it. -/
  | ends {b : Backlog} {scopes before after : List (Scope Write β)} {doomed : Bool} :
      Turns ⟨b, scopes, before ++ ⟨doomed, [], []⟩ :: after⟩ ⟨b, scopes, before ++ after⟩

/-- A listener is told, when there is nothing left to carry out. -/
inductive Tells (listener : β) : Ledger β → Ledger β → Prop
  | intro {b : Backlog} {scopes before after : List (Scope Write β)} {doomed : Bool}
      {listeners : List β} :
      Tells listener ⟨b, scopes, before ++ ⟨doomed, [], listener :: listeners⟩ :: after⟩
        ⟨b, scopes, before ++ ⟨doomed, [], listeners⟩ :: after⟩

/-- One thing that happens. -/
inductive Step (l m : Ledger β) : Prop
  | turns : Turns l m → Step l m
  | directly {op : Operation} {now : Int} : Directly op now l m → Step l m
  | inside {a : Action β} : Inside a l m → Step l m
  | lands {w : Write} : Lands w l m → Step l m
  | tells {listener : β} : Tells listener l m → Step l m

theorem Calls.step {l m : Ledger β} {op : Operation} {now : Int} (h : Calls op now l m) :
    Step l m :=
  h.elim .directly .inside

/-- Any number of things that happen one after the other. -/
abbrev Steps : Ledger β → Ledger β → Prop := Relation.ReflTransGen Step

/-- What can come of a backlog that was empty. -/
def Reachable (l : Ledger β) : Prop := ∃ maxDeferCount, Steps (empty maxDeferCount) l

theorem Reachable.steps {l m : Ledger β} (h : l.Reachable) (run : Steps l m) : m.Reachable := by
  obtain ⟨maxDeferCount, start⟩ := h
  exact ⟨maxDeferCount, start.trans run⟩

/-! ### Transactions in any order -/

/-- The transactions of which something is left. -/
def all (l : Ledger β) : List (Scope Write β) := l.scopes ++ l.landing

/-- The writes that wait to be carried out. -/
def writes (l : Ledger β) : List Write := l.all.flatMap Scope.staged

/-- It does not matter where among the open ones a transaction stands. -/
theorem all_open (b : Backlog) (before after landing : List (Scope Write β)) (s : Scope Write β) :
    (⟨b, before ++ s :: after, landing⟩ : Ledger β).all.Perm
      (s :: (⟨b, before ++ after, landing⟩ : Ledger β).all) :=
  List.perm_middle.append_right landing

theorem all_landing (b : Backlog) (scopes before after : List (Scope Write β))
    (s : Scope Write β) : (⟨b, scopes, before ++ s :: after⟩ : Ledger β).all.Perm
      (s :: (⟨b, scopes, before ++ after⟩ : Ledger β).all) :=
  (List.perm_middle.append_left scopes).trans List.perm_middle

theorem writes_open (b : Backlog) (before after landing : List (Scope Write β))
    (s : Scope Write β) : (⟨b, before ++ s :: after, landing⟩ : Ledger β).writes.Perm
      (s.staged ++ (⟨b, before ++ after, landing⟩ : Ledger β).writes) :=
  (all_open b before after landing s).flatMap_right _

theorem writes_landing (b : Backlog) (scopes before after : List (Scope Write β))
    (s : Scope Write β) : (⟨b, scopes, before ++ s :: after⟩ : Ledger β).writes.Perm
      (s.staged ++ (⟨b, scopes, before ++ after⟩ : Ledger β).writes) :=
  (all_landing b scopes before after s).flatMap_right _

/-! ### What a step can do -/

variable {l m : Ledger β} {op : Operation} {now : Int} {w : Write}

theorem Calls.backlog (h : Calls op now l m) : m.backlog = (op.draft now l.backlog).2 := by
  cases h with
  | inl call => cases call; rfl
  | inr act => cases act; rfl

/-- What a call drafts waits with what has waited before. -/
theorem Calls.writes (h : Calls op now l m) :
    m.writes.Perm ((op.draft now l.backlog).1 ++ l.writes) := by
  cases h with
  | inl call =>
      cases call with
      | @intro b scopes landing => exact writes_landing _ scopes [] landing _
  | inr act =>
      cases act with
      | @intro b before after landing s =>
          have called := writes_open (op.draft now b).2 before after landing
            (s.stage (op.draft now b).1)
          rw [Scope.staged_stage, List.append_assoc] at called
          exact called.trans ((List.perm_append_comm_assoc _ _ _).trans
            ((writes_open b before after landing s).symm.append_left _))

theorem Lands.backlog (h : Lands w l m) : m.backlog = l.backlog.settle w := by
  cases h
  rfl

theorem Lands.writes (h : Lands w l m) : l.writes.Perm (w :: m.writes) := by
  cases h with
  | @intro b scopes before after doomed ws listeners =>
      exact (writes_landing b scopes before after ⟨doomed, w :: ws, listeners⟩).trans
        ((writes_landing b scopes before after ⟨doomed, ws, listeners⟩).symm.cons w)

theorem Lands.mem_writes (h : Lands w l m) : w ∈ l.writes :=
  h.writes.symm.subset List.mem_cons_self

theorem Turns.backlog (h : Turns l m) : m.backlog = l.backlog := by
  cases h <;> rfl

/-- A transaction that is given up takes its writes with it. -/
theorem Turns.writes (h : Turns l m) : m.writes.Subperm l.writes := by
  cases h with
  | opens => exact .refl _
  | @aborts b before after landing s =>
      exact (List.sublist_append_right _ _).subperm.trans
        (writes_open b before after landing s).symm.subperm
  | @commits b before after landing s t verdict =>
      obtain ⟨-, -, rfl⟩ := Scope.verdict_eq_ok_iff.mp verdict
      exact ((writes_landing b (before ++ after) [] landing s).trans
        (writes_open b before after landing s).symm).subperm
  | @ends b scopes before after doomed =>
      exact (writes_landing b scopes before after ⟨doomed, [], []⟩).symm.subperm

theorem Tells.backlog {listener : β} (h : Tells listener l m) : m.backlog = l.backlog := by
  cases h
  rfl

theorem Tells.writes {listener : β} (h : Tells listener l m) : m.writes.Perm l.writes := by
  cases h with
  | @intro b scopes before after doomed listeners =>
      exact (writes_landing b scopes before after ⟨doomed, [], listeners⟩).trans
        (writes_landing b scopes before after ⟨doomed, [], listener :: listeners⟩).symm

/-- **A step calls an operation or lets a write land, or else it changes nothing that is
stored and adds no writes.** -/
theorem Step.cases (st : Step l m) :
    (∃ op now, Calls op now l m) ∨ (∃ w, Lands w l m) ∨
      m.backlog = l.backlog ∧ m.writes.Subperm l.writes := by
  cases st with
  | turns turn => exact .inr (.inr ⟨turn.backlog, turn.writes⟩)
  | @directly op now call => exact .inl ⟨op, now, .inl call⟩
  | lands landing => exact .inr (.inl ⟨_, landing⟩)
  | tells tells => exact .inr (.inr ⟨tells.backlog, tells.writes.subperm⟩)
  | @inside a act =>
      cases a with
      | calls op now => exact .inl ⟨op, now, .inr act⟩
      | listens _ | dooms =>
          cases act with
          | @intro b before after landing s =>
              refine .inr (.inr ⟨rfl, List.Perm.subperm ?_⟩)
              exact (writes_open b before after landing _).trans
                (writes_open b before after landing s).symm

/-- **No step makes up writes**: what waits has waited before, or is drafted by the call that
the step makes. -/
theorem Step.mem_writes_inv (st : Step l m) (mem : w ∈ m.writes) :
    w ∈ l.writes ∨ ∃ (op : Operation) (now : Int), w ∈ (op.draft now l.backlog).1 := by
  rcases st.cases with ⟨op, now, call⟩ | ⟨v, landing⟩ | ⟨-, waits⟩
  · rcases List.mem_append.mp (call.writes.subset mem) with drafted | waiting
    · exact .inr ⟨op, now, drafted⟩
    · exact .inl waiting
  · exact .inl (landing.writes.symm.subset (List.mem_cons_of_mem v mem))
  · exact .inl (waits.subset mem)

/-! ### Reserved identities -/

/-- The identities that are reserved by some transactions. -/
def reservedBy (scopes : List (Scope Write β)) : List Nat :=
  scopes.flatMap fun s => Backlog.freshOf s.staged

/-- The identities that writes will store items under for the first time. -/
def reserved (l : Ledger β) : List Nat := reservedBy l.scopes ++ reservedBy l.landing

@[simp] theorem reservedBy_nil : reservedBy ([] : List (Scope Write β)) = [] := rfl

@[simp] theorem reservedBy_cons (s : Scope Write β) (scopes : List (Scope Write β)) :
    reservedBy (s :: scopes) = Backlog.freshOf s.staged ++ reservedBy scopes := rfl

@[simp] theorem reservedBy_append (before after : List (Scope Write β)) :
    reservedBy (before ++ after) = reservedBy before ++ reservedBy after := List.flatMap_append

/-- The identities are those of the writes that wait. -/
theorem reserved_eq_freshOf (l : Ledger β) : l.reserved = Backlog.freshOf l.writes := by
  rw [reserved, ← reservedBy_append]
  exact List.flatMap_assoc.symm

/-- An identity under which a write that waits will store something is reserved. -/
theorem mem_reserved_of_fresh (waits : w ∈ l.writes) {id : Nat} (fresh : id ∈ w.fresh) :
    id ∈ l.reserved := by
  rw [reserved_eq_freshOf]
  exact List.mem_flatMap.mpr ⟨w, waits, fresh⟩

/-- **A step calls an operation or carries out a write, or else it can only give reserved
identities up.** -/
theorem Step.inv (st : Step l m) :
    (m.backlog = l.backlog ∧ m.reserved.Subperm l.reserved) ∨
      (∃ (op : Operation) (now : Int), m.backlog = (op.draft now l.backlog).2 ∧
        m.reserved.Perm (Backlog.freshOf (op.draft now l.backlog).1 ++ l.reserved)) ∨
      ∃ w, m.backlog = l.backlog.settle w ∧ l.reserved.Perm (w.fresh ++ m.reserved) := by
  simp only [reserved_eq_freshOf]
  rcases st.cases with ⟨op, now, call⟩ | ⟨w, landing⟩ | ⟨same, kept, perm, sub⟩
  · have perm : (Backlog.freshOf m.writes).Perm _ := call.writes.flatMap_right _
    rw [← Backlog.freshOf, Backlog.freshOf_append] at perm
    exact .inr (.inl ⟨op, now, call.backlog, perm⟩)
  · exact .inr (.inr ⟨w, landing.backlog, landing.writes.flatMap_right _⟩)
  · exact .inl ⟨same, Backlog.freshOf kept, perm.flatMap_right _, sub.flatMap _⟩

/-! ### Every ledger -/

/-- The items are in order, and the reserved identities are free and all different. -/
def Sound (l : Ledger β) : Prop := l.backlog.Sound l.reserved

theorem Sound.step {l m : Ledger β} (h : l.Sound) (st : Step l m) : m.Sound := by
  unfold Sound
  obtain ⟨same, sub⟩ | ⟨op, now, called, perm⟩ | ⟨w, landed, perm⟩ := st.inv
  · rw [same]
    exact Backlog.Sound.subperm h sub
  · rw [called]
    exact (Backlog.Sound.drafted h (Backlog.drafted op now l.backlog)).subperm perm.subperm
  · rw [landed]
    exact (Backlog.Sound.subperm h perm.symm.subperm).settle

theorem Sound.steps {l m : Ledger β} (h : l.Sound) (run : Steps l m) : m.Sound := by
  induction run with
  | refl => exact h
  | tail _ st ih => exact ih.step st

theorem sound_empty (maxDeferCount : Nat) : (empty maxDeferCount : Ledger β).Sound :=
  Backlog.sound_empty maxDeferCount

theorem Reachable.sound {l : Ledger β} (h : l.Reachable) : l.Sound := by
  obtain ⟨maxDeferCount, run⟩ := h
  exact (sound_empty maxDeferCount).steps run

/-! ### What is done at once -/

/-- The writes of a commit, carried out one after the other. -/
theorem steps_commit (b : Backlog) (scopes landing : List (Scope Write β)) (s : Scope Write β) :
    Steps ⟨b, scopes, s :: landing⟩
      ⟨b.commit s.staged, scopes, ⟨s.doomed, [], s.listeners⟩ :: landing⟩ := by
  obtain ⟨doomed, staged, listeners⟩ := s
  induction staged generalizing b with
  | nil => exact .refl
  | cons w ws ih =>
      have first : Step ⟨b, scopes, ⟨doomed, w :: ws, listeners⟩ :: landing⟩
          ⟨b.settle w, scopes, ⟨doomed, ws, listeners⟩ :: landing⟩ :=
        .lands (@Lands.intro β w b scopes [] landing doomed ws listeners)
      exact Relation.ReflTransGen.head first (ih (b.settle w))

/-- Without a transaction around it, an operation does to the backlog what its steps do
with nothing in between. -/
theorem steps_perform (b : Backlog) (scopes landing : List (Scope Write β)) (op : Operation)
    (now : Int) : Steps ⟨b, scopes, landing⟩ ⟨op.perform now b, scopes, landing⟩ := by
  rw [Backlog.perform_eq_commit]
  have call : Step ⟨b, scopes, landing⟩
      ⟨(op.draft now b).2, scopes, Scope.empty.stage (op.draft now b).1 :: landing⟩ :=
    .directly .intro
  have ends : Step
      ⟨(op.draft now b).2.commit (op.draft now b).1, scopes, ⟨false, [], []⟩ :: landing⟩
      ⟨(op.draft now b).2.commit (op.draft now b).1, scopes, landing⟩ :=
    .turns (@Turns.ends β _ scopes [] landing false)
  exact ((steps_commit _ _ _ _).head call).tail ends

end Ledger

end RecurringWork
