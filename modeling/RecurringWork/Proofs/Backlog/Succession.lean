import Mathlib.Data.List.Nodup
import RecurringWork.Proofs.Backlog.Drafts
import RecurringWork.Proofs.Backlog.Finality

/-!
# RecurringWork.Proofs.Backlog.Succession

**A job that recurs never forks, and no occurrence is lost half-way.** Every call that
completes a job looks for the next occurrence and gives it an identity, before anybody
knows whether the completion will take effect. Any number of such successors of one item can
therefore be staged at the same time. Only one of them is ever stored.

A `Lineage` is a ledger together with a record of the successors that have been stored so
far, each with the item that it succeeds (`Lineage.births`). Nothing depends on the record;
it is kept to say what has happened. Three facts make up the law:

* a write with a successor was drafted to complete an item (`Ledger.Authored`), and is
  carried out in full while that item is new or else not at all (`Backlog.settle_completion`,
  `Backlog.settle_of_not_hasNew`);
* an item that has been succeeded is over for good (`Lineage.Sound`), so it can never be
  succeeded again;
* what descends from one item forms a single chain, and of a chain all but the last have
  been succeeded.
-/

namespace RecurringWork

/-- The successor that a write stores, after the item that it succeeds. -/
def Write.birth? : Write → Option (Nat × Nat)
  | .replace item (some next) => some (item.id, next.id)
  | .replace _ none | .insert _ | .expire _ _ | .purge _ => none

namespace Backlog

/-- The successors that are stored when a write is carried out or discarded. -/
def births (b : Backlog) (w : Write) : List (Nat × Nat) :=
  match b.carryOut w with
  | .ok _ => w.birth?.toList
  | .error _ => []

/-- An item of this identity is stored and still new. -/
def HasNew (b : Backlog) (id : Nat) : Prop := ∃ i, b.get? id = some i ∧ i.state = .new

/-- To complete an item at `now` is to store `item` in its place, together with `next`. -/
def Completes (b : Backlog) (now : Int) (item next : WorkItem) : Prop :=
  (b.complete now item.id).1 = .ok ⟨⟨item, some next⟩, [.replace item (some next)]⟩

/-- What is recorded is the successor of an item that was new. -/
theorem births_cases (b : Backlog) (w : Write) : b.births w = [] ∨
    ∃ item next, w = .replace item (some next) ∧ b.births w = [(item.id, next.id)] ∧
      b.HasNew item.id := by
  unfold births
  cases result : b.carryOut w with
  | error e => exact .inl rfl
  | ok c =>
      match w with
      | .replace item (some next) =>
          obtain ⟨current, found, new, -⟩ := carryOut_replace_inv result
          exact .inr ⟨item, next, rfl, rfl, current, found, new⟩
      | .replace _ none | .insert _ | .expire _ _ | .purge _ => exact .inl rfl

/-- A replacement is carried out while the item is new. -/
theorem carryOut_replace_of_new {b : Backlog} {i : WorkItem} {successor : Option WorkItem}
    (new : b.HasNew i.id) :
    b.carryOut (.replace i successor) = .ok (successor.elim (b.put i) (b.put i).put) := by
  obtain ⟨current, found, state⟩ := new
  have allowed : current.state.become i.state = .ok i.state := by
    rw [state]
    cases i.state <;> rfl
  simp only [carryOut, stored, found, bind, Except.bind, succeed, state, WorkState.isTerminal_new]
  rw [state] at allowed
  rw [if_neg Bool.false_ne_true, allowed]
  cases successor <;> rfl

/-- **A completion that is carried out is carried out in full**: the item is replaced and its
successor is stored with it. -/
theorem settle_completion {b : Backlog} {item next : WorkItem} (new : b.HasNew item.id)
    (apart : next.id ≠ item.id) :
    b.births (.replace item (some next)) = [(item.id, next.id)] ∧
      (b.settle (.replace item (some next))).get? item.id = some item ∧
      (b.settle (.replace item (some next))).get? next.id = some next := by
  have carried := @carryOut_replace_of_new b item (some next) new
  rw [births, settle, carried]
  refine ⟨rfl, ?_, ?_⟩
  · dsimp only [Option.elim_some]
    rw [get?_put, if_neg apart, get?_put_self]
  · exact get?_put_self _ _

/-- A replacement that comes too late changes nothing. -/
theorem settle_of_not_hasNew {b : Backlog} {i : WorkItem} {successor : Option WorkItem}
    (ended : ¬b.HasNew i.id) : b.settle (.replace i successor) = b := by
  refine settle_induction (motive := fun c => c = b) b _ rfl fun c result => ?_
  obtain ⟨current, found, new, -⟩ := carryOut_replace_inv result
  exact absurd ⟨current, found, new⟩ ended

end Backlog

/-! ### Where writes come from -/

namespace Ledger

variable {β : Type}

/-- Whatever waits to be carried out was drafted once. -/
def Authored (l : Ledger β) : Prop := ∀ w ∈ l.writes, ∃ b now, Backlog.Drafts b now w

theorem Authored.step {l m : Ledger β} (h : l.Authored) (st : Step l m) : m.Authored := by
  intro w mem
  rcases st.mem_writes_inv mem with waiting | ⟨op, now, drafted⟩
  · exact h w waiting
  · exact ⟨l.backlog, now, Backlog.drafts_of_mem drafted⟩

theorem Authored.added {l : Ledger β} (h : l.Authored) {i : WorkItem}
    (mem : Write.insert i ∈ l.writes) :
    ∃ (b : Backlog) (now : Int) (item : WorkItem), (b.add now item).1 = .ok ⟨i, [.insert i]⟩ := by
  obtain ⟨b, now, drafted⟩ := h _ mem
  cases drafted with
  | @adds item _ answer _ _ => exact ⟨b, now, item, answer⟩

/-- A write with a successor completes an item. -/
theorem Authored.completes {l : Ledger β} (h : l.Authored) {item next : WorkItem}
    (mem : Write.replace item (some next) ∈ l.writes) :
    (∃ b now, Backlog.Completes b now item next) ∧ item.state = .done ∧ next.state = .new := by
  obtain ⟨b, now, drafted⟩ := h _ mem
  cases drafted with
  | completes _ answer done fresh => exact ⟨⟨b, now, answer⟩, done, (fresh next rfl).2⟩

end Ledger

/-! ### Lineages -/

/-- A ledger with the successors that have been stored, each after the identity of the item
that it succeeds. -/
structure Lineage (β : Type) where
  ledger : Ledger β
  births : List (Nat × Nat)

namespace Lineage

variable {β : Type}

/-- Nothing has happened. -/
def empty (maxDeferCount : Nat) : Lineage β := ⟨.empty maxDeferCount, []⟩

/-- What is stored under an identity. -/
def get? (c : Lineage β) (id : Nat) : Option WorkItem := c.ledger.backlog.get? id

/-- One thing that happens. Only a write that is carried out can add to the record. -/
inductive Step : Lineage β → Lineage β → Prop
  | lands {l m : Ledger β} {w : Write} {births : List (Nat × Nat)} : Ledger.Lands w l m →
      Step ⟨l, births⟩ ⟨m, l.backlog.births w ++ births⟩
  | others {l m : Ledger β} {births : List (Nat × Nat)} : Ledger.Step l m →
      m.backlog.items = l.backlog.items → Step ⟨l, births⟩ ⟨m, births⟩

/-- Any number of things that happen one after the other. -/
abbrev Steps : Lineage β → Lineage β → Prop := Relation.ReflTransGen Step

/-- What can come of a backlog that was empty. -/
def Reachable (c : Lineage β) : Prop := ∃ maxDeferCount, Steps (empty maxDeferCount) c

theorem Step.ledger {c d : Lineage β} (st : Step c d) : Ledger.Step c.ledger d.ledger := by
  cases st with
  | lands landing => exact .lands landing
  | others st _ => exact st

/-- The record can be kept whatever happens. -/
theorem Step.exists_of_ledger {l m : Ledger β} (st : Ledger.Step l m) (births : List (Nat × Nat)) :
    ∃ more, Step ⟨l, births⟩ ⟨m, more⟩ := by
  rcases st.cases with ⟨op, now, call⟩ | ⟨w, landing⟩ | ⟨same, -⟩
  · exact ⟨births, .others st (call.backlog ▸ (Backlog.drafted op now l.backlog).items)⟩
  · exact ⟨_, .lands landing⟩
  · exact ⟨births, .others st (same ▸ rfl)⟩

/-- Every ledger has a lineage. -/
theorem exists_reachable {l : Ledger β} (h : l.Reachable) :
    ∃ births, (⟨l, births⟩ : Lineage β).Reachable := by
  obtain ⟨maxDeferCount, run⟩ := h
  induction run with
  | refl => exact ⟨[], maxDeferCount, .refl⟩
  | tail _ st ih =>
      obtain ⟨births, start, run⟩ := ih
      obtain ⟨more, step⟩ := Step.exists_of_ledger st births
      exact ⟨more, start, run.tail step⟩

/-! ### Every lineage -/

/-- Every item that has been succeeded is over for good, and none has been succeeded
twice. -/
structure Sound (c : Lineage β) : Prop where
  ledger : c.ledger.Sound
  authored : c.ledger.Authored
  once : (c.births.map Prod.fst).Nodup
  succeeded : ∀ p ∈ c.births, c.ledger.Spent p.1 ∧ ∀ i, c.get? p.1 = some i → i.state.isTerminal

theorem sound_empty (maxDeferCount : Nat) : (empty maxDeferCount : Lineage β).Sound where
  ledger := Ledger.sound_empty maxDeferCount
  authored := fun _ mem => by cases mem
  once := List.nodup_nil
  succeeded := fun _ mem => by cases mem

/-- An item that has been succeeded is not new any more. -/
theorem Sound.not_hasNew {c : Lineage β} (h : c.Sound) {p : Nat × Nat} (mem : p ∈ c.births) :
    ¬c.ledger.backlog.HasNew p.1 := by
  rintro ⟨i, found, new⟩
  have ended := (h.succeeded p mem).2 i found
  rw [new] at ended
  exact absurd ended (by decide)

/-- An item that is over stays so, whatever happens. -/
theorem Sound.stays_over {c d : Lineage β} (h : c.Sound) (st : Ledger.Step c.ledger d.ledger)
    {p : Nat × Nat} (mem : p ∈ c.births) :
    d.ledger.Spent p.1 ∧ ∀ i, d.get? p.1 = some i → i.state.isTerminal := by
  obtain ⟨spent, ended⟩ := h.succeeded p mem
  refine ⟨spent.step st, fun i found => ?_⟩
  have continued := st.continues h.ledger spent
  unfold get? at ended found
  cases before : c.ledger.backlog.get? p.1 with
  | none =>
      rw [before] at continued
      rw [show d.ledger.backlog.get? p.1 = none from continued] at found
      cases found
  | some j =>
      rw [before] at continued
      rcases continued (ended j before) with same | gone
      · rw [same] at found
        cases found
        exact ended i before
      · rw [gone] at found
        cases found

/-- The successor of a write that waits is not stored yet, so it cannot be taken for the item
that it succeeds. -/
theorem Sound.apart {c : Lineage β} (h : c.Sound) {item next : WorkItem}
    (mem : Write.replace item (some next) ∈ c.ledger.writes) :
    c.get? next.id = none ∧ (c.ledger.backlog.HasNew item.id → next.id ≠ item.id) := by
  have absent : c.ledger.backlog.get? next.id = none :=
    Backlog.Sound.reserved_absent h.ledger
      (Ledger.mem_reserved_of_fresh mem (List.mem_singleton_self next.id))
  refine ⟨absent, ?_⟩
  rintro ⟨i, found, -⟩ same
  rw [← same, absent] at found
  cases found

theorem Sound.step {c d : Lineage β} (h : c.Sound) (st : Step c d) : d.Sound := by
  have kept := fun p mem => h.stays_over st.ledger (p := p) mem
  have ledger := h.ledger.step st.ledger
  have authored := h.authored.step st.ledger
  cases st with
  | others _ _ => exact ⟨ledger, authored, h.once, kept⟩
  | @lands l m w births landing =>
      rcases l.backlog.births_cases w with none | ⟨item, next, rfl, one, new⟩
      · rw [none, List.nil_append]
        exact ⟨ledger, authored, h.once, kept⟩
      · rw [one, List.singleton_append]
        have waits := landing.mem_writes
        obtain ⟨-, stored, -⟩ := Backlog.settle_completion new ((h.apart waits).2 new)
        rw [← landing.backlog] at stored
        obtain ⟨-, done, -⟩ := h.authored.completes waits
        refine ⟨ledger, authored, ?_, fun p mem => ?_⟩
        · -- An item that is succeeded now was new, so it had not been succeeded before.
          refine List.nodup_cons.mpr ⟨fun before => ?_, h.once⟩
          obtain ⟨p, mem, same⟩ := List.mem_map.mp before
          exact h.not_hasNew mem (same ▸ new)
        · rcases List.mem_cons.mp mem with rfl | mem
          · refine ⟨Ledger.Sound.spent ledger stored, fun i found => ?_⟩
            rw [show i = item from Option.some.inj (found.symm.trans stored), done]
            rfl
          · exact kept p mem

theorem Reachable.sound {c : Lineage β} (h : c.Reachable) : c.Sound := by
  obtain ⟨maxDeferCount, run⟩ := h
  induction run with
  | refl => exact sound_empty maxDeferCount
  | tail _ st ih => exact ih.step st

/-! ### What happens in a step -/

/-- In this step an item that was new is completed by a call that has asked for its next
occurrence, and that occurrence is stored with it. -/
structure Begets (c d : Lineage β) (item next : WorkItem) : Prop where
  recorded : d.births = (item.id, next.id) :: c.births
  completes : ∃ b now, Backlog.Completes b now item next
  was_new : c.ledger.backlog.HasNew item.id
  stored : d.get? item.id = some item
  done : item.state = .done
  unstored : c.get? next.id = none
  follows : d.get? next.id = some next
  new : next.state = .new

theorem Sound.begets {l m : Ledger β} {item next : WorkItem} {births : List (Nat × Nat)}
    (h : (⟨l, births⟩ : Lineage β).Sound)
    (landing : Ledger.Lands (.replace item (some next)) l m) (new : l.backlog.HasNew item.id) :
    Begets ⟨l, births⟩ ⟨m, l.backlog.births (.replace item (some next)) ++ births⟩ item next := by
  have waits := landing.mem_writes
  obtain ⟨absent, apart⟩ := h.apart waits
  obtain ⟨one, stored, follows⟩ := Backlog.settle_completion new (apart new)
  rw [← landing.backlog] at stored follows
  obtain ⟨completes, done, fresh⟩ := h.authored.completes waits
  exact ⟨congrArg (· ++ births) one, completes, new, stored, done, absent, follows, fresh⟩

/-- **A successor is stored in the step in which its item is completed**, and in no other
step does the record grow. -/
theorem Sound.step_cases {c d : Lineage β} (h : c.Sound) (st : Step c d) :
    d.births = c.births ∨ ∃ item next, c.Begets d item next := by
  cases st with
  | others _ _ => exact .inl rfl
  | @lands l m w births landing =>
      rcases l.backlog.births_cases w with none | ⟨item, next, rfl, -, new⟩
      · exact .inl (congrArg (· ++ births) none)
      · exact .inr ⟨item, next, h.begets landing new⟩

/-- What is stored for the first time has been added, or is a successor that goes on
record. -/
theorem Sound.first_stored {c d : Lineage β} (h : c.Sound) (st : Step c d) {id : Nat}
    {i : WorkItem} (unstored : c.get? id = none) (stored : d.get? id = some i) :
    (∃ (b : Backlog) (now : Int) (item : WorkItem), (b.add now item).1 = .ok ⟨i, [.insert i]⟩) ∨
      ∃ item, c.Begets d item i := by
  unfold get? at unstored stored
  cases st with
  | others _ same =>
      unfold Backlog.get? at unstored stored
      rw [same, unstored] at stored
      cases stored
  | @lands l m w births landing =>
      dsimp only at unstored stored
      rw [landing.backlog] at stored
      have waits := landing.mem_writes
      have fresh : id ∈ w.fresh := by
        by_contra old
        have continued := Backlog.continues_settle (Backlog.Sound.ordered h.ledger) old
        rw [unstored] at continued
        rw [show (l.backlog.settle w).get? id = none from continued] at stored
        cases stored
      match w with
      | .insert j =>
          have first : (l.backlog.settle (.insert j)).get? j.id = some j :=
            l.backlog.get?_put_self j
          cases List.mem_singleton.mp fresh
          cases Option.some.inj (first.symm.trans stored)
          exact .inl (h.authored.added waits)
      | .replace item (some next) =>
          cases List.mem_singleton.mp fresh
          obtain ⟨-, apart⟩ := h.apart waits
          by_cases new : l.backlog.HasNew item.id
          · obtain ⟨-, -, follows⟩ := Backlog.settle_completion new (apart new)
            cases Option.some.inj (follows.symm.trans stored)
            exact .inr ⟨item, h.begets landing new⟩
          · -- A completion that comes too late stores nothing.
            rw [Backlog.settle_of_not_hasNew new, unstored] at stored
            cases stored

/-! ### Families -/

/-- The second identity is the first, or that of one of its successors. -/
def Descends (c : Lineage β) : Nat → Nat → Prop :=
  Relation.ReflTransGen fun id next => (id, next) ∈ c.births

theorem Sound.eq_of_births {c : Lineage β} (h : c.Sound) {id a b : Nat} (first : (id, a) ∈ c.births)
    (second : (id, b) ∈ c.births) : a = b :=
  congrArg Prod.snd (List.inj_on_of_nodup_map h.once first second rfl)

/-- **Among an item and all its successors at most one is new.** -/
theorem Sound.eq_of_hasNew {c : Lineage β} (h : c.Sound) {id a b : Nat} (first : c.Descends id a)
    (second : c.Descends id b) (newA : c.ledger.backlog.HasNew a)
    (newB : c.ledger.backlog.HasNew b) : a = b := by
  -- An item that has a successor is over, so whoever is new is the last of its chain.
  have last : ∀ {x y : Nat}, c.ledger.backlog.HasNew x → c.Descends x y → x = y := by
    intro x y new chain
    rcases Relation.ReflTransGen.cases_head chain with same | ⟨z, born, -⟩
    · exact same
    · exact absurd new (h.not_hasNew born)
  have unique : Relator.RightUnique fun id next => (id, next) ∈ c.births :=
    fun _ _ _ one other => h.eq_of_births one other
  rcases Relation.ReflTransGen.total_of_right_unique unique first second with chain | chain
  · exact last newA chain
  · exact (last newB chain).symm

/-- **A job that recurs never forks, and no occurrence is lost half-way.** However many calls
complete an item, at most one successor of it is ever stored. It is stored in the very step
in which the item goes from new to done, and whatever else is stored for the first time has
been added. A completion that comes too late changes nothing. So among an item and all its
successors at most one is new. -/
theorem Reachable.succession {c : Lineage β} (h : c.Reachable) :
    (c.births.map Prod.fst).Nodup ∧
      (∀ d, Step c d → d.births = c.births ∨ ∃ item next, c.Begets d item next) ∧
      (∀ d id i, Step c d → c.get? id = none → d.get? id = some i →
        (∃ (b : Backlog) (now : Int) (item : WorkItem),
            (b.add now item).1 = .ok ⟨i, [.insert i]⟩) ∨
          ∃ item, c.Begets d item i) ∧
      (∀ item next, Write.replace item (some next) ∈ c.ledger.writes →
        let after := c.ledger.backlog.settle (.replace item (some next))
        (c.ledger.backlog.HasNew item.id →
            after.get? item.id = some item ∧ after.get? next.id = some next) ∧
          (¬c.ledger.backlog.HasNew item.id → after = c.ledger.backlog)) ∧
      ∀ id a b, c.Descends id a → c.Descends id b → c.ledger.backlog.HasNew a →
        c.ledger.backlog.HasNew b → a = b := by
  have sound := h.sound
  refine ⟨sound.once, fun d st => sound.step_cases st,
    fun d id i st unstored stored => sound.first_stored st unstored stored,
    fun item next waits => ⟨fun new => ?_, Backlog.settle_of_not_hasNew⟩,
    fun id a b first second newA newB => sound.eq_of_hasNew first second newA newB⟩
  exact (Backlog.settle_completion new ((sound.apart waits).2 new)).2

/-- The backlog after a job has been added, and the two drafts of calls that complete it. -/
def oneJob : Backlog :=
  (Operation.add (.ofKind (.job "digest" (.fixedDelay 60000 0)))).perform 0 (.empty 5)

def firstCompletion : List Write × Backlog := (Operation.complete 1).draft 1 oneJob

def secondCompletion : List Write × Backlog := (Operation.complete 1).draft 2 firstCompletion.2

/-- A job has been completed twice in one transaction, with a successor each time, and the
transaction has just committed. -/
def completedTwice : Lineage Unit :=
  ⟨⟨secondCompletion.2, [], [⟨false, firstCompletion.1 ++ secondCompletion.1, []⟩]⟩, []⟩

theorem reachable_completedTwice : completedTwice.Reachable := by
  let add := Operation.add (.ofKind (.job "digest" (.fixedDelay 60000 0)))
  let once : Scope Write Unit := Scope.empty.stage firstCompletion.1
  let twice : Scope Write Unit := once.stage secondCompletion.1
  let called : Lineage Unit := ⟨⟨(add.draft 0 (.empty 5)).2, [],
    [Scope.empty.stage (add.draft 0 (.empty 5)).1]⟩, []⟩
  have calls : Step (empty 5) called := .others (.directly .intro) rfl
  have lands : Step called ⟨⟨oneJob, [], [⟨false, [], []⟩]⟩, []⟩ :=
    .lands (@Ledger.Lands.intro Unit _ (add.draft 0 (.empty 5)).2 [] [] [] false [] [])
  have ends : Step (⟨⟨oneJob, [], [⟨false, [], []⟩]⟩, []⟩ : Lineage Unit) ⟨⟨oneJob, [], []⟩, []⟩ :=
    .others (.turns (@Ledger.Turns.ends Unit oneJob [] [] [] false)) rfl
  have opens : Step (⟨⟨oneJob, [], []⟩, []⟩ : Lineage Unit) ⟨⟨oneJob, [.empty], []⟩, []⟩ :=
    .others (.turns .opens) rfl
  have completes : Step (⟨⟨oneJob, [.empty], []⟩, []⟩ : Lineage Unit)
      ⟨⟨firstCompletion.2, [once], []⟩, []⟩ :=
    .others (.inside (@Ledger.Inside.intro Unit (.calls (.complete 1) 1) oneJob [] [] [] .empty)) rfl
  have again : Step (⟨⟨firstCompletion.2, [once], []⟩, []⟩ : Lineage Unit)
      ⟨⟨secondCompletion.2, [twice], []⟩, []⟩ :=
    .others (.inside (@Ledger.Inside.intro Unit (.calls (.complete 1) 2) firstCompletion.2 [] [] []
      once)) rfl
  have commits : Step (⟨⟨secondCompletion.2, [twice], []⟩, []⟩ : Lineage Unit) completedTwice :=
    .others (.turns (@Ledger.Turns.commits Unit secondCompletion.2 [] [] [] twice twice rfl)) rfl
  have added : Steps (empty 5) (⟨⟨oneJob, [], []⟩, []⟩ : Lineage Unit) :=
    ((Relation.ReflTransGen.single calls).tail lands).tail ends
  exact ⟨5, (((added.tail opens).tail completes).tail again).tail commits⟩

/-- Both completions are carried out, one after the other. Only the first of them stores a
successor, and that is the one that is new. -/
theorem succession_of_completedTwice :
    let waiting : List (Scope Write Unit) := [⟨false, secondCompletion.1, []⟩]
    let next := secondCompletion.2.commit firstCompletion.1
    let last := next.commit secondCompletion.1
    let c : Lineage Unit := ⟨⟨last, [], [⟨false, [], []⟩]⟩, [(1, 2)]⟩
    Step completedTwice ⟨⟨next, [], waiting⟩, [(1, 2)]⟩ ∧
      Step ⟨⟨next, [], waiting⟩, [(1, 2)]⟩ c ∧ (last.get? 3).isNone ∧ last.HasNew 2 ∧
      ∀ id, c.Descends 1 id → last.HasNew id → id = 2 := by
  intro waiting next last c
  have first : Step completedTwice ⟨⟨next, [], waiting⟩, [(1, 2)]⟩ :=
    .lands (@Ledger.Lands.intro Unit _ secondCompletion.2 [] [] [] false secondCompletion.1 [])
  have second : Step ⟨⟨next, [], waiting⟩, [(1, 2)]⟩ c :=
    .lands (@Ledger.Lands.intro Unit _ next [] [] [] false [] [])
  obtain ⟨maxDeferCount, run⟩ := reachable_completedTwice
  have reachable : c.Reachable := ⟨maxDeferCount, (run.tail first).tail second⟩
  have new : last.HasNew 2 := ⟨_, rfl, rfl⟩
  have family : c.Descends 1 2 := .single List.mem_cons_self
  obtain ⟨-, -, -, -, one⟩ := reachable.succession
  exact ⟨first, second, rfl, new, fun id chain newId => one 1 id 2 chain family newId new⟩

end Lineage

end RecurringWork
