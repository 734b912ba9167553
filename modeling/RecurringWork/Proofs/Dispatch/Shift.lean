import RecurringWork.Proofs.Backlog.Deadlines
import RecurringWork.Proofs.Dispatch.Processing

/-!
# RecurringWork.Proofs.Dispatch.Shift

**A single run, with everything that can happen while it is in progress.** A run takes up a
batch and hands it to the processor item by item. Between two items it does not wait for
anything, but the processor may take any time over an item, and may use the backlog as it
likes. A `Shift` is such a run, with the clock, the transaction around it, and a record of
what it has handed out and of what others have written meanwhile.

* Up to its look for work a run is by itself, and there is only one way for it to go
  (`Shift.Steps.of_opening`).
* From then on the batch is fixed. What has been handed out and what is left of it make up
  the batch, and the wake target is unknown until the run is over (`Shift.Course`).
* An item that is left of the batch is stored as it was looked at, unless somebody else has
  written something that concerns it (`Shift.Sound`).
-/

namespace RecurringWork

/-- Whoever is not in a transaction does not get into one. -/
@[simp] theorem Backlog.scope_record {α β : Type} (b : Backlog) (d : Draft α) :
    (b.record (none : Option (Scope Write β)) d).2.2 = none := by
  unfold record
  dsimp only
  split <;> rfl

/-- To record nothing changes nothing. -/
theorem Backlog.record_nil {β : Type} (b : Backlog) (scope : Option (Scope Write β)) :
    b.record scope ⟨(), []⟩ = (.ok (), b, scope) := by
  cases scope with
  | none => rfl
  | some s => simp [record]

/-- A run over a backlog, with everything around it. -/
structure Shift (β : Type) where
  ledger : Ledger β
  /-- The transaction around the run. -/
  scope : Option (Scope Write β)
  target : WakeTarget
  /-- What the clock shows. -/
  clock : Int
  /-- How far the run has come, unless it has broken off. -/
  progress : Option Progress
  /-- The processor is at work on the item at hand. -/
  busy : Bool
  /-- What the processor was handed, the first first. -/
  handed : List WorkItem
  /-- The identities that were concerned when somebody else's writes were carried out. -/
  touched : List Nat

namespace Ledger

variable {β : Type}

/-- The ledger when all items have been ended whose deadline has come at `now`. -/
def expired (l : Ledger β) (now : Int) : Ledger β :=
  { l with backlog := Operation.expire.perform now l.backlog }

theorem steps_expired (l : Ledger β) (now : Int) : Steps l (l.expired now) :=
  steps_perform l.backlog l.scopes l.landing .expire now

end Ledger

namespace Shift

variable {β : Type}

/-- A run begins. -/
def opening (l : Ledger β) (scope : Option (Scope Write β)) (target : WakeTarget) (clock : Int) :
    Shift β :=
  ⟨l, scope, target, clock, some .begun, false, [], []⟩

/-- The run with another backlog, and another transaction around it. -/
def withBacklog (s : Shift β) (b : Backlog) (scope : Option (Scope Write β)) : Shift β :=
  { s with ledger := { s.ledger with backlog := b }, scope }

/-- The run after the next thing that it does by itself. -/
def advance (pace : Pace) (share : Share) (s : Shift β) (r : Progress) : Shift β :=
  let (r', d) := r.next pace share s.clock ⟨s.target, s.ledger.backlog, s.scope⟩
  { s.withBacklog d.backlog d.scope with target := d.target, progress := some r' }

/-- The run after the verdict on the item at hand, with `rest` left to be processed. -/
def judged (pace : Pace) (s : Shift β) (full : Bool) (i : WorkItem) (rest : List WorkItem)
    (v : Verdict) : Shift β :=
  match pace.conclude s.ledger.backlog s.clock i v with
  | (.ok ws, b) =>
      let (_, b, scope) := b.record s.scope ⟨(), ws⟩
      { s.withBacklog b scope with progress := some (.working full rest), busy := false }
  | (.error _, b) => { s.withBacklog b s.scope with progress := none, busy := false }

/-- What happens while the processor is at work. -/
inductive Aside : Shift β → Shift β → Prop
  /-- The clock moves. -/
  | passes {s : Shift β} (t : Int) : Aside s { s with clock := t }
  /-- A write is carried out, of the processor or of anybody else. -/
  | lands {s : Shift β} {w : Write} {l : Ledger β} : Ledger.Lands w s.ledger l →
      Aside s { s with ledger := l, touched := w.touches ++ s.touched }
  /-- Something else happens to the backlog, by which nothing stored is changed. -/
  | uses {s : Shift β} {l : Ledger β} : Ledger.Step s.ledger l →
      l.backlog.items = s.ledger.backlog.items → Aside s { s with ledger := l }
  /-- Something is done inside of the transaction around the run. -/
  | joins {s : Shift β} {l : Ledger β} {around scope : Scope Write β} : s.scope = some around →
      Ledger.Meanwhile (s.ledger, around) (l, scope) →
      l.backlog.items = s.ledger.backlog.items → Aside s { s with ledger := l, scope := some scope }
  /-- Somebody asks for a run. -/
  | asks {s : Shift β} (t : Int) : Instant.minimum ≤ t →
      Aside s { s with target := (s.target.request t).2 }

/-- One thing that happens. -/
inductive Step (pace : Pace) (share : Share) : Shift β → Shift β → Prop
  /-- The run does the next thing that it does by itself. -/
  | advances {s : Shift β} (r : Progress) : s.progress = some r → s.busy = false →
      Step pace share s (s.advance pace share r)
  /-- The next item is handed to the processor. -/
  | hands {s : Shift β} {full : Bool} {i : WorkItem} {rest : List WorkItem} :
      s.progress = some (.working full (i :: rest)) → s.busy = false →
      Step pace share s { s with busy := true, handed := s.handed ++ [i] }
  /-- The processor is at work. -/
  | aside {s s' : Shift β} : s.busy = true → Aside s s' → Step pace share s s'
  /-- The processor has come to a verdict. -/
  | judges {s : Shift β} {full : Bool} {i : WorkItem} {rest : List WorkItem} (v : Verdict) :
      s.progress = some (.working full (i :: rest)) → s.busy = true →
      Step pace share s (s.judged pace full i rest v)
  /-- The processor fails, and the run with it. -/
  | fails {s : Shift β} : s.busy = true →
      Step pace share s { s with progress := none, busy := false }

/-- Any number of things that happen one after the other. -/
abbrev Steps (pace : Pace) (share : Share) : Shift β → Shift β → Prop :=
  Relation.ReflTransGen (Step pace share)

/-- A verdict that is recorded. -/
theorem judged_eq {pace : Pace} {s : Shift β} {full : Bool} {i : WorkItem} {rest : List WorkItem}
    {v : Verdict} {ws : List Write} {b : Backlog}
    (concluded : pace.conclude s.ledger.backlog s.clock i v = (.ok ws, b)) :
    s.judged pace full i rest v =
      { s.withBacklog (b.record s.scope ⟨(), ws⟩).2.1 (b.record s.scope ⟨(), ws⟩).2.2 with
        progress := some (.working full rest)
        busy := false } := by
  unfold judged
  rw [concluded]

/-- A verdict that cannot be recorded. -/
theorem judged_of_error {pace : Pace} {s : Shift β} {full : Bool} {i : WorkItem}
    {rest : List WorkItem} {v : Verdict} {f : Failure} {b : Backlog}
    (concluded : pace.conclude s.ledger.backlog s.clock i v = (.error f, b)) :
    s.judged pace full i rest v =
      { s.withBacklog b s.scope with progress := none, busy := false } := by
  unfold judged
  rw [concluded]

/-- A verdict that is recorded outside of any transaction. -/
theorem judged_of_ok {pace : Pace} {s : Shift β} {full : Bool} {i : WorkItem} {rest : List WorkItem}
    {v : Verdict} {ws : List Write} {b : Backlog} (alone : s.scope = none)
    (concluded : pace.conclude s.ledger.backlog s.clock i v = (.ok ws, b)) :
    s.judged pace full i rest v =
      { s.withBacklog (b.record (none : Option (Scope Write β)) ⟨(), ws⟩).2.1 none with
        progress := some (.working full rest)
        busy := false } := by
  rw [judged_eq concluded, alone, Backlog.scope_record]

/-! ### Up to the look for work -/

/-- The backlog when the run that begins looks for work, and the transaction around it: the items
are ended whose deadline has come. -/
def sighted (s : Shift β) : Backlog × Option (Scope Write β) :=
  (s.ledger.backlog.record s.scope (s.ledger.backlog.expire s.clock)).2

/-- What the run takes up. -/
def batch (pace : Pace) (share : Share) (s : Shift β) : List WorkItem :=
  pace.batch s.sighted.1 s.clock share

/-- The run when it has looked for work. -/
def looked (pace : Pace) (share : Share) (s : Shift β) : Shift β :=
  { s.withBacklog s.sighted.1 s.sighted.2 with
    target := .unknown
    progress := some (.working (pace.isFull (s.batch pace share)) (s.batch pace share)) }

variable {pace : Pace} {share : Share}

/-- Outside of any transaction the items are ended at once. -/
theorem sighted_of_alone {s : Shift β} (alone : s.scope = none) :
    s.sighted = ((s.ledger.expired s.clock).backlog, none) := by
  have backlog := @Workshop.record_expire β s.ledger.backlog s.clock
  unfold sighted
  rw [alone]
  exact Prod.ext backlog (Backlog.scope_record _ _)

/-- A run that has no item to hand out goes on by itself. -/
theorem Step.eq_advance {s s' : Shift β} (st : Step pace share s s') {r : Progress}
    (on : s.progress = some r) (idle : s.busy = false)
    (nothing : ∀ full i rest, r ≠ .working full (i :: rest)) : s' = s.advance pace share r := by
  cases st with
  | advances r here _ =>
      rw [on] at here
      cases here
      rfl
  | hands here _ =>
      rw [on] at here
      cases here
      exact absurd rfl (nothing _ _ _)
  | judges _ _ busy | aside busy _ | fails busy =>
      rw [idle] at busy
      cases busy

/-- What has become of a run that has not looked for work yet, or has just done so. -/
inductive Early (pace : Pace) (share : Share) (start : Shift β) : Shift β → Prop
  | begun : Early pace share start start
  | marked : Early pace share start
      { start with target := .unknown, progress := some .marked }
  | expired : Early pace share start
      { start.withBacklog start.sighted.1 start.sighted.2 with
        target := .unknown
        progress := some .expired }

/-- **Up to its look for work there is only one way for a run to go.** -/
theorem Steps.of_opening {l : Ledger β} {scope : Option (Scope Write β)} {target : WakeTarget}
    {clock : Int} {s : Shift β} (run : Steps pace share (opening l scope target clock) s) :
    Early pace share (opening l scope target clock) s ∨
      Steps pace share ((opening l scope target clock).looked pace share) s := by
  induction run with
  | refl => exact .inl .begun
  | tail _ st ih =>
      rcases ih with early | looked
      · cases early with
        | begun =>
            rw [st.eq_advance rfl rfl (by simp)]
            exact .inl .marked
        | marked =>
            rw [st.eq_advance rfl rfl (by simp)]
            exact .inl .expired
        | expired =>
            rw [st.eq_advance rfl rfl (by simp)]
            exact .inr .refl
      · exact .inr (looked.tail st)

theorem steps_looked (l : Ledger β) (scope : Option (Scope Write β)) (target : WakeTarget)
    (clock : Int) : Steps pace share (opening l scope target clock)
      ((opening l scope target clock).looked pace share) := by
  let start := opening l scope target clock
  let marked : Shift β := { start with target := .unknown, progress := some .marked }
  let expired : Shift β := { start.withBacklog start.sighted.1 start.sighted.2 with
    target := .unknown
    progress := some .expired }
  have marks : Step pace share start marked := .advances .begun rfl rfl
  have expires : Step pace share marked expired := .advances .marked rfl rfl
  have looks : Step pace share expired (start.looked pace share) := .advances .expired rfl rfl
  exact ((Relation.ReflTransGen.single marks).tail expires).tail looks

/-- Outside of any transaction, a run has looked for work. -/
theorem steps_of_batch {l : Ledger β} {target : WakeTarget} {clock : Int} {found : List WorkItem}
    (taken : pace.batch (l.expired clock).backlog clock share = found) :
    Steps pace share (opening l none target clock) ⟨l.expired clock, none, .unknown, clock,
      some (.working (pace.isFull found) found), false, [], []⟩ := by
  have run := @steps_looked β pace share l none target clock
  have same : (opening l none target clock).sighted = ((l.expired clock).backlog, none) :=
    sighted_of_alone rfl
  unfold looked batch at run
  rw [same] at run
  rw [← taken]
  exact run

/-! ### How a run goes on -/

section

variable {start : Shift β} {l : Ledger β} {scope : Option (Scope Write β)} {target : WakeTarget}
  {clock : Int} {full : Bool} {i : WorkItem} {rest handed : List WorkItem} {touched : List Nat}

/-- The next item is handed out. -/
theorem Steps.hands (run : Steps pace share start
      ⟨l, scope, target, clock, some (.working full (i :: rest)), false, handed, touched⟩) :
    Steps pace share start
      ⟨l, scope, target, clock, some (.working full (i :: rest)), true, handed ++ [i], touched⟩ :=
  run.tail (.hands rfl rfl)

/-- The processor takes its time. -/
theorem Steps.waits (t : Int) (run : Steps pace share start
      ⟨l, scope, target, clock, some (.working full (i :: rest)), true, handed, touched⟩) :
    Steps pace share start
      ⟨l, scope, target, t, some (.working full (i :: rest)), true, handed, touched⟩ :=
  run.tail (.aside rfl (.passes t))

/-- The processor, or somebody else, calls an operation, and the write is carried out that it has
drafted. -/
theorem Steps.calls {b c after : Backlog} {scopes landing : List (Scope Write β)} {op : Operation}
    {w : Write} (run : Steps pace share start ⟨⟨b, scopes, landing⟩, scope, target, clock,
      some (.working full (i :: rest)), true, handed, touched⟩) (now : Int)
    (drafted : op.draft now b = ([w], c)) (settled : c.settle w = after) :
    Steps pace share start ⟨⟨after, scopes, landing⟩, scope, target, clock,
      some (.working full (i :: rest)), true, handed, w.touches ++ touched⟩ := by
  have items : c.items = b.items := by
    have same := (Backlog.drafted op now b).items
    rwa [drafted] at same
  have called : Ledger.Step (⟨b, scopes, landing⟩ : Ledger β)
      ⟨c, scopes, ⟨false, [w], []⟩ :: landing⟩ := by
    have calls := @Ledger.Directly.intro β op now b scopes landing
    rw [drafted] at calls
    exact .directly calls
  have lands : Ledger.Lands w (⟨c, scopes, ⟨false, [w], []⟩ :: landing⟩ : Ledger β)
      ⟨after, scopes, ⟨false, [], []⟩ :: landing⟩ :=
    settled ▸ @Ledger.Lands.intro β w c scopes [] landing false [] []
  have ends : Ledger.Step (⟨after, scopes, ⟨false, [], []⟩ :: landing⟩ : Ledger β)
      ⟨after, scopes, landing⟩ := .turns (@Ledger.Turns.ends β after scopes [] landing false)
  exact ((run.tail (.aside rfl (.uses called items))).tail (.aside rfl (.lands lands))).tail
    (.aside rfl (.uses ends rfl))

/-- Its verdict is recorded outside of any transaction. -/
theorem Steps.judges {b c after : Backlog} {scopes landing : List (Scope Write β)} {v : Verdict}
    {ws : List Write} (run : Steps pace share start ⟨⟨b, scopes, landing⟩, none, target, clock,
      some (.working full (i :: rest)), true, handed, touched⟩)
    (concluded : pace.conclude b clock i v = (.ok ws, c))
    (recorded : (c.record (none : Option (Scope Write β)) ⟨(), ws⟩).2.1 = after) :
    Steps pace share start ⟨⟨after, scopes, landing⟩, none, target, clock,
      some (.working full rest), false, handed, touched⟩ := by
  have judges : Step pace share ⟨⟨b, scopes, landing⟩, none, target, clock,
      some (.working full (i :: rest)), true, handed, touched⟩ _ := .judges v rfl rfl
  rw [judged_of_ok rfl concluded, recorded] at judges
  exact run.tail judges

/-- When everything has been handed out the run comes to its end. -/
theorem Steps.settles {pause : Duration} (run : Steps pace share start
      ⟨l, scope, target, clock, some (.working full []), false, handed, touched⟩)
    (planned : pace.pause l.backlog clock share full = pause) : Steps pace share start
      ⟨l, scope, .after clock pause, clock, some (.settled pause), false, handed, touched⟩ := by
  subst planned
  let pause := pace.pause l.backlog clock share full
  have plans : Step pace share
      ⟨l, scope, target, clock, some (.working full []), false, handed, touched⟩
      ⟨l, scope, target, clock, some (.planned clock pause), false, handed, touched⟩ :=
    .advances (.working full []) rfl rfl
  have settles : Step pace share
      ⟨l, scope, target, clock, some (.planned clock pause), false, handed, touched⟩
      ⟨l, scope, .after clock pause, clock, some (.settled pause), false, handed, touched⟩ :=
    .advances (.planned clock pause) rfl rfl
  exact (run.tail plans).tail settles

end

/-! ### The batch -/

/-- What holds of a run that has looked for work and has taken up a batch. -/
inductive Course (pace : Pace) (share : Share) (batch : List WorkItem) : Shift β → Prop
  | idle {l : Ledger β} {scope : Option (Scope Write β)} {clock : Int} {handed rest : List WorkItem}
      {touched : List Nat} : handed ++ rest = batch →
      Course pace share batch ⟨l, scope, .unknown, clock,
        some (.working (pace.isFull batch) rest), false, handed, touched⟩
  | busy {l : Ledger β} {scope : Option (Scope Write β)} {clock : Int} {i : WorkItem}
      {handed rest : List WorkItem} {touched : List Nat} : handed ++ i :: rest = batch →
      Course pace share batch ⟨l, scope, .unknown, clock,
        some (.working (pace.isFull batch) (i :: rest)), true, handed ++ [i], touched⟩
  | planned {l : Ledger β} {scope : Option (Scope Write β)} {clock : Int} {touched : List Nat} :
      Course pace share batch ⟨l, scope, .unknown, clock,
        some (.planned clock (pace.pause l.backlog clock share (pace.isFull batch))), false, batch,
        touched⟩
  | settled {l : Ledger β} {scope : Option (Scope Write β)} {clock : Int} {touched : List Nat} :
      Course pace share batch ⟨l, scope,
        .after clock (pace.pause l.backlog clock share (pace.isFull batch)), clock,
        some (.settled (pace.pause l.backlog clock share (pace.isFull batch))), false, batch,
        touched⟩
  | broken {l : Ledger β} {scope : Option (Scope Write β)} {clock : Int} {handed : List WorkItem}
      {touched : List Nat} :
      Course pace share batch ⟨l, scope, .unknown, clock, none, false, handed, touched⟩

theorem Course.step {batch : List WorkItem} {s s' : Shift β} (h : Course pace share batch s)
    (st : Step pace share s s') : Course pace share batch s' := by
  cases h with
  | @idle l scope clock handed rest touched split =>
      cases rest with
      | nil =>
          rw [st.eq_advance rfl rfl (by simp)]
          rw [List.append_nil] at split
          subst split
          exact .planned
      | cons i rest =>
          cases st with
          | advances r on _ =>
              cases on
              exact .idle split
          | hands on _ =>
              cases on
              exact .busy split
          | judges _ _ busy | aside busy _ | fails busy => cases busy
  | @busy l scope clock i handed rest touched split =>
      have behind : (handed ++ [i]) ++ rest = batch := by simp [split]
      cases st with
      | advances r _ idle | hands _ idle => cases idle
      | aside _ aside =>
          cases aside with
          | passes t => exact .busy split
          | lands _ => exact .busy split
          | uses _ _ => exact .busy split
          | joins _ _ _ => exact .busy split
          | asks t low =>
              rw [WakeTarget.request_unknown low]
              exact .busy split
      | judges v on _ =>
          cases on
          unfold judged
          split
          · exact .idle behind
          · exact .broken
      | fails _ => exact .broken
  | planned =>
      rw [st.eq_advance rfl rfl (by simp)]
      exact .settled
  | settled =>
      rw [st.eq_advance rfl rfl (by simp)]
      exact .settled
  | broken =>
      cases st with
      | advances r on _ | hands on _ => cases on
      | judges _ _ busy | aside busy _ | fails busy => cases busy

theorem Course.steps {batch : List WorkItem} {s s' : Shift β} (h : Course pace share batch s)
    (run : Steps pace share s s') : Course pace share batch s' := by
  induction run with
  | refl => exact h
  | tail _ st ih => exact ih.step st

/-- **The batch is handed out from the front, and the wake target is unknown until the run is
over.** -/
theorem Steps.course {l : Ledger β} {scope : Option (Scope Write β)} {target : WakeTarget}
    {clock : Int} {s : Shift β}
    (run : Steps pace share ((opening l scope target clock).looked pace share) s) :
    Course pace share ((opening l scope target clock).batch pace share) s :=
  Course.steps (.idle (List.nil_append _)) run

/-! ### What is left of the batch -/

/-- What has not been processed. -/
def rest (s : Shift β) : List WorkItem :=
  match s.progress with
  | some (.working _ rest) => rest
  | _ => []

/-- What holds of a run outside of any transaction that has taken up a batch from a ledger. -/
structure Sound (pace : Pace) (share : Share) (sight : Ledger β) (batch : List WorkItem)
    (s : Shift β) : Prop where
  course : Course pace share batch s
  alone : s.scope = none
  run : Ledger.Steps sight s.ledger
  /-- What nobody else has written about is stored as it was taken up. -/
  stored : ∀ i ∈ s.rest, i.id ∉ s.touched → s.ledger.backlog.get? i.id = some i

variable {sight : Ledger β} {taken : List WorkItem}

theorem Course.rest_sublist {s : Shift β} (h : Course pace share taken s) :
    s.rest.Sublist taken := by
  cases h with
  | idle split | busy split => exact split ▸ List.sublist_append_right _ _
  | planned | settled | broken => exact List.nil_sublist _

theorem Sound.aside {s s' : Shift β} (h : Sound pace share sight taken s) (start : sight.Sound)
    (busy : s.busy = true) (aside : Aside s s') : Sound pace share sight taken s' := by
  have course := h.course.step (.aside busy aside)
  cases aside with
  | passes t => exact ⟨course, h.alone, h.run, h.stored⟩
  | asks t _ => exact ⟨course, h.alone, h.run, h.stored⟩
  | @lands w l landing =>
      refine ⟨course, h.alone, h.run.tail (.lands landing), fun i mem apart => ?_⟩
      obtain ⟨others, mine⟩ := not_or.mp (mt List.mem_append.mpr apart)
      have ordered : s.ledger.backlog.Ordered := Backlog.Sound.ordered (start.steps h.run)
      have kept : l.backlog.get? i.id = s.ledger.backlog.get? i.id := by
        rw [landing.backlog]
        exact Backlog.get?_settle_of_not_mem ordered others
      exact kept.trans (h.stored i mem mine)
  | @uses l st same =>
      refine ⟨course, h.alone, h.run.tail st, fun i mem apart => ?_⟩
      show l.backlog.get? i.id = some i
      rw [Backlog.get?, same]
      exact h.stored i mem apart
  | joins around _ _ =>
      rw [h.alone] at around
      cases around

theorem Sound.judges {l : Ledger β} {target : WakeTarget} {clock : Int} {full : Bool} {i : WorkItem}
    {rest handed : List WorkItem} {touched : List Nat} {v : Verdict}
    (h : Sound pace share sight taken
      ⟨l, none, target, clock, some (.working full (i :: rest)), true, handed, touched⟩)
    (start : sight.Sound) (distinct : (taken.map WorkItem.id).Nodup) :
    Sound pace share sight taken
      (judged pace ⟨l, none, target, clock, some (.working full (i :: rest)), true, handed, touched⟩
        full i rest v) := by
  have course := h.course.step (.judges v rfl rfl)
  have sound := start.steps h.run
  obtain ⟨b, scopes, landing⟩ := l
  cases concluded : pace.conclude b clock i v with
  | mk result c =>
      cases result with
      | error f =>
          unfold judged at course ⊢
          rw [concluded] at course ⊢
          exact ⟨course, rfl, h.run.trans (Pace.steps_of_conclude_error concluded scopes landing),
            fun _ mem => by cases mem⟩
      | ok ws =>
          rw [judged_of_ok rfl concluded] at course ⊢
          have steps := @Workshop.steps_conclude β _ _ _ _ _ _ _ concluded scopes landing
          refine ⟨course, rfl, h.run.trans steps, fun j mem apart => ?_⟩
          have stored : b.get? j.id = some j := h.stored j (List.mem_cons_of_mem i mem) apart
          have different := List.Nodup.sublist (h.course.rest_sublist.map WorkItem.id) distinct
          have other : j.id ≠ i.id := fun same =>
            (List.nodup_cons.mp different).1 (same ▸ List.mem_map_of_mem mem)
          have old : j.id ≠ b.nextId := Nat.ne_of_lt (Backlog.Sound.stored_lt sound stored)
          exact (Pace.get?_record_of_ne β sound.ordered concluded other old).trans stored

/-- **Whatever happens, what is left of the batch is stored as it was taken up, unless somebody
else has written about it.** -/
theorem Sound.step {s s' : Shift β} (h : Sound pace share sight taken s) (start : sight.Sound)
    (distinct : (taken.map WorkItem.id).Nodup) (st : Step pace share s s') :
    Sound pace share sight taken s' := by
  have course := h.course.step st
  cases st with
  | aside busy aside => exact h.aside start busy aside
  | fails _ => exact ⟨course, h.alone, h.run, fun _ mem => by cases mem⟩
  | hands on _ =>
      obtain ⟨l, scope, target, clock, progress, busy, handed, touched⟩ := s
      cases on
      exact ⟨course, h.alone, h.run, h.stored⟩
  | judges v on busy =>
      obtain ⟨l, scope, target, clock, progress, busy, handed, touched⟩ := s
      cases on
      cases busy
      cases h.alone
      exact h.judges start distinct
  | advances r on _ =>
      have before := h.course
      cases before with
      | @idle l scope clock handed rest touched split =>
          cases on
          cases rest with
          | nil => exact ⟨course, h.alone, h.run, fun _ mem => by cases mem⟩
          | cons i rest => exact ⟨course, h.alone, h.run, h.stored⟩
      | busy _ => contradiction
      | planned | settled =>
          cases on
          exact ⟨course, h.alone, h.run, fun _ mem => by cases mem⟩
      | broken => cases on

/-- **What is left of the batch of a run outside of any transaction is stored as it was taken up,
unless somebody else has written about it.** -/
theorem Steps.sound {l : Ledger β} {target : WakeTarget} {clock : Int} {s : Shift β}
    (start : l.Reachable)
    (run : Steps pace share ((opening l none target clock).looked pace share) s) :
    Sound pace share (l.expired clock) (pace.batch (l.expired clock).backlog clock share) s := by
  have reached : (l.expired clock).Reachable := start.steps (l.steps_expired clock)
  have ordered : (l.expired clock).backlog.Ordered := Backlog.Sound.ordered reached.sound
  have offers := ordered.offers_batch pace clock share
  have ledger : ((opening l none target clock).looked pace share).ledger = l.expired clock := by
    show ({ l with backlog := _ } : Ledger β) = _
    rw [sighted_of_alone rfl]
    rfl
  have same : (opening l none target clock).batch pace share =
      pace.batch (l.expired clock).backlog clock share := by
    rw [batch, sighted_of_alone rfl]
    rfl
  have first : Sound pace share (l.expired clock) (pace.batch (l.expired clock).backlog clock share)
      ((opening l none target clock).looked pace share) := by
    refine ⟨same ▸ Course.idle (List.nil_append _), ?_, ?_, fun i mem _ => ?_⟩
    · show (opening l none target clock).sighted.2 = none
      rw [sighted_of_alone rfl]
    · rw [ledger]
    · rw [ledger]
      exact (offers.waiting i (same ▸ mem)).1
  induction run with
  | refl => exact first
  | tail _ st ih => exact ih.step reached.sound offers.distinct st

/-- What holds of a run outside of any transaction, begun at `clock`, when the turn of an item has
come. -/
structure Turn (pace : Pace) (share : Share) (l : Ledger β) (clock : Int) (s : Shift β)
    (i : WorkItem) : Prop where
  sound : Sound pace share (l.expired clock) (pace.batch (l.expired clock).backlog clock share) s
  taken : i ∈ pace.batch (l.expired clock).backlog clock share
  /-- It waited when the run looked for work. -/
  seen : (l.expired clock).backlog.get? i.id = some i
  new : i.state = .new
  stored : i.id ∉ s.touched → s.ledger.backlog.get? i.id = some i

theorem Steps.turn {l : Ledger β} {target : WakeTarget} {clock : Int} {s : Shift β} {full : Bool}
    {i : WorkItem} {rest : List WorkItem} (start : l.Reachable)
    (run : Steps pace share (opening l none target clock) s)
    (on : s.progress = some (.working full (i :: rest))) : Turn pace share l clock s i := by
  rcases run.of_opening with early | looked
  · cases early <;> cases on
  · have sound := looked.sound start
    have left : i ∈ s.rest := by
      rw [Shift.rest, on]
      exact List.mem_cons_self
    have taken := sound.course.rest_sublist.subset left
    have ordered : (l.expired clock).backlog.Ordered :=
      Backlog.Sound.ordered (start.steps (l.steps_expired clock)).sound
    obtain ⟨seen, new⟩ := (ordered.offers_batch pace clock share).waiting i taken
    exact ⟨sound, taken, seen, new, sound.stored i left⟩

/-- The processor is only at work on what it has been handed. -/
theorem Course.handed_ne_nil {s : Shift β} (h : Course pace share taken s) (busy : s.busy = true) :
    s.handed ≠ [] := by
  cases h with
  | busy _ => simp
  | idle _ | planned | settled | broken => cases busy

/-- Nothing happens beside a run before it hands out the first item. -/
theorem Steps.undisturbed {l : Ledger β} {scope : Option (Scope Write β)} {target : WakeTarget}
    {clock : Int} {s : Shift β} (run : Steps pace share (opening l scope target clock) s)
    (none : s.handed = []) : s.clock = clock ∧ s.touched = [] := by
  rcases run.of_opening with early | looked
  · cases early <;> exact ⟨rfl, rfl⟩
  · induction looked with
    | refl => exact ⟨rfl, rfl⟩
    | tail sofar st ih =>
        have before := (steps_looked l scope target clock).trans sofar
        have course := Steps.course sofar
        cases st with
        | advances r _ _ => exact ih before none
        | hands _ _ => simp at none
        | aside busy aside =>
            have handed := course.handed_ne_nil busy
            cases aside <;> exact absurd none handed
        | fails busy => exact absurd none (course.handed_ne_nil busy)
        | judges v _ busy =>
            refine absurd none ?_
            unfold judged
            split <;> exact course.handed_ne_nil busy

end Shift

end RecurringWork
