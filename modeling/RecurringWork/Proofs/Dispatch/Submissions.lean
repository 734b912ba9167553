import RecurringWork.Dispatch.Writer
import RecurringWork.Proofs.Backlog.Dates
import RecurringWork.Proofs.Backlog.Interim
import RecurringWork.Proofs.Transaction.Telling

/-!
# RecurringWork.Proofs.Dispatch.Submissions

**Items that are handed in together are stored together or not at all**, and the worker is
nudged once, after they are stored. A submission adds its items one after the other and stops
at the first that is refused (`adds_addAll`). What comes of that depends on what is around it:

* with nothing around it, or a transaction that is doomed, its own transaction commits or is
  given up at once (`Settled`);
* a transaction that can still commit it joins. From then on the items are as good as that
  transaction is: nothing is stored as long as it is open, all of them are when it commits, and
  none ever if it is given up. After a refusal it can only be given up (`Pending`).

Both are facts about everything that can happen afterwards, and are read off from what is known
of an open transaction in general.
-/

namespace RecurringWork

variable {β : Type}

namespace Backlog

/-! ### Adding items one after the other -/

/-- What comes of adding `items` in a scope, the first of which have been added. -/
structure Adds (items : List WorkItem) (b : Backlog) (s : Scope Write β)
    (r : Except Failure (List WorkItem)) (c : Backlog) (t : Scope Write β)
    (added : List WorkItem) : Prop where
  unstored : c.items = b.items
  handed_out : c.nextId = b.nextId + added.length
  staged : t = s.stage (added.map .insert)
  /-- They have got the identities that come next. -/
  ids : added.map WorkItem.id = List.range' b.nextId added.length
  /-- Each has a time. -/
  dated : ∀ i ∈ added, ∃ due, i.scheduleTime = some due
  /-- If none was refused, all have been added, as they are answered. -/
  all : ∀ stored, r = .ok stored → added = stored ∧ stored.length = items.length

theorem add_inv {b c : Backlog} {now : Int} {item : WorkItem} {d : Draft WorkItem}
    (h : b.add now item = (.ok d, c)) :
    ∃ due, d = ⟨b.admitted now due item, [.insert (b.admitted now due item)]⟩ ∧
      c.items = b.items ∧ c.nextId = b.nextId + 1 := by
  unfold add at h
  split at h
  · cases h
  · next due plans _ =>
      cases h
      exact ⟨due, rfl, rfl, rfl⟩

/-- **Items are added up to the first that is refused**: whatever the outcome, what has been
added is staged, and nothing is stored. -/
theorem adds_addAll (now : Int) (items : List WorkItem) (b : Backlog) (s : Scope Write β) :
    ∃ added, Adds items b s (addAll now items b s).1 (addAll now items b s).2.1
      (addAll now items b s).2.2 added := by
  induction items generalizing b s with
  | nil => exact ⟨[], rfl, rfl, by simp [addAll], rfl, by simp, by simp [addAll, eq_comm]⟩
  | cons item rest ih =>
      rw [addAll]
      rcases first : b.add now item with ⟨f | d, c⟩
      · have unstored : c.items = b.items := by
          simpa [first] using items_add b now item
        have refused : (b.add now item).1 = .error f := by rw [first]
        have handed_out : c.nextId = b.nextId := by
          simpa [first] using nextId_add_of_error refused
        exact ⟨[], unstored, handed_out, by simp, rfl, by simp, by simp⟩
      · obtain ⟨due, rfl, unstored, handed_out⟩ := add_inv first
        dsimp only
        obtain ⟨added, others⟩ := ih c (s.stage [.insert (b.admitted now due item)])
        rcases later : addAll now rest c (s.stage [.insert (b.admitted now due item)]) with
          ⟨r, e, t⟩
        rw [later] at others
        have count : e.nextId = b.nextId + (added.length + 1) := by
          have := others.handed_out
          dsimp only at this
          omega
        have ids : (b.admitted now due item :: added).map WorkItem.id =
            List.range' b.nextId (added.length + 1) := by
          rw [List.map_cons, others.ids, handed_out, List.range'_succ]
          rfl
        have dated : ∀ i ∈ b.admitted now due item :: added,
            ∃ due, i.scheduleTime = some due := by
          intro i mem
          rcases List.mem_cons.mp mem with rfl | mem
          · exact ⟨due, rfl⟩
          · exact others.dated i mem
        have staged : t = s.stage ((b.admitted now due item :: added).map .insert) := by
          rw [show t = _ from others.staged]
          simp [Scope.stage]
        refine ⟨b.admitted now due item :: added, ?_⟩
        cases r with
        | error f => exact ⟨others.unstored.trans unstored, count, staged, ids, dated, by simp⟩
        | ok stored =>
            obtain ⟨rfl, length⟩ := others.all stored rfl
            refine ⟨others.unstored.trans unstored, count, staged, ids, dated, ?_⟩
            rintro _ ⟨⟩
            exact ⟨rfl, by simp [length]⟩

/-- Whatever is handed out while items are added, one of them is staged under. -/
theorem mem_freshOf_inserts {added : List WorkItem} {first next id : Nat}
    (ids : added.map WorkItem.id = List.range' first added.length)
    (handed_out : next = first + added.length) (low : first ≤ id) (high : id < next) :
    id ∈ freshOf (added.map .insert) := by
  rw [freshOf_map_insert, ids, List.mem_range'_1]
  omega

/-- To add items in an open transaction is to call operations in it. -/
theorem addAll_during (now : Int) (items : List WorkItem) (b : Backlog) (s : Scope Write β)
    (scopes landing : List (Scope Write β)) :
    Ledger.During (⟨b, scopes, landing⟩, s)
      (⟨(addAll now items b s).2.1, scopes, landing⟩, (addAll now items b s).2.2) := by
  induction items generalizing b s with
  | nil => exact .refl
  | cons item rest ih =>
      have call : Ledger.Meanwhile (⟨b, scopes, landing⟩, s)
          (⟨(b.add now item).2, scopes, landing⟩,
            s.stage (draftedWrites (b.add now item).1)) :=
        .inside (.calls (.add item) now)
      rw [addAll]
      rcases first : b.add now item with ⟨f | d, c⟩
      · rw [first, draftedWrites, Scope.stage_nil] at call
        exact .single call
      · rw [first, draftedWrites] at call
        have others := ih c (s.stage d.writes)
        dsimp only
        rcases later : addAll now rest c (s.stage d.writes) with ⟨_ | stored, e, t⟩
        · rw [later] at others
          exact others.head call
        · rw [later] at others
          exact others.head call

/-- Who is told that items were added: nobody if there are none, and otherwise one listener,
of the earliest time of them. -/
def Announces (announce : Int → β) (stored : List WorkItem) (told : List β) : Prop :=
  (stored = [] ∧ told = []) ∨ ∃ due, told = [announce due] ∧
    (∃ i ∈ stored, i.scheduleTime = some due) ∧
    ∀ i ∈ stored, ∃ t, i.scheduleTime = some t ∧ due ≤ t

/-- Who adds items announces them once, in the scope they are staged in. -/
theorem announced_inv (announce : Int → β) {stored : List WorkItem}
    (dated : ∀ i ∈ stored, ∃ due, i.scheduleTime = some due) (s : Scope Write β) :
    ∃ told, announced announce stored s = { s with listeners := s.listeners ++ told } ∧
      Announces announce stored told := by
  unfold announced
  split
  · next due found =>
      obtain ⟨mem, least⟩ := earliest_eq_some_inv found
      obtain ⟨i, i_mem, time⟩ := List.mem_filterMap.mp mem
      refine ⟨[announce due], rfl, .inr ⟨due, rfl, ⟨i, i_mem, time⟩, ?_⟩⟩
      intro j j_mem
      obtain ⟨t, later⟩ := dated j j_mem
      exact ⟨t, later, least t (List.mem_filterMap.mpr ⟨j, j_mem, later⟩)⟩
  · next none =>
      refine ⟨[], by simp, .inl ⟨?_, rfl⟩⟩
      cases stored with
      | nil => rfl
      | cons i rest =>
          obtain ⟨t, time⟩ := dated i List.mem_cons_self
          obtain ⟨d, found, -⟩ := earliest_le
            (List.mem_filterMap.mpr ⟨i, List.mem_cons_self, time⟩ :
              t ∈ (i :: rest).filterMap WorkItem.scheduleTime)
          rw [none] at found
          cases found

theorem announced_during (announce : Int → β) (stored : List WorkItem) (l : Ledger β)
    (s : Scope Write β) : Ledger.During (l, s) (l, announced announce stored s) := by
  unfold announced
  split
  · next due _ => exact .single (.inside (.listens (announce due)))
  · exact .refl

end Backlog

/-! ### Submissions -/

namespace Submission

open Backlog Ledger

variable {announce : Int → β} {items : List WorkItem} {now : Int} {b : Backlog}

theorem submit_of_alone {around : Option (Scope Write β)} (alone : ∀ s ∈ around, s.doomed = true)
    {r : Except Failure (List WorkItem)} {c : Backlog} {t : Scope Write β} :
    addAll now items b .empty = (r, c, t) →
    submit b now around announce items =
      match r with
      | .ok stored => ⟨.ok stored, c.commit (announced announce stored t).staged, around,
          (announced announce stored t).listeners⟩
      | .error f => ⟨.error f, c, around, []⟩ := by
  intro added
  have own : around.filter (fun s => !s.doomed) = none := by
    cases around with
    | none => rfl
    | some s => simp [alone s rfl]
  rw [submit, own, added]
  cases r <;> rfl

theorem submit_of_healthy {s : Scope Write β} (healthy : s.doomed = false)
    {r : Except Failure (List WorkItem)} {c : Backlog} {t : Scope Write β} :
    addAll now items b s = (r, c, t) →
    submit b now (some s) announce items =
      match r with
      | .ok stored => ⟨.ok stored, c, some (announced announce stored t), []⟩
      | .error (.error e) => ⟨.error e, c, some t.doom, []⟩
      | .error .fault => ⟨.error .fault, c, some t, []⟩ := by
  intro added
  have own : (some s).filter (fun s => !s.doomed) = some s := by simp [healthy]
  rw [submit, own]
  dsimp only
  rw [added]
  rcases r with (_ | _) | _ <;> rfl

/-- Who has added items tells of the earliest of them at once. -/
theorem announces_of_alone {around : Option (Scope Write β)} (alone : ∀ s ∈ around, s.doomed = true)
    {stored : List WorkItem} (answered : (submit b now around announce items).result = .ok stored) :
    (submit b now around announce items).scope = around ∧
      stored.length = items.length ∧
      Announces announce stored (submit b now around announce items).told := by
  obtain ⟨added, adds⟩ := adds_addAll now items b (Scope.empty : Scope Write β)
  rcases result : addAll now items b (Scope.empty : Scope Write β) with ⟨r, c, t⟩
  rw [result] at adds
  rw [submit_of_alone alone result] at answered ⊢
  cases r with
  | error f => cases answered
  | ok stored' =>
      cases answered
      obtain ⟨rfl, length⟩ := adds.all stored rfl
      obtain ⟨told, scope, announces⟩ := announced_inv announce adds.dated t
      have listeners : t.listeners = [] := by
        rw [show t = _ from adds.staged]
        rfl
      refine ⟨rfl, length, ?_⟩
      dsimp only
      rw [scope, listeners]
      exact announces

/-- A submission with a transaction of its own: all of its items are stored and announced, or
none is. -/
structure Settled (l : Ledger β) (announce : Int → β) (items : List WorkItem)
    (r : Submission β) : Prop where
  /-- The items that are answered have got the identities that come next. They are stored as
  they are answered, and nothing else changes. -/
  stores : ∀ stored, r.result = .ok stored →
    stored.map WorkItem.id = List.range' l.backlog.nextId items.length ∧
      (∀ i ∈ stored, r.backlog.get? i.id = some i) ∧
      ∀ id, id ∉ stored.map WorkItem.id → r.backlog.get? id = l.backlog.get? id
  announces : ∀ stored, r.result = .ok stored → Announces announce stored r.told
  /-- After a refusal everything is as it was, and what was handed out before it will never be
  used. -/
  refuses : ∀ f, r.result = .error f →
    r.told = [] ∧ r.backlog.items = l.backlog.items ∧
      ∀ id, l.backlog.nextId ≤ id → id < r.backlog.nextId →
        ∀ m, Steps { l with backlog := r.backlog } m → m.backlog.get? id = none

theorem settled {l : Ledger β} (sound : l.Sound) {around : Option (Scope Write β)}
    (alone : ∀ s ∈ around, s.doomed = true) (now : Int) (announce : Int → β)
    (items : List WorkItem) :
    (submit l.backlog now around announce items).scope = around ∧
      Settled l announce items (submit l.backlog now around announce items) := by
  obtain ⟨added, adds⟩ := adds_addAll now items l.backlog (Scope.empty : Scope Write β)
  have during := addAll_during now items l.backlog Scope.empty l.scopes l.landing
  rcases result : addAll now items l.backlog (Scope.empty : Scope Write β) with ⟨r, c, t⟩
  rw [result] at adds during
  rw [submit_of_alone alone result]
  have staged : t.staged = added.map .insert := by
    rw [show t = _ from adds.staged]
    rfl
  have began : (l.including .empty).Sound :=
    sound.step (.turns (@Turns.opens β l.backlog l.scopes l.landing))
  have own : (({ l with backlog := c } : Ledger β).including t).Sound := Sound.during began during
  cases r with
  | error f =>
      refine ⟨rfl, by simp, by simp, fun g _ => ⟨rfl, adds.unstored, ?_⟩⟩
      intro id low high m run
      refine own.unstored ?_ run
      rw [staged]
      exact mem_freshOf_inserts adds.ids adds.handed_out low high
  | ok stored =>
      obtain ⟨rfl, length⟩ := adds.all stored rfl
      obtain ⟨told, scope, announces⟩ := announced_inv announce adds.dated t
      have listeners : t.listeners = [] := by
        rw [show t = _ from adds.staged]
        rfl
      have ordered : c.Ordered := Backlog.Sound.ordered own
      have distinct : (added.map WorkItem.id).Nodup := adds.ids ▸ List.nodup_range'
      dsimp only
      rw [scope, listeners, staged]
      refine ⟨rfl, ?_, ?_, by simp⟩
      · rintro _ ⟨⟩
        refine ⟨by rw [adds.ids, length], fun i mem => get?_commit_insert ordered distinct mem, ?_⟩
        intro id other
        refine (get?_commit_insert_of_not_mem ordered other).trans ?_
        rw [Backlog.get?, Backlog.get?, adds.unstored]
      · rintro _ ⟨⟩
        exact announces

/-! ### In a transaction that can commit -/

/-- A submission in a transaction `s` stages what it adds. -/
structure Joined (l : Ledger β) (s : Scope Write β) (announce : Int → β) (items : List WorkItem)
    (r : Submission β) (added : List WorkItem) (t : Scope Write β) : Prop where
  scope : r.scope = some t
  quiet : r.told = [] ∧ r.backlog.items = l.backlog.items
  during : During (l, s) ({ l with backlog := r.backlog }, t)
  handed_out : r.backlog.nextId = l.backlog.nextId + added.length
  ids : added.map WorkItem.id = List.range' l.backlog.nextId added.length
  staged : t.staged = s.staged ++ added.map .insert
  all : ∀ stored, r.result = .ok stored → added = stored ∧ stored.length = items.length ∧
    ∃ told, t.listeners = s.listeners ++ told ∧ Announces announce stored told
  /-- Whoever passes over a refusal still cannot commit. -/
  doomed : ∀ e, r.result = .error (.error e) → t.doomed = true

theorem joined (l : Ledger β) {s : Scope Write β} (healthy : s.doomed = false) (now : Int)
    (announce : Int → β) (items : List WorkItem) :
    ∃ added t, Joined l s announce items (submit l.backlog now (some s) announce items) added t := by
  obtain ⟨added, adds⟩ := adds_addAll now items l.backlog s
  have during := addAll_during now items l.backlog s l.scopes l.landing
  rcases result : addAll now items l.backlog s with ⟨r, c, t⟩
  rw [result] at adds during
  rw [submit_of_healthy healthy result]
  have staged : t = s.stage (added.map .insert) := adds.staged
  have writes : t.staged = s.staged ++ added.map .insert := by
    rw [staged]
    rfl
  rcases r with (e | _) | stored
  · exact ⟨added, t.doom, rfl, ⟨rfl, adds.unstored⟩, during.tail (.inside .dooms), adds.handed_out,
      adds.ids, writes, by simp, by simp [Scope.doom]⟩
  · exact ⟨added, t, rfl, ⟨rfl, adds.unstored⟩, during, adds.handed_out, adds.ids, writes,
      by simp, by simp⟩
  · obtain ⟨rfl, length⟩ := adds.all stored rfl
    obtain ⟨told, scope, announces⟩ := announced_inv announce adds.dated t
    refine ⟨added, announced announce added t, rfl, ⟨rfl, adds.unstored⟩,
      during.trans (announced_during announce added _ t), adds.handed_out, adds.ids, ?_, ?_, by simp⟩
    · rw [scope]
      exact writes
    · rintro _ ⟨⟩
      exact ⟨rfl, length, told, by rw [scope, staged]; rfl, announces⟩

/-- A submission in a transaction that was `s` and is now `t`: what becomes of its items is
decided when the transaction ends, whatever happens until then. -/
structure Pending (l : Ledger β) (s t : Scope Write β) (announce : Int → β)
    (items : List WorkItem) (r : Submission β) : Prop where
  /-- Nothing is stored, and nobody is told. -/
  quiet : r.told = [] ∧ r.backlog.items = l.backlog.items
  /-- As long as the transaction is open, none of the items is stored; and if it is given up,
  none ever is. -/
  unstored : ∀ p u, During ({ l with backlog := r.backlog }, t) (p, u) →
    ∀ id, l.backlog.nextId ≤ id → id < r.backlog.nextId →
      ∀ m, Steps p m → m.backlog.get? id = none
  /-- If it commits, the items that were answered are stored as they were answered, and who is
  to be told of them is told once. -/
  commits : ∀ stored, r.result = .ok stored →
    stored.map WorkItem.id = List.range' l.backlog.nextId items.length ∧
      ∃ told, Announces announce stored told ∧
        ∀ p u, During ({ l with backlog := r.backlog }, t) (p, u) →
          s.listeners ++ told <+: u.listeners ∧
            ∀ i ∈ stored, (p.backlog.commit u.staged).get? i.id = some i
  /-- After a refusal it cannot commit any more. (A fault breaks it off.) -/
  doomed : ∀ e, r.result = .error (.error e) →
    ∀ p u, During ({ l with backlog := r.backlog }, t) (p, u) →
      ∀ outcome : Except Error Unit, ∃ e, u.verdict outcome = .error e

theorem Joined.pending {l : Ledger β} {s t : Scope Write β} {r : Submission β}
    {added : List WorkItem} (h : Joined l s announce items r added t)
    (sound : (l.including s).Sound) : Pending l s t announce items r := by
  have open_ : (({ l with backlog := r.backlog } : Ledger β).including t).Sound :=
    Sound.during sound h.during
  refine ⟨h.quiet, ?_, ?_, ?_⟩
  · intro p u run id low high m later
    obtain ⟨more, grown, -⟩ := (Continuation.during open_ run).staged
    refine (Sound.during open_ run).unstored ?_ later
    have first : id ∈ freshOf t.staged := by
      rw [h.staged, freshOf_append]
      exact List.mem_append_right _ (mem_freshOf_inserts h.ids h.handed_out low high)
    show id ∈ freshOf u.staged
    rw [show u.staged = _ from grown, freshOf_append]
    exact List.mem_append_left _ first
  · intro stored answered
    obtain ⟨rfl, length, told, listeners, announces⟩ := h.all stored answered
    refine ⟨by rw [h.ids, length], told, announces, fun p u run => ?_⟩
    have goes_on := Continuation.during open_ run
    have distinct : (added.map WorkItem.id).Nodup := h.ids ▸ List.nodup_range'
    refine ⟨listeners ▸ goes_on.listeners, fun i mem => ?_⟩
    have ordered : p.backlog.Ordered := Backlog.Sound.ordered (Sound.during open_ run)
    exact goes_on.get?_commit ordered h.staged distinct mem
  · intro e refused p u run outcome
    exact (Continuation.during open_ run).verdict (h.doomed e refused) outcome

end Submission

/-! ### The step of a task -/

namespace Simulation

open Act Submission

/-- What a task does that has handed in items: those are told who are to be told now. -/
def concluded (reply : List WorkItem → Answer) (r : Submission PostCommit) : Act Control :=
  match r.result with
  | .ok stored => tell (reply stored) r.told
  | .error f => answerExcept Answer.item (.error f)

theorem concluded_run (reply : List WorkItem → Answer) (r : Submission PostCommit) (w : World)
    (stack : List Frame) :
    (do
      setBacklog r.backlog
      setScope r.scope
      concluded reply r : Act Control).run ⟨w, stack⟩ =
      (concluded reply r).run ⟨{ w with backlog := r.backlog }, restored r.scope stack⟩ := by
  obtain ⟨result, b, around, told⟩ := r
  cases around <;> rfl

theorem takeSubmission_run {w : World} {writer : String} {n : Nat}
    (known : w.names.writers.find? writer = some n) (items : List WorkItem)
    (reply : List WorkItem → Answer) (stack : List Frame) :
    (takeSubmission writer items reply).run ⟨w, stack⟩ =
      let r := submit w.backlog w.now (scopeOf stack) (PostCommit.nudge n) items
      (concluded reply r).run
        ⟨{ w with backlog := r.backlog }, restored r.scope (.holding (.writer n) :: stack)⟩ := by
  rw [takeSubmission, run_world]
  dsimp only
  rw [known]
  dsimp only
  rw [run_holding, run_scope]
  exact concluded_run reply _ w (.holding (.writer n) :: stack)

/-- **What a task does at the end of a transaction**: nothing if it is given up. -/
theorem endBody_run_of_own {b : Body} {u : Scope Write PostCommit} (own : b.scope = some u)
    (outcome : Except Error Unit) (v : World) (below : List Frame) :
    (endBody b outcome).run ⟨v, below⟩ =
      match u.verdict outcome with
      | .ok _ => (tell (.transaction (.ok ()) b.done) u.listeners).run
          ⟨{ v with backlog := v.backlog.commit u.staged }, below⟩
      | .error e => (.give (.answer (.transaction (.error (.error e)) b.done)), ⟨v, below⟩) := by
  rw [endBody_run, own]
  dsimp only [Scope.close]
  cases decided : u.verdict outcome with
  | error e => rw [restored_scopeOf]; rfl
  | ok r =>
      obtain ⟨a, t⟩ := r
      obtain ⟨-, -, rfl⟩ := Scope.verdict_eq_ok_iff.mp decided
      dsimp only
      rw [restored_scopeOf]
      rfl

end Simulation

end RecurringWork
