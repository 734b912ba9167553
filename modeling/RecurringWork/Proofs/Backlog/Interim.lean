import RecurringWork.Proofs.Backlog.Drafts
import RecurringWork.Proofs.Backlog.Finality

/-!
# RecurringWork.Proofs.Backlog.Interim

**What can happen while a transaction is open.** It goes on itself, and everything else that
there is goes on beside it (`Meanwhile`). Two things hold all the while of an item that the
transaction has staged for the first time:

* nothing is stored under its identity, and if the transaction is given up, nothing ever will
  be (`Sound.unstored`). Nobody else has the identity, and it is never handed out again;
* nothing that the transaction stages later concerns it (`Continuation`). An operation looks
  at what is stored, so it does not find the item. When the transaction commits, the item is
  therefore stored as it was staged (`Continuation.get?_commit`).
-/

namespace RecurringWork.Ledger

variable {β : Type}

/-- One thing that happens while a transaction is open. -/
inductive Meanwhile : Ledger β × Scope Write β → Ledger β × Scope Write β → Prop
  /-- It happens outside of the transaction. -/
  | elsewhere {l m : Ledger β} {s : Scope Write β} : Step l m → Meanwhile (l, s) (m, s)
  /-- Something is done inside of it. -/
  | inside {b : Backlog} {scopes landing : List (Scope Write β)} {s : Scope Write β}
      (a : Action β) :
      Meanwhile (⟨b, scopes, landing⟩, s) (⟨(a.apply b s).1, scopes, landing⟩, (a.apply b s).2)

/-- Any number of things that happen while a transaction is open. -/
abbrev During : Ledger β × Scope Write β → Ledger β × Scope Write β → Prop :=
  Relation.ReflTransGen Meanwhile

/-- The ledger with one more transaction that is open. -/
def including (l : Ledger β) (s : Scope Write β) : Ledger β := { l with scopes := s :: l.scopes }

theorem reserved_including (l : Ledger β) (s : Scope Write β) :
    (l.including s).reserved = Backlog.freshOf s.staged ++ l.reserved := by
  simp [including, reserved]

/-! ### The identities that it has reserved -/

/-- What happens elsewhere leaves the identities alone that the transaction has reserved. -/
theorem Sound.elsewhere {l m : Ledger β} {s : Scope Write β} (h : (l.including s).Sound)
    (st : Step l m) : (m.including s).Sound := by
  unfold Sound at h ⊢
  rw [reserved_including] at h ⊢
  obtain ⟨same, sub⟩ | ⟨op, now, called, perm⟩ | ⟨w, landed, perm⟩ := st.inv
  · show m.backlog.Sound _
    rw [same]
    exact Backlog.Sound.subperm h ((List.subperm_append_left _).mpr sub)
  · show m.backlog.Sound _
    rw [called]
    refine (Backlog.Sound.drafted h (Backlog.drafted op now l.backlog)).subperm
      (List.Perm.subperm (List.perm_iff_count.mpr fun id => ?_))
    have := List.perm_iff_count.mp perm id
    simp only [List.count_append] at this ⊢
    omega
  · show m.backlog.Sound _
    rw [landed]
    refine (Backlog.Sound.subperm h
      (List.Perm.subperm (List.perm_iff_count.mpr fun id => ?_))).settle
    have := List.perm_iff_count.mp perm id
    simp only [List.count_append] at this ⊢
    omega

theorem Sound.including {b : Backlog} {scopes others landing : List (Scope Write β)}
    {s : Scope Write β} (h : (⟨b, scopes, landing⟩ : Ledger β).Sound)
    (perm : scopes.Perm (s :: others)) :
    ((⟨b, others, landing⟩ : Ledger β).including s).Sound :=
  Backlog.Sound.subperm h ((perm.symm.flatMap_right _).append_right _).subperm

theorem Sound.meanwhile {x y : Ledger β × Scope Write β} (h : (x.1.including x.2).Sound)
    (st : Meanwhile x y) : (y.1.including y.2).Sound := by
  cases st with
  | elsewhere st => exact h.elsewhere st
  | @inside b scopes landing s a => exact h.step (.inside (@Inside.intro β a b [] scopes landing s))

theorem Sound.during {x y : Ledger β × Scope Write β} (h : (x.1.including x.2).Sound)
    (run : During x y) : (y.1.including y.2).Sound := by
  induction run with
  | refl => exact h
  | tail _ st ih => exact ih.meanwhile st

/-- What a transaction has staged for the first time has got an identity that nobody else has. -/
theorem Sound.first {l : Ledger β} {s : Scope Write β} (h : (l.including s).Sound) {id : Nat}
    (staged : id ∈ Backlog.freshOf s.staged) :
    l.Sound ∧ l.Spent id ∧ l.backlog.get? id = none := by
  unfold Sound at h
  rw [reserved_including] at h
  have reserved : id ∈ Backlog.freshOf s.staged ++ l.reserved := List.mem_append_left _ staged
  obtain ⟨-, -, disjoint⟩ := List.nodup_append.mp h.distinct
  have spent : l.Spent id :=
    ⟨h.reserved_lt reserved, fun other => disjoint id staged id other rfl⟩
  exact ⟨Backlog.Sound.subperm h (List.sublist_append_right _ _).subperm, spent,
    h.reserved_absent reserved⟩

/-- **What a transaction has staged for the first time is not stored while it is open, and not
ever if it is given up.** -/
theorem Sound.unstored {l m : Ledger β} {s : Scope Write β} (h : (l.including s).Sound) {id : Nat}
    (staged : id ∈ Backlog.freshOf s.staged) (run : Steps l m) : m.backlog.get? id = none := by
  obtain ⟨sound, spent, absent⟩ := h.first staged
  obtain ⟨-, continued⟩ := Steps.continues run sound spent
  rw [absent] at continued
  exact continued

/-! ### What it has staged -/

/-- A transaction has gone on. Nothing that it has staged since concerns what it had staged for
the first time. -/
structure Continuation (t u : Scope Write β) : Prop where
  staged : ∃ later, u.staged = t.staged ++ later ∧
    ∀ id ∈ Backlog.freshOf t.staged, ∀ w ∈ later, id ∉ w.touches
  listeners : t.listeners <+: u.listeners
  doomed : t.doomed = true → u.doomed = true

theorem Continuation.refl (t : Scope Write β) : Continuation t t :=
  ⟨⟨[], by simp, by simp⟩, List.prefix_refl _, id⟩

/-- An operation that is called inside of a transaction does not find what the transaction has
staged for the first time. -/
theorem Sound.apart {l : Ledger β} {s : Scope Write β} (h : (l.including s).Sound) {id : Nat}
    (staged : id ∈ Backlog.freshOf s.staged) {op : Operation} {now : Int} {w : Write}
    (drafted : w ∈ (op.draft now l.backlog).1) : id ∉ w.touches := by
  intro touched
  obtain ⟨-, spent, absent⟩ := h.first staged
  rcases (Backlog.drafts_of_mem drafted).touches touched with found | fresh
  · rw [absent] at found
    cases found
  · exact Nat.ne_of_lt spent.handed_out fresh

theorem Continuation.meanwhile {t : Scope Write β} {x y : Ledger β × Scope Write β}
    (h : Continuation t x.2) (sound : (x.1.including x.2).Sound) (st : Meanwhile x y) :
    Continuation t y.2 := by
  cases st with
  | elsewhere st => exact h
  | @inside b scopes landing s a =>
      cases a with
      | calls op now =>
          obtain ⟨later, grown, apart⟩ := h.staged
          refine ⟨⟨later ++ (op.draft now b).1, ?_, ?_⟩, h.listeners, h.doomed⟩
          · show s.staged ++ _ = _
            rw [show s.staged = t.staged ++ later from grown, List.append_assoc]
          · intro id first w mem
            rcases List.mem_append.mp mem with before | drafted
            · exact apart id first w before
            · refine sound.apart ?_ drafted
              show id ∈ Backlog.freshOf s.staged
              rw [show s.staged = t.staged ++ later from grown, Backlog.freshOf_append]
              exact List.mem_append_left _ first
      | listens listener =>
          exact ⟨h.staged, h.listeners.trans (List.prefix_append _ _), h.doomed⟩
      | dooms => exact ⟨h.staged, h.listeners, fun _ => rfl⟩

/-- **However a transaction goes on, it keeps what it has staged for the first time.** -/
theorem Continuation.during {x y : Ledger β × Scope Write β} (sound : (x.1.including x.2).Sound)
    (run : During x y) : Continuation x.2 y.2 := by
  induction run with
  | refl => exact Continuation.refl _
  | tail before st ih => exact ih.meanwhile (sound.during before) st

/-- **What was staged for the first time is stored at the commit as it was staged.** -/
theorem Continuation.get?_commit {t u : Scope Write β} (h : Continuation t u) {b : Backlog}
    (ordered : b.Ordered) {before : List Write} {stored : List WorkItem}
    (staged : t.staged = before ++ stored.map .insert)
    (distinct : (stored.map WorkItem.id).Nodup) {i : WorkItem} (mem : i ∈ stored) :
    (b.commit u.staged).get? i.id = some i := by
  obtain ⟨later, grown, apart⟩ := h.staged
  have first : i.id ∈ Backlog.freshOf t.staged := by
    rw [staged, Backlog.freshOf_append, Backlog.freshOf_map_insert]
    exact List.mem_append_right _ (List.mem_map_of_mem mem)
  calc (b.commit u.staged).get? i.id
      = (((b.commit before).commit (stored.map .insert)).commit later).get? i.id := by
        rw [grown, staged, Backlog.commit_append, Backlog.commit_append]
    _ = ((b.commit before).commit (stored.map .insert)).get? i.id :=
        Backlog.get?_commit_of_not_mem ((ordered.commit _).commit _) (apart i.id first)
    _ = some i := Backlog.get?_commit_insert (ordered.commit _) distinct mem

/-- Of a transaction that is doomed nothing comes, whatever else happens in it. -/
theorem Continuation.verdict {t u : Scope Write β} (h : Continuation t u)
    (doomed : t.doomed = true) {γ : Type} (outcome : Except Error γ) :
    ∃ e, u.verdict outcome = .error e := by
  cases outcome with
  | error e => exact ⟨e, rfl⟩
  | ok r => exact ⟨.rolledBack, by rw [Scope.verdict, if_pos (h.doomed doomed)]⟩

end RecurringWork.Ledger
