import RecurringWork.Proofs.Transaction.Law

/-!
# RecurringWork.Proofs.Transaction.Atomicity

**Every program keeps the law**, however its calls are nested (`Nesting.Sound.perform`). The
invariant ties the scopes of the calls that have not ended to the trace (`Nesting.Keeps`): each
holds exactly what has been gathered in it, in order, and is doomed exactly if a body that
joined it has failed. Each operation of a program keeps it, most of them because they touch
the innermost scope alone (`Nesting.Sound.inside`); the run of a program is then an induction
over its tree.
-/

namespace RecurringWork

variable {α β γ : Type}

namespace Nesting

/-! ### The calls around -/

/-- The numbers of the scopes of some calls. -/
def scopes (calls : List (Option (Nat × Scope α β))) : List Nat :=
  calls.filterMap (Option.map Prod.fst)

/-- Whoever has joined has a scope around it. -/
def Founded : List (Option (Nat × Scope α β)) → Prop
  | [] => True
  | some _ :: rest => Founded rest
  | none :: rest => (innermost? rest).isSome ∧ Founded rest

theorem mem_of_innermost? {calls : List (Option (Nat × Scope α β))} {scope : Nat × Scope α β}
    (inner : innermost? calls = some scope) : some scope ∈ calls := by
  induction calls with
  | nil => cases inner
  | cons c rest ih =>
      cases c with
      | some c =>
          obtain rfl := Option.some_inj.mp inner
          exact List.mem_cons_self
      | none => exact List.mem_cons_of_mem _ (ih inner)

@[simp] theorem scopes_replace (s : Scope α β) (calls : List (Option (Nat × Scope α β))) :
    scopes (replace s calls) = scopes calls := by
  induction calls with
  | nil => rfl
  | cons c rest ih => cases c <;> simp_all [scopes, replace]

@[simp] theorem innermost?_replace (s : Scope α β) (calls : List (Option (Nat × Scope α β))) :
    innermost? (replace s calls) = (innermost? calls).map fun c => (c.1, s) := by
  induction calls with
  | nil => rfl
  | cons c rest ih => cases c <;> simp_all [innermost?, replace]

/-- To replace the innermost scope by itself changes nothing. -/
theorem replace_self {calls : List (Option (Nat × Scope α β))} {k : Nat} {s : Scope α β}
    (inner : innermost? calls = some (k, s)) : replace s calls = calls := by
  induction calls with
  | nil => rfl
  | cons c rest ih => cases c <;> simp_all [innermost?, replace]

theorem founded_replace {s : Scope α β} {calls : List (Option (Nat × Scope α β))}
    (founded : Founded calls) : Founded (replace s calls) := by
  induction calls with
  | nil => trivial
  | cons c rest ih => cases c <;> simp_all [Founded, replace]

/-- Only the innermost scope is replaced. -/
theorem mem_replace {calls : List (Option (Nat × Scope α β))} {k j : Nat} {s s' u : Scope α β}
    (inner : innermost? calls = some (k, s)) (apart : (scopes calls).Nodup)
    (mem : some (j, u) ∈ replace s' calls) : j = k ∧ u = s' ∨ j ≠ k ∧ some (j, u) ∈ calls := by
  induction calls with
  | nil => cases inner
  | cons c rest ih =>
      cases c with
      | some c =>
          obtain rfl := Option.some_inj.mp inner
          rcases List.mem_cons.mp mem with here | below
          · cases here
            exact .inl ⟨rfl, rfl⟩
          · refine .inr ⟨?_, List.mem_cons_of_mem _ below⟩
            rintro rfl
            refine (List.nodup_cons.mp apart).1 ?_
            exact List.mem_filterMap.mpr ⟨_, below, rfl⟩
      | none =>
          rcases List.mem_cons.mp mem with here | below
          · cases here
          · rcases ih inner apart below with same | ⟨other, old⟩
            · exact .inl same
            · exact .inr ⟨other, List.mem_cons_of_mem _ old⟩

/-- What the end of the innermost call comes to. -/
theorem close_cons {n : Nesting α β γ} {own : Option (Nat × Scope α β)}
    {rest : List (Option (Nat × Scope α β))} (split : n.calls = own :: rest)
    (outcome : Except Error γ) :
    n.close outcome =
      let around := innermost? rest
      let e := Scope.close (own.map Prod.snd) outcome (around.map Prod.snd)
      (e.result,
        { n with
          calls := e.around.elim rest fun s => replace s rest
          trace := .ends ((own <|> around).elim 0 Prod.fst) own.isSome outcome e.result :: n.trace
          log := n.log ++
            (e.committed.elim [] Scope.deeds).map fun d => (own.map Prod.fst, d) }) := by
  rw [close, split]

/-! ### Open scopes hold what was gathered -/

/-- A scope holds what has been gathered in it, and its own body has not ended. -/
structure Keeps (n : Nesting α β γ) (k : Nat) (s : Scope α β) : Prop where
  staged : s.staged = stagedIn n.trace k
  listeners : s.listeners = listenersIn n.trace k
  doomed : s.doomed = true ↔ Spoiled n.trace k
  running : ∀ outcome result, .ends k true outcome result ∉ n.trace
  opened : k < n.opened

/-- The law holds, and the scopes of the calls that have not ended hold what it speaks of. -/
structure Sound (n : Nesting α β γ) : Prop where
  lawful : Lawful n.trace n.log
  keeps : ∀ k s, some (k, s) ∈ n.calls → n.Keeps k s
  apart : (scopes n.calls).Nodup
  numbered : ∀ h ∈ n.trace, h.scope < n.opened
  founded : Founded n.calls

theorem sound_start : (start : Nesting α β γ).Sound where
  lawful := by
    constructor <;> simp [start, Applied, doneFor]
  keeps := by simp [start]
  apart := List.nodup_nil
  numbered := by simp [start]
  founded := trivial

theorem Keeps.congr {n m : Nesting α β γ} {k : Nat} {s : Scope α β} (keeps : n.Keeps k s)
    (trace : m.trace = n.trace) (opened : m.opened = n.opened) : m.Keeps k s := by
  obtain ⟨staged, listeners, doomed, running, bound⟩ := keeps
  rw [← trace] at staged listeners doomed running
  exact ⟨staged, listeners, doomed, running, opened ▸ bound⟩

/-- What happens in another scope is no matter for one that is open. -/
theorem Keeps.elsewhere {n : Nesting α β γ} {k : Nat} {s : Scope α β} (keeps : n.Keeps k s)
    {m : Nesting α β γ} {h : Happening α β γ} (more : m.trace = h :: n.trace)
    (other : h.scope ≠ k) (grown : n.opened ≤ m.opened) : m.Keeps k s := by
  obtain ⟨staged, listeners, doomed, running, opened⟩ := keeps
  refine ⟨?_, ?_, ?_, ?_, by omega⟩
  · rw [more, stagedIn_cons, staged?_of_ne other, staged, Option.toList_none, List.append_nil]
  · rw [more, listenersIn_cons, listener?_of_ne other, listeners, Option.toList_none,
      List.append_nil]
  · rw [more, spoiled_cons_of_ne other, doomed]
  · intro outcome result mem
    rw [more] at mem
    rcases List.mem_cons.mp mem with rfl | mem
    · exact other rfl
    · exact running outcome result mem

/-- Something happens in the innermost scope, which then holds that as well. -/
theorem Sound.inside {n : Nesting α β γ} (sound : n.Sound) {h : Happening α β γ}
    {s : Scope α β} (s' : Scope α β) (inner : innermost? n.calls = some (h.scope, s))
    (staged : s'.staged = s.staged ++ (h.staged? h.scope).toList)
    (listeners : s'.listeners = s.listeners ++ (h.listener? h.scope).toList)
    (doomed : s'.doomed = true ↔
      (∃ e result, h = .ends h.scope false (.error e) result) ∨ s.doomed = true)
    (other : ∀ outcome result, h ≠ .ends h.scope true outcome result)
    (joining : ∀ joins around scope, h = .calls joins around scope →
      joins = true ∧ around = some scope ∧ s.doomed = false)
    (joined : ∀ k outcome result, h = .ends k false outcome result → result = outcome) :
    ({ n with calls := replace s' n.calls, trace := h :: n.trace } : Nesting α β γ).Sound := by
  have held := sound.keeps _ _ (mem_of_innermost? inner)
  have running : ∀ outcome result, .ends h.scope true outcome result ∉ h :: n.trace := by
    intro outcome result mem
    rcases List.mem_cons.mp mem with here | mem
    · exact other outcome result here.symm
    · exact held.running outcome result mem
  refine ⟨?_, ?_, ?_, ?_, founded_replace sound.founded⟩
  · refine sound.lawful.inside running ?_ joined
    rintro joins around scope rfl
    obtain ⟨asked, rfl, healthy⟩ := joining _ _ _ rfl
    have unspoiled : ¬Spoiled n.trace scope := by
      intro spoiled
      have := held.doomed.mpr spoiled
      simp [healthy] at this
    exact ⟨⟨fun _ => ⟨asked, scope, rfl, unspoiled⟩, fun _ => rfl⟩, fun apart => absurd rfl apart⟩
  · intro j u mem
    rcases mem_replace inner sound.apart mem with ⟨rfl, rfl⟩ | ⟨apart, old⟩
    · refine ⟨?_, ?_, ?_, running, held.opened⟩
      · rw [stagedIn_cons, staged, held.staged]
      · rw [listenersIn_cons, listeners, held.listeners]
      · rw [spoiled_cons, doomed, held.doomed]
    · exact (sound.keeps j u old).elsewhere rfl apart.symm (Nat.le_refl _)
  · rw [scopes_replace]
    exact sound.apart
  · intro g mem
    rcases List.mem_cons.mp mem with rfl | mem
    · exact held.opened
    · exact sound.numbered g mem

/-! ### What each operation keeps -/

theorem Sound.stage {n : Nesting α β γ} (sound : n.Sound) (a : α) : (n.stage a).Sound := by
  unfold Nesting.stage
  split
  · next k s inner =>
      apply sound.inside (h := .stages k a) _ inner <;>
        simp [Happening.scope, Happening.staged?, Happening.listener?, Scope.stage]
  · obtain ⟨lawful, keeps, apart, numbered, founded⟩ := sound
    refine ⟨?_, fun k s mem => (keeps k s mem).congr rfl rfl, apart, numbered, founded⟩
    refine ⟨lawful.joining, lawful.opening, lawful.joined, lawful.own, ?_, ?_⟩
    · intro k applied
      simpa [doneFor] using lawful.applied k applied
    · intro k discarded
      simpa [doneFor] using lawful.discarded k discarded

theorem Sound.listen {n : Nesting α β γ} (sound : n.Sound) (b : β) : (n.listen b).2.Sound := by
  unfold Nesting.listen
  split
  · next k s inner =>
      apply sound.inside (h := .listens k b) _ inner <;>
        simp [Happening.scope, Happening.staged?, Happening.listener?, Scope.listen]
  · exact sound

/-- The innermost call is over, without a trace. -/
theorem Sound.tail {n : Nesting α β γ} (sound : n.Sound) {c : Option (Nat × Scope α β)}
    {rest : List (Option (Nat × Scope α β))} (split : n.calls = c :: rest) :
    ({ n with calls := rest } : Nesting α β γ).Sound := by
  obtain ⟨lawful, keeps, apart, numbered, founded⟩ := sound
  rw [split] at apart founded
  refine ⟨lawful, fun k s mem => ?_, ?_, numbered, ?_⟩
  · exact (keeps k s (split ▸ List.mem_cons_of_mem _ mem)).congr rfl rfl
  · cases c with
    | none => exact apart
    | some c => exact (List.nodup_cons.mp apart).2
  · cases c with
    | none => exact founded.2
    | some c => exact founded

theorem Sound.drop {n : Nesting α β γ} (sound : n.Sound) : n.drop.Sound := by
  unfold Nesting.drop
  cases split : n.calls with
  | nil =>
      obtain ⟨lawful, -, -, numbered, -⟩ := sound
      exact ⟨lawful, by simp, List.nodup_nil, numbered, trivial⟩
  | cons c rest => exact sound.tail split

/-- A scope is opened. -/
theorem Sound.opens {n : Nesting α β γ} (sound : n.Sound) {joins : Bool} {around : Option Nat}
    (apart : ¬(joins = true ∧ ∃ k, around = some k ∧ ¬Spoiled n.trace k))
    (before : ∀ k, around = some k → k < n.opened) :
    ({ n with
        calls := some (n.opened, .empty) :: n.calls
        opened := n.opened + 1
        trace := .calls joins around n.opened :: n.trace } : Nesting α β γ).Sound := by
  have new : ∀ h ∈ n.trace, h.scope ≠ n.opened := fun h mem => Nat.ne_of_lt (sound.numbered h mem)
  have unspoiled : ¬Spoiled n.trace n.opened := by
    rintro ⟨e, result, mem⟩
    exact new _ mem rfl
  have running : ∀ outcome result, .ends n.opened true outcome result ∉ n.trace := by
    intro outcome result mem
    exact new _ mem rfl
  refine ⟨?_, ?_, ?_, ?_, sound.founded⟩
  · refine sound.lawful.inside ?_ ?_ (by simp)
    · simpa [Happening.scope] using running
    · rintro _ _ _ ⟨⟩
      refine ⟨?_, fun _ => new⟩
      constructor
      · intro same
        exact absurd (before _ same) (Nat.lt_irrefl _)
      · intro asked
        exact absurd asked apart
  · intro k s mem
    rcases List.mem_cons.mp mem with here | old
    · cases here
      refine ⟨?_, ?_, ?_, ?_, Nat.lt_succ_self _⟩
      · simp [Scope.empty, stagedIn_eq_nil new, Happening.staged?]
      · simp [Scope.empty, listenersIn_eq_nil new, Happening.listener?]
      · simp [Scope.empty, spoiled_cons, unspoiled]
      · simpa using running
    · have held := sound.keeps k s old
      exact held.elsewhere rfl (Nat.ne_of_gt held.opened) (Nat.le_succ _)
  · refine List.nodup_cons.mpr ⟨?_, sound.apart⟩
    intro mem
    obtain ⟨c, old, number⟩ := List.mem_filterMap.mp mem
    obtain ⟨⟨k, s⟩, rfl, same⟩ := Option.map_eq_some_iff.mp number
    exact Nat.ne_of_lt (sound.keeps k s old).opened same
  · intro h mem
    rcases List.mem_cons.mp mem with rfl | old
    · exact Nat.lt_succ_self _
    · exact Nat.lt_succ_of_lt (sound.numbered h old)

theorem Sound.call {n : Nesting α β γ} (sound : n.Sound) (joins : Bool) : (n.call joins).Sound := by
  unfold Nesting.call
  cases inner : innermost? n.calls with
  | none =>
      simp only [Scope.own?, Option.map_none, Option.any_none, Bool.and_false, Bool.false_eq_true,
        if_false]
      exact sound.opens (by simp) (by simp)
  | some c =>
      obtain ⟨k, s⟩ := c
      have held := sound.keeps k s (mem_of_innermost? inner)
      simp only [Scope.own?, Option.map_some, Option.any_some, Bool.and_eq_true,
        Bool.not_eq_true']
      split_ifs with joined
      · -- It joins, and the scope stays as it is.
        have inside := sound.inside (h := .calls joins (some k) k) s inner
          (by simp [Happening.staged?]) (by simp [Happening.listener?]) (by simp) (by simp)
          (by rintro _ _ _ ⟨⟩; exact ⟨joined.1, rfl, joined.2⟩) (by simp)
        rw [replace_self inner] at inside
        obtain ⟨lawful, keeps, apart, numbered, founded⟩ := inside
        refine ⟨lawful, fun j u mem => ?_, apart, numbered, ?_⟩
        · rcases List.mem_cons.mp mem with here | old
          · cases here
          · exact (keeps j u old).congr rfl rfl
        · exact ⟨by simp [inner], founded⟩
      · refine sound.opens ?_ ?_
        · rintro ⟨asked, j, same, unspoiled⟩
          obtain rfl := Option.some_inj.mp same
          have healthy : s.doomed = false := by
            rw [← held.doomed] at unspoiled
            simpa using unspoiled
          exact joined ⟨asked, healthy⟩
        · rintro j same
          obtain rfl := Option.some_inj.mp same
          exact held.opened

/-- The call that a scope was opened for is over, and `deeds` are done for it. -/
theorem Sound.closes {n : Nesting α β γ} (sound : n.Sound) {k : Nat} {s : Scope α β}
    {rest : List (Option (Nat × Scope α β))} (split : n.calls = some (k, s) :: rest)
    (outcome result : Except Error γ) (deeds : List (Deed α β))
    (failed : ∀ e, outcome = .error e → result = .error e ∧ deeds = [])
    (committed : ∀ v, outcome = .ok v → s.doomed = false → result = .ok v ∧ deeds = s.deeds)
    (rolledBack : ∀ v, outcome = .ok v → s.doomed = true →
      result = .error .rolledBack ∧ deeds = []) :
    ({ n with
        calls := rest
        trace := .ends k true outcome result :: n.trace
        log := n.log ++ deeds.map fun d => (some k, d) } : Nesting α β γ).Sound := by
  have held := sound.keeps k s (split ▸ List.mem_cons_self)
  have healthy : s.doomed = false ↔ ¬Spoiled n.trace k := by
    rw [← held.doomed, Bool.not_eq_true]
  obtain ⟨lawful, keeps, apart, numbered, founded⟩ := sound
  rw [split] at apart founded
  obtain ⟨once, apart⟩ := List.nodup_cons.mp apart
  refine ⟨?_, ?_, apart, ?_, founded⟩
  · refine lawful.closes held.running failed ?_ ?_
    · intro v ok unspoiled
      rw [← held.staged, ← held.listeners]
      exact committed v ok (healthy.mpr unspoiled)
    · intro v ok spoiled
      exact rolledBack v ok (held.doomed.mpr spoiled)
  · intro j u mem
    have other : k ≠ j := by
      rintro rfl
      exact once (List.mem_filterMap.mpr ⟨_, mem, rfl⟩)
    exact (keeps j u (split ▸ List.mem_cons_of_mem _ mem)).elsewhere rfl other (Nat.le_refl _)
  · intro h mem
    rcases List.mem_cons.mp mem with rfl | old
    · exact held.opened
    · exact numbered h old

/-- The call of a body that has joined is over. -/
theorem Sound.closes_joined {n : Nesting α β γ} (sound : n.Sound) {k : Nat} {s : Scope α β}
    {rest : List (Option (Nat × Scope α β))} (split : n.calls = none :: rest)
    (inner : innermost? rest = some (k, s)) (outcome : Except Error γ) (s' : Scope α β)
    (kept : s'.staged = s.staged ∧ s'.listeners = s.listeners)
    (doomed : s'.doomed = true ↔ (∃ e, outcome = .error e) ∨ s.doomed = true) :
    ({ n with
        calls := replace s' rest
        trace := .ends k false outcome outcome :: n.trace } : Nesting α β γ).Sound := by
  refine (sound.tail split).inside (h := .ends k false outcome outcome) s' inner ?_ ?_ ?_ ?_ ?_ ?_
  · simp [Happening.staged?, kept.1]
  · simp [Happening.listener?, kept.2]
  · simp [Happening.scope, doomed]
  · simp
  · simp
  · rintro _ _ _ ⟨⟩
    rfl

theorem Sound.close {n : Nesting α β γ} (sound : n.Sound) (outcome : Except Error γ) :
    (n.close outcome).2.Sound := by
  unfold Nesting.close
  split
  · exact sound
  · next own rest split =>
      cases own with
      | some c =>
          obtain ⟨k, s⟩ := c
          -- The scope around it stays as it is.
          have below :
              (innermost? rest).elim rest ((fun s => replace s rest) ∘ Prod.snd) = rest := by
            cases inner : innermost? rest with
            | none => rfl
            | some c => exact replace_self inner
          cases outcome with
          | error e =>
              simpa [Scope.close, Scope.verdict, below] using
                sound.closes split (.error e) (.error e) [] (by simp) (by simp) (by simp)
          | ok v =>
              cases doomed : s.doomed with
              | false =>
                  simpa [Scope.close, Scope.verdict, doomed, below] using
                    sound.closes split (.ok v) (.ok v) s.deeds (by simp) (by simp)
                      (by simp [doomed])
              | true =>
                  simpa [Scope.close, Scope.verdict, doomed, below] using
                    sound.closes split (.ok v) (.error .rolledBack) [] (by simp) (by simp [doomed])
                      (by simp)
      | none =>
          have founded := sound.founded
          rw [split] at founded
          obtain ⟨⟨k, s⟩, inner⟩ := Option.isSome_iff_exists.mp founded.1
          cases outcome with
          | ok v =>
              simpa [Scope.close, inner] using
                sound.closes_joined split inner (.ok v) s ⟨rfl, rfl⟩ (by simp)
          | error e =>
              simpa [Scope.close, inner] using
                sound.closes_joined split inner (.error e) s.doom ⟨rfl, rfl⟩
                  (by simp [Scope.doom])

end Nesting

/-! ### Programs -/

/-- **A program keeps the law**, whatever its shape. -/
theorem Nesting.Sound.perform (c : Course α β γ) {n : Nesting α β γ} (sound : n.Sound) :
    (c.perform n).1.Sound := by
  induction c generalizing n with
  | ends outcome => exact sound
  | waits call => exact sound
  | stages a next ih => exact ih (sound.stage a)
  | listens b next ih => exact ih _ (sound.listen b)
  | calls joins limit body next body_ih next_ih =>
      have inside := body_ih (sound.call joins)
      cases halted : (body.perform (n.call joins)).2 with
      | ended outcome =>
          rw [Course.perform_of_ended halted]
          exact next_ih _ (inside.close outcome)
      | cutOff call =>
          cases call with
          | zero =>
              rw [Course.perform_of_timedOut halted]
              exact next_ih _ (inside.close _)
          | succ call =>
              rw [Course.perform_of_cutOff halted]
              exact inside.drop

namespace Nesting

/-- The calls that have not ended, by the numbers of their scopes. -/
def numbers (calls : List (Option (Nat × Scope α β))) : List (Option Nat) :=
  calls.map (Option.map Prod.fst)

@[simp] theorem numbers_replace (s : Scope α β) (calls : List (Option (Nat × Scope α β))) :
    numbers (replace s calls) = numbers calls := by
  induction calls with
  | nil => rfl
  | cons c rest ih => cases c <;> simp_all [numbers, replace]

theorem numbers_stage (n : Nesting α β γ) (a : α) :
    numbers (n.stage a).calls = numbers n.calls := by
  unfold stage
  split <;> simp

theorem numbers_listen (n : Nesting α β γ) (b : β) :
    numbers (n.listen b).2.calls = numbers n.calls := by
  unfold listen
  split <;> simp

theorem numbers_call (n : Nesting α β γ) (joins : Bool) :
    ∃ own, numbers (n.call joins).calls = own :: numbers n.calls := by
  unfold call
  dsimp only
  split <;> exact ⟨_, rfl⟩

theorem numbers_close (n : Nesting α β γ) (outcome : Except Error γ) :
    numbers (n.close outcome).2.calls = (numbers n.calls).tail := by
  unfold close
  split
  · next split => simp [split, numbers]
  · next own rest split =>
      simp only [split, numbers, List.map_cons, List.tail_cons]
      cases (Scope.close _ _ _).around with
      | none => rfl
      | some s => exact numbers_replace s rest

theorem numbers_drop (n : Nesting α β γ) : numbers n.drop.calls = (numbers n.calls).tail := by
  simp [numbers, drop, List.map_tail]

/-- A program leaves the calls around it as they are, so that each call ends where it began. -/
theorem numbers_perform (c : Course α β γ) (n : Nesting α β γ) :
    numbers (c.perform n).1.calls = numbers n.calls := by
  induction c generalizing n with
  | ends outcome => rfl
  | waits call => rfl
  | stages a next ih => rw [Course.perform, ih, numbers_stage]
  | listens b next ih => rw [Course.perform, ih, numbers_listen]
  | calls joins limit body next body_ih next_ih =>
      obtain ⟨own, begun⟩ := numbers_call n joins
      have inside := body_ih (n.call joins)
      rw [begun] at inside
      cases halted : (body.perform (n.call joins)).2 with
      | ended outcome =>
          rw [Course.perform_of_ended halted, next_ih, numbers_close, inside, List.tail_cons]
      | cutOff call =>
          cases call with
          | zero =>
              rw [Course.perform_of_timedOut halted, next_ih, numbers_close, inside, List.tail_cons]
          | succ call =>
              rw [Course.perform_of_cutOff halted, numbers_drop, inside, List.tail_cons]

end Nesting

end RecurringWork
