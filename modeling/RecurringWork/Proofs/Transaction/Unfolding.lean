import RecurringWork.Proofs.Transaction.Atomicity

/-!
# RecurringWork.Proofs.Transaction.Unfolding

**What a program comes to, read off its tree.** The rules of `Course.Unfolds` go by the
constructors of a program and know nothing of scopes: all that they have is a `Story`, that is
what has happened and what has been done, and the number of the scope in which a body runs. A
call joins that scope or opens one (`Story.Begins`); at its end the story tells what becomes of
it (`Story.Finishes`), and the result is what the program goes on with.

To perform a program is to unfold it (`Nesting.Sound.unfolds_iff`): by induction over the tree
it unfolds as it is performed (`Nesting.Sound.unfolds`), and it unfolds in one way only
(`Course.Unfolds.unique`).
-/

namespace RecurringWork

variable {α β γ : Type}

/-! ### Stories -/

/-- What has happened, and what has been done. -/
structure Story (α β γ : Type) where
  /-- How many scopes there have been. -/
  opened : Nat
  /-- The latest first. -/
  trace : List (Happening α β γ)
  log : List (Option Nat × Deed α β)

namespace Story

def happens (s : Story α β γ) (h : Happening α β γ) : Story α β γ :=
  { s with trace := h :: s.trace }

/-- Deeds are done, for a scope or outside of any. -/
def does (s : Story α β γ) (k : Option Nat) (deeds : List (Deed α β)) : Story α β γ :=
  { s with log := s.log ++ deeds.map fun d => (k, d) }

/-- A call begins, in a scope of its own or not: which scope its body runs in, and what the story
is then. -/
inductive Begins (s : Story α β γ) (joins : Bool) (around : Option Nat) :
    Bool → Nat → Story α β γ → Prop
  /-- It joins the scope around it if it is asked to and nothing has spoiled that one so far. -/
  | joins {k : Nat} : joins = true → around = some k → ¬Spoiled s.trace k →
      Begins s joins around false k (s.happens (.calls joins around k))
  | opens : ¬(joins = true ∧ ∃ k, around = some k ∧ ¬Spoiled s.trace k) →
      Begins s joins around true s.opened
        ({ s with opened := s.opened + 1 }.happens (.calls joins around s.opened))

/-- A call ends whose body runs in scope `k`, its own or not: from what its body has come to,
the result of the call, and what the story is then. -/
inductive Finishes (s : Story α β γ) (k : Nat) :
    Bool → Except Error γ → Except Error γ → Story α β γ → Prop
  /-- A call that has joined comes to what its body comes to. -/
  | joined (outcome : Except Error γ) :
      Finishes s k false outcome outcome (s.happens (.ends k false outcome outcome))
  | fails (e : Error) :
      Finishes s k true (.error e) (.error e) (s.happens (.ends k true (.error e) (.error e)))
  /-- All that was staged in the scope is done, and then its listeners are told. -/
  | applies (v : γ) : ¬Spoiled s.trace k →
      Finishes s k true (.ok v) (.ok v)
        ((s.happens (.ends k true (.ok v) (.ok v))).does (some k)
          ((stagedIn s.trace k).map .change ++ (listenersIn s.trace k).map .tell))
  | rollsBack (v : γ) : Spoiled s.trace k →
      Finishes s k true (.ok v) (.error .rolledBack)
        (s.happens (.ends k true (.ok v) (.error .rolledBack)))

variable {s s₁ s₂ : Story α β γ}

/-- There is one way to begin a call. -/
theorem Begins.unique {joins own own' : Bool} {around : Option Nat} {k k' : Nat}
    (h : s.Begins joins around own k s₁) (h' : s.Begins joins around own' k' s₂) :
    own = own' ∧ k = k' ∧ s₁ = s₂ := by
  cases h with
  | joins asked inside unspoiled =>
      cases h' with
      | joins _ inside' _ =>
          obtain rfl := Option.some_inj.mp (inside.symm.trans inside')
          exact ⟨rfl, rfl, rfl⟩
      | opens apart => exact absurd ⟨asked, _, inside, unspoiled⟩ apart
  | opens apart =>
      cases h' with
      | joins asked inside unspoiled => exact absurd ⟨asked, _, inside, unspoiled⟩ apart
      | opens => exact ⟨rfl, rfl, rfl⟩

/-- There is one way to end a call. -/
theorem Finishes.unique {k : Nat} {own : Bool} {outcome result result' : Except Error γ}
    (h : s.Finishes k own outcome result s₁) (h' : s.Finishes k own outcome result' s₂) :
    result = result' ∧ s₁ = s₂ := by
  cases h with
  | joined outcome =>
      cases h'
      exact ⟨rfl, rfl⟩
  | fails e =>
      cases h'
      exact ⟨rfl, rfl⟩
  | applies v unspoiled =>
      cases h' with
      | applies => exact ⟨rfl, rfl⟩
      | rollsBack _ spoiled => exact absurd spoiled unspoiled
  | rollsBack v spoiled =>
      cases h' with
      | applies _ unspoiled => exact absurd spoiled unspoiled
      | rollsBack => exact ⟨rfl, rfl⟩

end Story

/-! ### Programs -/

/-- How a program unfolds that runs in scope `around`, or outside of all transactions. -/
inductive Course.Unfolds :
    Course α β γ → Option Nat → Story α β γ → Story α β γ → Halt γ → Prop
  | ends (outcome : Except Error γ) (around : Option Nat) (s : Story α β γ) :
      Unfolds (.ends outcome) around s s (.ended outcome)
  | waits (call : Nat) (around : Option Nat) (s : Story α β γ) :
      Unfolds (.waits call) around s s (.cutOff call)
  | stages {a : α} {next : Course α β γ} {k : Nat} {s s' : Story α β γ} {halt : Halt γ} :
      Unfolds next (some k) (s.happens (.stages k a)) s' halt →
      Unfolds (.stages a next) (some k) s s' halt
  /-- Outside of all transactions a change is carried out at once. -/
  | changes {a : α} {next : Course α β γ} {s s' : Story α β γ} {halt : Halt γ} :
      Unfolds next none (s.does none [.change a]) s' halt →
      Unfolds (.stages a next) none s s' halt
  | listens {b : β} {next : Except Error Unit → Course α β γ} {k : Nat} {s s' : Story α β γ}
      {halt : Halt γ} :
      Unfolds (next (.ok ())) (some k) (s.happens (.listens k b)) s' halt →
      Unfolds (.listens b next) (some k) s s' halt
  | refuses {b : β} {next : Except Error Unit → Course α β γ} {s s' : Story α β γ}
      {halt : Halt γ} :
      Unfolds (next (.error .noActiveTransaction)) none s s' halt →
      Unfolds (.listens b next) none s s' halt
  /-- The body of a call comes to its end, and the program goes on with the result. -/
  | returns {joins own : Bool} {limit : Duration} {body : Course α β γ}
      {next : Except Error γ → Course α β γ} {around : Option Nat} {k : Nat}
      {s s₁ s₂ s₃ s' : Story α β γ} {outcome result : Except Error γ} {halt : Halt γ} :
      s.Begins joins around own k s₁ →
      Unfolds body (some k) s₁ s₂ (.ended outcome) →
      s₂.Finishes k own outcome result s₃ →
      Unfolds (next result) around s₃ s' halt →
      Unfolds (.calls joins limit body next) around s s' halt
  /-- The time of a call is up before its body comes to its end. -/
  | timesOut {joins own : Bool} {limit : Duration} {body : Course α β γ}
      {next : Except Error γ → Course α β γ} {around : Option Nat} {k : Nat}
      {s s₁ s₂ s₃ s' : Story α β γ} {result : Except Error γ} {halt : Halt γ} :
      s.Begins joins around own k s₁ →
      Unfolds body (some k) s₁ s₂ (.cutOff 0) →
      s₂.Finishes k own (.error (.transactionTimeout limit)) result s₃ →
      Unfolds (next result) around s₃ s' halt →
      Unfolds (.calls joins limit body next) around s s' halt
  /-- The time of a call around it is up, and it is given up with its body. -/
  | cutOff {joins own : Bool} {limit : Duration} {body : Course α β γ}
      {next : Except Error γ → Course α β γ} {around : Option Nat} {k call : Nat}
      {s s₁ s₂ : Story α β γ} :
      s.Begins joins around own k s₁ →
      Unfolds body (some k) s₁ s₂ (.cutOff (call + 1)) →
      Unfolds (.calls joins limit body next) around s s₂ (.cutOff call)

namespace Course.Unfolds

variable {c : Course α β γ} {around : Option Nat} {s s' s₁ s₂ : Story α β γ}

/-- What comes of a call by what its body comes to. -/
theorem calls_inv {joins : Bool} {limit : Duration} {body : Course α β γ}
    {next : Except Error γ → Course α β γ} {halt : Halt γ}
    (h : (calls joins limit body next).Unfolds around s s' halt) :
    ∃ own k s₁ s₂ inner, s.Begins joins around own k s₁ ∧
      body.Unfolds (some k) s₁ s₂ inner ∧
      match inner with
      | .ended outcome => ∃ result s₃, s₂.Finishes k own outcome result s₃ ∧
          (next result).Unfolds around s₃ s' halt
      | .cutOff 0 => ∃ result s₃,
          s₂.Finishes k own (.error (.transactionTimeout limit)) result s₃ ∧
          (next result).Unfolds around s₃ s' halt
      | .cutOff (call + 1) => s' = s₂ ∧ halt = .cutOff call := by
  cases h with
  | returns begins inside finishes onward =>
      exact ⟨_, _, _, _, _, begins, inside, _, _, finishes, onward⟩
  | timesOut begins inside finishes onward =>
      exact ⟨_, _, _, _, _, begins, inside, _, _, finishes, onward⟩
  | cutOff begins inside => exact ⟨_, _, _, _, _, begins, inside, rfl, rfl⟩

/-- **A program unfolds in one way only.** -/
theorem unique {halt₁ halt₂ : Halt γ} (h₁ : c.Unfolds around s s₁ halt₁)
    (h₂ : c.Unfolds around s s₂ halt₂) : s₁ = s₂ ∧ halt₁ = halt₂ := by
  induction c generalizing around s s₁ s₂ halt₁ halt₂ with
  | ends outcome =>
      cases h₁
      cases h₂
      exact ⟨rfl, rfl⟩
  | waits call =>
      cases h₁
      cases h₂
      exact ⟨rfl, rfl⟩
  | stages a next ih =>
      cases h₁ with
      | stages onward₁ =>
          cases h₂ with
          | stages onward₂ => exact ih onward₁ onward₂
      | changes onward₁ =>
          cases h₂ with
          | changes onward₂ => exact ih onward₁ onward₂
  | listens b next ih =>
      cases h₁ with
      | listens onward₁ =>
          cases h₂ with
          | listens onward₂ => exact ih _ onward₁ onward₂
      | refuses onward₁ =>
          cases h₂ with
          | refuses onward₂ => exact ih _ onward₁ onward₂
  | calls joins limit body next body_ih next_ih =>
      obtain ⟨own, k, begun, left, inner, begins₁, inside₁, after₁⟩ := h₁.calls_inv
      obtain ⟨own', k', begun', left', inner', begins₂, inside₂, after₂⟩ := h₂.calls_inv
      obtain ⟨rfl, rfl, rfl⟩ := begins₁.unique begins₂
      obtain ⟨rfl, rfl⟩ := body_ih inside₁ inside₂
      -- Both calls end in the same way, so the program goes on with the same result.
      match inner with
      | .ended outcome =>
          obtain ⟨result, s₃, finishes₁, onward₁⟩ := after₁
          obtain ⟨result', s₃', finishes₂, onward₂⟩ := after₂
          obtain ⟨rfl, rfl⟩ := finishes₁.unique finishes₂
          exact next_ih result onward₁ onward₂
      | .cutOff 0 =>
          obtain ⟨result, s₃, finishes₁, onward₁⟩ := after₁
          obtain ⟨result', s₃', finishes₂, onward₂⟩ := after₂
          obtain ⟨rfl, rfl⟩ := finishes₁.unique finishes₂
          exact next_ih result onward₁ onward₂
      | .cutOff (call + 1) =>
          obtain ⟨rfl, rfl⟩ := after₁
          obtain ⟨rfl, rfl⟩ := after₂
          exact ⟨rfl, rfl⟩

end Course.Unfolds

/-! ### To perform a program is to unfold it -/

namespace Nesting

/-- What a nesting has recorded. -/
def story (n : Nesting α β γ) : Story α β γ := ⟨n.opened, n.trace, n.log⟩

/-- The number of the scope in which the innermost body runs. -/
def around (n : Nesting α β γ) : Option Nat := (innermost? n.calls).map Prod.fst

theorem around_eq_findSome? (n : Nesting α β γ) : n.around = (numbers n.calls).findSome? id := by
  unfold around
  induction n.calls with
  | nil => rfl
  | cons c rest ih =>
      cases c with
      | none => simpa [innermost?, numbers] using ih
      | some c => rfl

theorem around_congr {n m : Nesting α β γ} (same : numbers n.calls = numbers m.calls) :
    n.around = m.around := by
  rw [around_eq_findSome?, around_eq_findSome?, same]

variable {n : Nesting α β γ}

theorem story_stage_of_inside {k : Nat} (inside : n.around = some k) (a : α) :
    (n.stage a).story = n.story.happens (.stages k a) := by
  obtain ⟨c, inner, rfl⟩ := Option.map_eq_some_iff.mp inside
  simp [stage, inner, story, Story.happens]

theorem story_stage_of_outside (outside : n.around = none) (a : α) :
    (n.stage a).story = n.story.does none [.change a] := by
  have inner := Option.map_eq_none_iff.mp outside
  simp [stage, inner, story, Story.does]

theorem listen_of_inside {k : Nat} (inside : n.around = some k) (b : β) :
    (n.listen b).1 = .ok () ∧ (n.listen b).2.story = n.story.happens (.listens k b) := by
  obtain ⟨c, inner, rfl⟩ := Option.map_eq_some_iff.mp inside
  simp [listen, inner, story, Story.happens]

theorem listen_of_outside (outside : n.around = none) (b : β) :
    (n.listen b).1 = .error .noActiveTransaction ∧ (n.listen b).2.story = n.story := by
  have inner := Option.map_eq_none_iff.mp outside
  simp [listen, inner]

/-- A call begins as the story tells. -/
theorem Sound.begins (sound : n.Sound) (joins : Bool) :
    ∃ own k, numbers (n.call joins).calls = own :: numbers n.calls ∧
      (n.call joins).around = some k ∧
      n.story.Begins joins n.around own.isSome k (n.call joins).story := by
  unfold Nesting.call around
  cases inner : innermost? n.calls with
  | none =>
      simp only [Scope.own?, Option.map_none, Option.any_none, Bool.and_false, Bool.false_eq_true,
        if_false]
      exact ⟨some n.opened, n.opened, rfl, rfl, .opens (by simp)⟩
  | some c =>
      obtain ⟨k, s⟩ := c
      have held := (sound.keeps k s (mem_of_innermost? inner)).doomed
      simp only [Scope.own?, Option.map_some, Option.any_some, Bool.and_eq_true,
        Bool.not_eq_true']
      split_ifs with joined
      · refine ⟨none, k, rfl, by simp [innermost?, inner], .joins joined.1 rfl ?_⟩
        intro spoiled
        have doomed := held.mpr spoiled
        rw [joined.2] at doomed
        cases doomed
      · refine ⟨some n.opened, n.opened, rfl, rfl, .opens ?_⟩
        intro asked
        obtain ⟨asked, j, same, unspoiled⟩ := asked
        obtain rfl := Option.some_inj.mp same
        refine joined ⟨asked, ?_⟩
        rw [← Bool.not_eq_true, held]
        exact unspoiled

/-- A call ends as the story tells. -/
theorem Sound.finishes (sound : n.Sound) {k : Nat} (inside : n.around = some k)
    {own : Option Nat} {below : List (Option Nat)} (split : numbers n.calls = own :: below)
    (outcome : Except Error γ) :
    n.story.Finishes k own.isSome outcome (n.close outcome).1 (n.close outcome).2.story := by
  obtain ⟨c, rest, calls, rfl, rfl⟩ := List.map_eq_cons_iff.mp split
  rw [around, calls] at inside
  rw [close_cons calls]
  cases c with
  | none =>
      obtain ⟨scope, inner, rfl⟩ := Option.map_eq_some_iff.mp inside
      rw [innermost?] at inner
      cases outcome <;>
        simpa [inner, story, Story.happens, Scope.close] using Story.Finishes.joined _
  | some c =>
      obtain ⟨j, s⟩ := c
      obtain rfl : j = k := Option.some_inj.mp inside
      have held := sound.keeps j s (calls ▸ List.mem_cons_self)
      cases outcome with
      | error e =>
          simpa [story, Story.happens, Scope.close, Scope.verdict] using Story.Finishes.fails e
      | ok v =>
          cases doomed : s.doomed with
          | false =>
              have unspoiled : ¬Spoiled n.trace j := by
                rw [← held.doomed, doomed]
                exact Bool.false_ne_true
              have applies := Story.Finishes.applies (s := n.story) v unspoiled
              simpa [story, Story.happens, Story.does, Scope.close, Scope.verdict, doomed,
                Scope.deeds, held.staged, held.listeners] using applies
          | true =>
              have rollsBack := Story.Finishes.rollsBack (s := n.story) v (held.doomed.mp doomed)
              simpa [story, Story.happens, Scope.close, Scope.verdict, doomed] using rollsBack

/-- **A program unfolds as it is performed.** -/
theorem Sound.unfolds (c : Course α β γ) (sound : n.Sound) :
    c.Unfolds n.around n.story (c.perform n).1.story (c.perform n).2 := by
  induction c generalizing n with
  | ends outcome => exact .ends outcome _ _
  | waits call => exact .waits call _ _
  | stages a next ih =>
      have onward := ih (sound.stage a)
      rw [around_congr (numbers_stage n a)] at onward
      rw [Course.perform]
      cases around : n.around with
      | none =>
          rw [around, story_stage_of_outside around] at onward
          exact .changes onward
      | some k =>
          rw [around, story_stage_of_inside around] at onward
          exact .stages onward
  | listens b next ih =>
      have onward := ih (n.listen b).1 (sound.listen b)
      rw [around_congr (numbers_listen n b)] at onward
      rw [Course.perform]
      cases around : n.around with
      | none =>
          obtain ⟨answer, story⟩ := listen_of_outside around b
          rw [around, story] at onward
          exact .refuses (answer ▸ onward)
      | some k =>
          obtain ⟨answer, story⟩ := listen_of_inside around b
          rw [around, story] at onward
          exact .listens (answer ▸ onward)
  | calls joins limit body next body_ih next_ih =>
      obtain ⟨own, k, begun, inside, begins⟩ := sound.begins joins
      have unfolds := body_ih (sound.call joins)
      have ended := (sound.call joins).perform body
      -- When the body is over, the calls are those that there were when it began.
      have calls := (numbers_perform body (n.call joins)).trans begun
      have inside' : (body.perform (n.call joins)).1.around = some k :=
        (around_congr (numbers_perform body (n.call joins))).trans inside
      have after : ∀ outcome,
          ((body.perform (n.call joins)).1.close outcome).2.around = n.around := by
        intro outcome
        refine around_congr ?_
        rw [numbers_close, calls, List.tail_cons]
      have onward := fun outcome =>
        next_ih ((body.perform (n.call joins)).1.close outcome).1 (ended.close outcome)
      simp only [after] at onward
      rw [inside] at unfolds
      cases halted : (body.perform (n.call joins)).2 with
      | ended outcome =>
          rw [halted] at unfolds
          rw [Course.perform_of_ended halted]
          exact .returns begins unfolds (ended.finishes inside' calls outcome) (onward outcome)
      | cutOff call =>
          rw [halted] at unfolds
          cases call with
          | zero =>
              rw [Course.perform_of_timedOut halted]
              exact .timesOut begins unfolds (ended.finishes inside' calls _) (onward _)
          | succ call =>
              rw [Course.perform_of_cutOff halted]
              exact .cutOff begins unfolds

/-- **What a program comes to is what its tree says.** -/
theorem Sound.unfolds_iff (c : Course α β γ) (sound : n.Sound) (s : Story α β γ) (halt : Halt γ) :
    c.Unfolds n.around n.story s halt ↔
      (c.perform n).1.story = s ∧ (c.perform n).2 = halt := by
  constructor
  · intro unfolds
    exact (sound.unfolds c).unique unfolds
  · intro same
    obtain ⟨rfl, rfl⟩ := same
    exact sound.unfolds c

end Nesting

end RecurringWork
