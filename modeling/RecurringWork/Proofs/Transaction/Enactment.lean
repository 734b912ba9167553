import RecurringWork.Proofs.Transaction.Telling
import RecurringWork.Proofs.Transaction.Unfolding

/-!
# RecurringWork.Proofs.Transaction.Enactment

**Tasks that carry out programs.** What a task does with a program goes by the constructors of
the program once more (`Enacts`), but on the stack of the task and with the backlog: each rule
does what the task does in such a place. The scopes of the calls are in the frames of their
bodies, where a `Nesting` keeps them in a list (`Mirrors`). Each operation does the same to both,
so that a task comes to what the program comes to, and the world has been changed by what is
logged, in order and each deed once (`Enacts.abreast`).
-/

namespace RecurringWork.Simulation

open Act

/-! ### Calls in the stack of a task -/

/-- The bodies that a task is in the middle of. -/
def bodies : List Frame → List Body
  | [] => []
  | .body b :: rest => b :: bodies rest
  | _ :: rest => bodies rest

/-- A task is in the middle of the calls of a nesting. -/
def Mirrors (stack : List Frame) (n : Nesting Write PostCommit Unit) : Prop :=
  (bodies stack).map Body.scope = n.calls.map (Option.map Prod.snd)

theorem bodies_cons {f : Frame} (other : ∀ b, f ≠ .body b) (stack : List Frame) :
    bodies (f :: stack) = bodies stack := by
  cases f with
  | body b => exact absurd rfl (other b)
  | _ => rfl

/-- The scope around what a task does is the innermost one. -/
theorem scopeOf_eq {stack : List Frame} {calls : List (Option (Nat × Scope Write PostCommit))}
    (same : (bodies stack).map Body.scope = calls.map (Option.map Prod.snd)) :
    scopeOf stack = (Nesting.innermost? calls).map Prod.snd := by
  induction stack generalizing calls with
  | nil =>
      obtain rfl : calls = [] := by simpa [bodies] using same.symm
      rfl
  | cons f rest ih =>
      by_cases body : ∃ b, f = .body b
      · obtain ⟨b, rfl⟩ := body
        cases calls with
        | nil => simp [bodies] at same
        | cons c calls =>
            obtain ⟨first, others⟩ := List.cons.inj same
            cases c with
            | none => simpa [scopeOf, first, Nesting.innermost?] using ih others
            | some c => simp [scopeOf, first, Nesting.innermost?]
      · push Not at body
        rw [(scopes_cons body rest .empty).1]
        rw [bodies_cons body] at same
        exact ih same

/-- To change the scope around what a task does is to change the innermost one. -/
theorem bodies_withScope {stack : List Frame}
    {calls : List (Option (Nat × Scope Write PostCommit))}
    (same : (bodies stack).map Body.scope = calls.map (Option.map Prod.snd))
    (s : Scope Write PostCommit) :
    (bodies (withScope s stack)).map Body.scope =
      (Nesting.replace s calls).map (Option.map Prod.snd) := by
  induction stack generalizing calls with
  | nil =>
      obtain rfl : calls = [] := by simpa [bodies] using same.symm
      rfl
  | cons f rest ih =>
      by_cases body : ∃ b, f = .body b
      · obtain ⟨b, rfl⟩ := body
        cases calls with
        | nil => simp [bodies] at same
        | cons c calls =>
            obtain ⟨first, others⟩ := List.cons.inj same
            cases c with
            | none => simpa [withScope, first, Nesting.replace, bodies] using ih others
            | some c => simpa [withScope, first, Nesting.replace, bodies] using others
      · push Not at body
        rw [(scopes_cons body rest s).2, bodies_cons body]
        rw [bodies_cons body] at same
        exact ih same

/-- To change a scope leaves the limits of the calls. -/
theorem limits_withScope (s : Scope Write PostCommit) (stack : List Frame) :
    (bodies (withScope s stack)).map Body.limit = (bodies stack).map Body.limit := by
  induction stack with
  | nil => rfl
  | cons f rest ih =>
      by_cases body : ∃ b, f = .body b
      · obtain ⟨b, rfl⟩ := body
        unfold withScope
        split
        · rfl
        · simpa [bodies] using ih
      · push Not at body
        rw [(scopes_cons body rest s).2, bodies_cons body, bodies_cons body, ih]

theorem limits_restored (s : Option (Scope Write PostCommit)) (stack : List Frame) :
    (bodies (restored s stack)).map Body.limit = (bodies stack).map Body.limit := by
  cases s with
  | none => rfl
  | some s => exact limits_withScope s stack

/-! ### What a task does -/

/-- The world changes as deeds are done one after the other, each once, and as others change it
meanwhile. -/
inductive Done (others : World → World → Prop) :
    List (Deed Write PostCommit) → World → World → Prop
  | nil (w : World) : Done others [] w w
  | change {a : Write} {rest : List (Deed Write PostCommit)} {w w' : World} :
      Done others rest { w with backlog := w.backlog.commit [a] } w' →
      Done others (.change a :: rest) w w'
  | tell {hook : PostCommit} {rest : List (Deed Write PostCommit)} {stack : List Frame}
      {w w₁ w' : World} : Ends (tellOne hook) stack w w₁ → Done others rest w₁ w' →
      Done others (.tell hook :: rest) w w'
  | meanwhile {deeds : List (Deed Write PostCommit)} {w w₁ w' : World} :
      others w w₁ → Done others deeds w₁ w' → Done others deeds w w'

/-- The body of a call that begins. -/
def begun (joins : Bool) (limit : Duration) (failure : Option String)
    (steps : List (Bool × Step)) (t : Turn) : Body :=
  ⟨Scope.own? (scopeOf t.stack) joins, limit, t.world.elapsed + limit.ticks, none, failure, false,
    [], steps⟩

/-- What is answered to whoever registers a listener. -/
def registered : Except Error Unit → Answer
  | .ok () => .nothing
  | .error e => .failure (.error e)

/-- What becomes of a call whose body has come to `outcome`. -/
def ending (b : Body) (outcome : Except Error Unit) (t : Turn) :
    Scope.Ending Write PostCommit Unit :=
  Scope.close b.scope outcome (scopeOf t.stack)

/-- A task ends a call and tells its listeners: the result, and what it leaves behind. -/
inductive Closes (b : Body) (outcome : Except Error Unit) (t : Turn) :
    Except Error Unit → Turn → Prop
  | nothing : (ending b outcome t).committed = none →
      Closes b outcome t (ending b outcome t).result
        ⟨t.world, restored (ending b outcome t).around t.stack⟩
  | commits {s : Scope Write PostCommit} {w : World} :
      (ending b outcome t).committed = some s →
      Told (.transaction ((ending b outcome t).result.mapError .error) b.done)
        (restored (ending b outcome t).around t.stack) s.listeners
        { t.world with backlog := t.world.backlog.commit s.staged } w →
      Closes b outcome t (ending b outcome t).result
        ⟨w, restored (ending b outcome t).around t.stack⟩

/-- A task carries out a program. While it waits others change the world. -/
inductive Enacts (others : World → World → Prop) :
    Course Write PostCommit Unit → Turn → Halt Unit → Turn → Prop
  | ends (outcome : Except Error Unit) (t : Turn) :
      Enacts others (.ends outcome) t (.ended outcome) t
  /-- It has waited, and of the calls whose time is up the innermost is the one with the number. -/
  | waits {call : Nat} {stack rest : List Frame} {b : Body} {w w' : World} :
      others w w' → overdue? w'.elapsed stack = some (b, rest) →
      (bodies stack).length = call + 1 + (bodies rest).length →
      Enacts others (.waits call) ⟨w, stack⟩ (.cutOff call) ⟨w', stack⟩
  | stages {ρ : Type} {d : Backlog.Draft ρ} {a : Write} {next : Course Write PostCommit Unit}
      {t t' : Turn} {halt : Halt Unit} : d.writes = [a] →
      Enacts others next ((Act.record d).run t).2 halt t' →
      Enacts others (.stages a next) t halt t'
  | listens {name : String} {reaction : Reaction Step}
      {next : Except Error Unit → Course Write PostCommit Unit} (result : Except Error Unit)
      {t t₁ t' : Turn} {halt : Halt Unit} :
      (takeStep (.listener name reaction)).run t = (.give (.answer (registered result)), t₁) →
      Enacts others (next result) t₁ halt t' →
      Enacts others (.listens (.callback name reaction) next) t halt t'
  | returns {joins : Bool} {limit : Duration} (failure : Option String)
      (steps : List (Bool × Step)) {body : Course Write PostCommit Unit}
      {next : Except Error Unit → Course Write PostCommit Unit} {b : Body} {w : World}
      {stack : List Frame} {outcome result : Except Error Unit} {t t₁ t' : Turn}
      {halt : Halt Unit} :
      Enacts others body ⟨t.world, .body (begun joins limit failure steps t) :: t.stack⟩
        (.ended outcome) ⟨w, .body b :: stack⟩ →
      Closes b outcome ⟨w, stack⟩ result t₁ →
      Enacts others (next result) t₁ halt t' →
      Enacts others (.calls joins limit body next) t halt t'
  | timesOut {joins : Bool} {limit : Duration} (failure : Option String)
      (steps : List (Bool × Step)) {body : Course Write PostCommit Unit}
      {next : Except Error Unit → Course Write PostCommit Unit} {b : Body} {w : World}
      {stack : List Frame} {result : Except Error Unit} {t t₁ t' : Turn} {halt : Halt Unit} :
      Enacts others body ⟨t.world, .body (begun joins limit failure steps t) :: t.stack⟩
        (.cutOff 0) ⟨w, .body b :: stack⟩ →
      Closes b (.error (.transactionTimeout b.limit)) ⟨w, stack⟩ result t₁ →
      Enacts others (next result) t₁ halt t' →
      Enacts others (.calls joins limit body next) t halt t'
  | cutOff {joins : Bool} {limit : Duration} (failure : Option String)
      (steps : List (Bool × Step)) {body : Course Write PostCommit Unit}
      {next : Except Error Unit → Course Write PostCommit Unit} {b : Body} {w : World}
      {stack : List Frame} {call : Nat} {t : Turn} :
      Enacts others body ⟨t.world, .body (begun joins limit failure steps t) :: t.stack⟩
        (.cutOff (call + 1)) ⟨w, .body b :: stack⟩ →
      Enacts others (.calls joins limit body next) t (.cutOff call) ⟨w, stack⟩

section

variable {others : World → World → Prop} {t t' : Turn} {stack : List Frame}
  {n : Nesting Write PostCommit Unit}

theorem Done.append {deeds more : List (Deed Write PostCommit)} {w w₁ w' : World}
    (first : Done others deeds w w₁) (second : Done others more w₁ w') :
    Done others (deeds ++ more) w w' := by
  induction first with
  | nil w => exact second
  | change _ ih => exact .change (ih second)
  | tell one _ ih => exact .tell one (ih second)
  | meanwhile other _ ih => exact .meanwhile other (ih second)

/-- Changes that take effect together do so one after the other. -/
theorem done_commit (staged : List Write) (w : World) :
    Done others (staged.map .change) w { w with backlog := w.backlog.commit staged } := by
  induction staged generalizing w with
  | nil => exact .nil w
  | cons a staged ih => exact .change (ih _)

theorem Told.done {reply : Answer} {hooks : List PostCommit} {w w' : World}
    (told : Told reply stack hooks w w') : Done others (hooks.map .tell) w w' := by
  induction told with
  | nil w => exact .nil w
  | cons one _ ih => exact .tell one ih

/-! ### What the code does in these places -/

theorem beginBody_run (joins : Bool) (limit : Duration) (failure : Option String)
    (steps : List (Bool × Step)) (t : Turn) :
    (beginBody joins limit failure steps).run t =
      (continueBody (begun joins limit failure steps t)).run t := rfl

/-- Whoever registers a listener does so in the scope around, if there is one. -/
theorem registered_inv {name : String} {reaction : Reaction Step} {result : Except Error Unit}
    (run : (takeStep (.listener name reaction)).run t = (.give (.answer (registered result)), t')) :
    scopeOf t.stack = none ∧ result = .error .noActiveTransaction ∧ t' = t ∨
      ∃ s, scopeOf t.stack = some s ∧ result = .ok () ∧
        t' = { t with stack := withScope (s.listen (.callback name reaction)) t.stack } := by
  rw [listener_run name reaction t.world t.stack] at run
  cases around : scopeOf t.stack with
  | none =>
      rw [around] at run
      cases result with
      | ok => cases run
      | error e =>
          cases run
          exact .inl ⟨rfl, rfl, rfl⟩
  | some s =>
      rw [around] at run
      cases result with
      | error e => cases run
      | ok =>
          cases run
          exact .inr ⟨s, rfl, rfl, rfl⟩

/-- **A task that ends a call gives its result**, and if it commits, it does so after all
listeners have been told. -/
theorem Closes.reaches {b : Body} {outcome result : Except Error Unit}
    (closes : Closes b outcome t result t') :
    Reaches ((endBody b outcome).run t)
      (.give (.answer (.transaction (result.mapError .error) b.done)), t') := by
  obtain ⟨w, stack⟩ := t
  rw [endBody_run]
  cases closes with
  | nothing none =>
      rw [ending] at none
      dsimp only
      rw [none]
      exact .refl
  | commits some told =>
      rw [ending] at some
      dsimp only
      rw [some]
      exact told.reaches

/-- A call whose time is up while a task waits ends with that, and so do all calls inside it. -/
theorem poll_of_overdue {wait still : Wait} {b : Body} {rest : List Frame}
    (waits : (lookAt wait).run t = (.inl still, t'))
    (late : overdue? t'.world.elapsed t'.stack = some (b, rest)) :
    (poll wait).run t = (endBody b (.error (.transactionTimeout b.limit))).run
      { t' with stack := rest } := by
  rw [poll, run_bind waits]
  dsimp only
  rw [run_bind (show (get : Act Turn).run t' = (t', t') from rfl), late]
  rfl

/-! ### As a program is performed -/

/-- A task has kept up with a nesting: it is in the middle of the same calls, and the world has been
changed by what has been logged meanwhile. -/
structure Abreast (others : World → World → Prop) (n m : Nesting Write PostCommit Unit)
    (w : World) (t : Turn) : Prop where
  mirrors : Mirrors t.stack m
  done : ∃ deeds, m.log = n.log ++ deeds ∧ Done others (deeds.map Prod.snd) w t.world

theorem Abreast.trans {m k : Nesting Write PostCommit Unit} {w : World}
    (first : Abreast others n m w t) (second : Abreast others m k t.world t') :
    Abreast others n k w t' := by
  obtain ⟨deeds, log, done⟩ := first.done
  obtain ⟨more, log', done'⟩ := second.done
  refine ⟨second.mirrors, deeds ++ more, by rw [log', log, List.append_assoc], ?_⟩
  rw [List.map_append]
  exact done.append done'

variable (others)

/-- Nothing is logged, and the world stays as it is. -/
theorem Mirrors.abreast {m : Nesting Write PostCommit Unit} {w : World}
    (mirrors : Mirrors stack m) (log : m.log = n.log) : Abreast others n m w ⟨w, stack⟩ :=
  ⟨mirrors, [], by rw [log, List.append_nil], .nil w⟩

theorem Mirrors.scopeOf (mirrors : Mirrors stack n) :
    scopeOf stack = (Nesting.innermost? n.calls).map Prod.snd :=
  scopeOf_eq mirrors

theorem Mirrors.begins (mirrors : Mirrors t.stack n) (joins : Bool) (limit : Duration)
    (failure : Option String) (steps : List (Bool × Step)) :
    Abreast others n (n.call joins) t.world
      ⟨t.world, .body (begun joins limit failure steps t) :: t.stack⟩ := by
  have inside : Mirrors (.body (begun joins limit failure steps t) :: t.stack) (n.call joins) := by
    unfold Mirrors Nesting.call
    rw [bodies, List.map_cons, mirrors]
    dsimp only [begun]
    rw [mirrors.scopeOf]
    cases Scope.own? ((Nesting.innermost? n.calls).map Prod.snd) joins <;> rfl
  refine inside.abreast others ?_
  unfold Nesting.call
  dsimp only
  split <;> rfl

/-- Inside a transaction a write is staged; outside it takes effect at once. -/
theorem Mirrors.records (mirrors : Mirrors t.stack n) {ρ : Type} {d : Backlog.Draft ρ} {a : Write}
    (one : d.writes = [a]) : Abreast others n (n.stage a) t.world ((Act.record d).run t).2 := by
  rw [record_run, mirrors.scopeOf]
  cases inner : Nesting.innermost? n.calls with
  | none =>
      have settled : (t.world.backlog.record (none : Option (Scope Write PostCommit)) d).2 =
          (t.world.backlog.commit [a], none) := by
        simp only [Backlog.record, one, Backlog.commit, List.foldlM_cons, List.foldlM_nil,
          List.foldl_cons, List.foldl_nil, Backlog.settle, bind_pure]
        cases t.world.backlog.carryOut a <;> rfl
      simp only [Option.map_none, settled, Nesting.stage, inner]
      exact ⟨mirrors, [(none, .change a)], rfl, done_commit [a] t.world⟩
  | some c =>
      simp only [Backlog.record, one, Option.map_some, Nesting.stage, inner]
      exact Mirrors.abreast others (bodies_withScope mirrors _) rfl

theorem Mirrors.listens (mirrors : Mirrors t.stack n) {name : String} {reaction : Reaction Step}
    {result : Except Error Unit}
    (run : (takeStep (.listener name reaction)).run t = (.give (.answer (registered result)), t')) :
    (n.listen (.callback name reaction)).1 = result ∧
      Abreast others n (n.listen (.callback name reaction)).2 t.world t' := by
  rcases registered_inv run with ⟨outside, rfl, rfl⟩ | ⟨s, inside, rfl, rfl⟩
  · rw [mirrors.scopeOf] at outside
    simp only [Nesting.listen, Option.map_eq_none_iff.mp outside, true_and]
    exact mirrors.abreast _ rfl
  · rw [mirrors.scopeOf] at inside
    obtain ⟨c, inner, rfl⟩ := Option.map_eq_some_iff.mp inside
    simp only [Nesting.listen, inner, true_and]
    exact Mirrors.abreast others (bodies_withScope mirrors _) rfl

/-- **What a task does at the end of a call is what is logged there**, and the result is the
same. -/
theorem Mirrors.closes {b : Body} (mirrors : Mirrors (.body b :: t.stack) n)
    {outcome result : Except Error Unit} (closes : Closes b outcome t result t') :
    (n.close outcome).1 = result ∧ Abreast others n (n.close outcome).2 t.world t' := by
  obtain ⟨own, rest, split, top, below⟩ := List.map_eq_cons_iff.mp mirrors.symm
  have close : Scope.close (own.map Prod.snd) outcome ((Nesting.innermost? rest).map Prod.snd) =
      ending b outcome t := by
    rw [top, ← scopeOf_eq below.symm, ending]
  rw [Nesting.close_cons split]
  dsimp only
  rw [close]
  have stack : (bodies (restored (ending b outcome t).around t.stack)).map Body.scope =
      ((ending b outcome t).around.elim rest fun s => Nesting.replace s rest).map
        (Option.map Prod.snd) := by
    unfold restored
    cases (ending b outcome t).around with
    | none => exact below.symm
    | some s => exact bodies_withScope below.symm s
  cases closes with
  | nothing none => exact ⟨rfl, stack, [], by simp [none], .nil _⟩
  | @commits s w some told =>
      refine ⟨rfl, stack, s.deeds.map fun d => (own.map Prod.fst, d), by simp [some], ?_⟩
      have deeds : (s.deeds.map fun d => (own.map Prod.fst, d)).map Prod.snd =
          s.staged.map .change ++ s.listeners.map .tell := by
        simp [Scope.deeds, List.map_map, Function.comp_def]
      rw [deeds]
      exact (done_commit s.staged t.world).append told.done

theorem Mirrors.drops {b : Body} (mirrors : Mirrors (.body b :: t.stack) n) :
    Abreast others n n.drop t.world t := by
  obtain ⟨own, rest, split, -, below⟩ := List.map_eq_cons_iff.mp mirrors.symm
  have dropped : Mirrors t.stack n.drop := by
    rw [Mirrors, Nesting.drop, split, List.tail_cons, below]
  exact dropped.abreast others rfl

variable {others}

/-! ### Limits -/

theorem Closes.limits {b : Body} {outcome result : Except Error Unit}
    (closes : Closes b outcome t result t') :
    (bodies t'.stack).map Body.limit = (bodies t.stack).map Body.limit := by
  cases closes <;> exact limits_restored _ _

theorem limits_record {ρ : Type} (d : Backlog.Draft ρ) (t : Turn) :
    (bodies ((Act.record d).run t).2.stack).map Body.limit = (bodies t.stack).map Body.limit := by
  rw [record_run]
  exact limits_restored _ _

/-- A task keeps the limits of the calls that it is in the middle of. -/
theorem Enacts.limits {c : Course Write PostCommit Unit} {halt : Halt Unit}
    (enacts : Enacts others c t halt t') :
    (bodies t'.stack).map Body.limit = (bodies t.stack).map Body.limit := by
  induction enacts with
  | ends outcome t => rfl
  | waits others late number => rfl
  | stages one _ ih => exact ih.trans (limits_record _ _)
  | listens result run _ ih =>
      rcases registered_inv run with ⟨-, -, rfl⟩ | ⟨s, -, -, rfl⟩
      · exact ih
      · exact ih.trans (limits_withScope _ _)
  | returns failure steps _ closes _ body_ih next_ih =>
      exact next_ih.trans (closes.limits.trans (List.cons.inj body_ih).2)
  | timesOut failure steps _ closes _ body_ih next_ih =>
      exact next_ih.trans (closes.limits.trans (List.cons.inj body_ih).2)
  | cutOff failure steps _ body_ih => exact (List.cons.inj body_ih).2

/-- **A task that carries out a program comes to what the program comes to**, and the world is
changed by what is logged. -/
theorem Enacts.abreast {c : Course Write PostCommit Unit} {halt : Halt Unit}
    (enacts : Enacts others c t halt t') (mirrors : Mirrors t.stack n) :
    (c.perform n).2 = halt ∧ Abreast others n (c.perform n).1 t.world t' := by
  induction enacts generalizing n with
  | ends outcome t => exact ⟨rfl, mirrors.abreast _ rfl⟩
  | waits other late number =>
      exact ⟨rfl, mirrors, [], (List.append_nil _).symm, .meanwhile other (.nil _)⟩
  | stages one _ ih =>
      have staged := mirrors.records others one
      obtain ⟨halts, onward⟩ := ih staged.mirrors
      exact ⟨halts, staged.trans onward⟩
  | listens result run _ ih =>
      obtain ⟨rfl, listening⟩ := mirrors.listens others run
      obtain ⟨halts, onward⟩ := ih listening.mirrors
      exact ⟨halts, listening.trans onward⟩
  | @returns joins limit failure steps body next b w stack outcome result t t₁ t' halt _ closes _
      body_ih next_ih =>
      have begins := mirrors.begins others joins limit failure steps
      obtain ⟨halted, inside⟩ := body_ih begins.mirrors
      obtain ⟨same, closed⟩ := inside.mirrors.closes others closes
      obtain ⟨halts, onward⟩ := next_ih closed.mirrors
      rw [Course.perform_of_ended halted, same]
      exact ⟨halts, ((begins.trans inside).trans closed).trans onward⟩
  | @timesOut joins limit failure steps body next b w stack result t t₁ t' halt enacts closes _
      body_ih next_ih =>
      obtain rfl : b.limit = limit := (List.cons.inj enacts.limits).1
      have begins := mirrors.begins others joins b.limit failure steps
      obtain ⟨halted, inside⟩ := body_ih begins.mirrors
      obtain ⟨same, closed⟩ := inside.mirrors.closes others closes
      obtain ⟨halts, onward⟩ := next_ih closed.mirrors
      rw [Course.perform_of_timedOut halted, same]
      exact ⟨halts, ((begins.trans inside).trans closed).trans onward⟩
  | @cutOff joins limit failure steps body next b w stack call t _ body_ih =>
      have begins := mirrors.begins others joins limit failure steps
      obtain ⟨halted, inside⟩ := body_ih begins.mirrors
      have dropped := Mirrors.drops others (t := ⟨w, stack⟩) inside.mirrors
      rw [Course.perform_of_cutOff halted]
      exact ⟨rfl, (begins.trans inside).trans dropped⟩

end

end RecurringWork.Simulation

namespace RecurringWork

open Simulation

/-- **All or nothing, however calls are nested.** Whatever calls a program is among:

* what has happened, what has been done and how it comes to its end are what its tree says, and
  nothing else;
* they keep the law of transactions;
* each of its calls has ended where it began, and the scopes around it hold what was gathered in
  them;
* a task that carries out a program comes to the same, and does what is logged, in order and each
  deed once;
* a call of the code begins with such a body as a task that carries out a program begins with. At
  its end it gives the result, once every listener has been told, whether or not one of them breaks
  off; and when its time is up while a task waits, that is its end. -/
theorem Course.all_or_nothing {α β γ : Type} (c : Course α β γ) {n : Nesting α β γ}
    (sound : n.Sound) :
    (∀ s halt, c.Unfolds n.around n.story s halt ↔
      (c.perform n).1.story = s ∧ (c.perform n).2 = halt) ∧
    Lawful (c.perform n).1.trace (c.perform n).1.log ∧
    (Nesting.numbers (c.perform n).1.calls = Nesting.numbers n.calls ∧
      ∀ k s, some (k, s) ∈ (c.perform n).1.calls → (c.perform n).1.Keeps k s) ∧
    (∀ others (d : Course Write PostCommit Unit) t halt t', Enacts others d t halt t' →
      ∀ m, Mirrors t.stack m →
        (d.perform m).2 = halt ∧ Abreast others m (d.perform m).1 t.world t') ∧
    (∀ joins limit failure steps t, (beginBody joins limit failure steps).run t =
      (continueBody (begun joins limit failure steps t)).run t) ∧
    (∀ b outcome t result t', Closes b outcome t result t' →
      Reaches ((endBody b outcome).run t)
        (.give (.answer (.transaction (result.mapError .error) b.done)), t')) ∧
    (∀ wait still b rest t t', (lookAt wait).run t = (.inl still, t') →
      overdue? t'.world.elapsed t'.stack = some (b, rest) →
      (poll wait).run t =
        (endBody b (.error (.transactionTimeout b.limit))).run { t' with stack := rest }) := by
  have performed := sound.perform c
  have calls := Nesting.numbers_perform c n
  refine ⟨sound.unfolds_iff c, performed.lawful, ⟨calls, performed.keeps⟩, ?_, beginBody_run,
    ?_, ?_⟩
  · intro others d t halt t' enacts m mirrors
    exact enacts.abreast mirrors
  · intro b outcome t result t' closes
    exact closes.reaches
  · intro wait still b rest t t' waits late
    exact poll_of_overdue waits late

/-! ### Two calls -/

/-- A listener that takes no steps comes to its end, whether or not it breaks off. -/
theorem ends_tellOne_callback (name : String) (call : Nat) (breaksOff : Bool)
    (stack : List Frame) (w : World) :
    Ends (tellOne (.callback name ⟨[], call, breaksOff⟩)) stack w
      { w with notices := w.notices ++
          [.committed name w.backlog.size (scopeOf stack).isSome] } := by
  cases breaksOff with
  | false => exact ⟨.give .nothing, .inl ⟨_, rfl⟩, .single rfl⟩
  | true => exact ⟨.fault, .inr rfl, .single rfl⟩

/-- A listener that breaks off, and one that does not. -/
def first : PostCommit := .callback "first" ⟨[], 1, true⟩

def second : PostCommit := .callback "second" ⟨[], 1, false⟩

/-- A call passes over the failure of another one that has joined it and has no time at all. -/
def passingOver (next : Course Write PostCommit Unit) : Course Write PostCommit Unit :=
  .calls false (.ofSeconds 1)
    (.stages (.purge [1]) (.calls true .zero (.waits 0) fun _ => .ends (.ok ()))) fun _ => next

/-- A call commits and tells two listeners. -/
def telling : Course Write PostCommit Unit :=
  .calls false (.ofSeconds 1)
    (.stages (.purge [2]) (.listens first fun _ => .listens second fun _ => .ends (.ok ()))) .ends

/-- A world in which nothing has happened, with some notices. -/
def idle (notices : List Simulation.Notice) : World :=
  { Script.world ⟨.manual 0, 3, []⟩ with notices }

def bothTold : World := idle [.committed "first" 0 false, .committed "second" 0 false]

/-- The body of a call that began in such a world and has a second. -/
def inSecond (s : Scope Write PostCommit) : Body :=
  ⟨some s, .ofSeconds 1, 1000, none, none, false, [], []⟩

/-- The body of a call that has joined and has no time. -/
def inNoTime : Body := ⟨none, .zero, 0, none, none, false, [], []⟩

theorem closes_telling : Closes (inSecond ⟨false, [.purge [2]], [first, second]⟩) (.ok ())
    ⟨idle [], []⟩ (.ok ()) ⟨bothTold, []⟩ := by
  have told : Told (.transaction (.ok ()) []) [] [first, second] (idle []) bothTold :=
    .cons (ends_tellOne_callback "first" 1 true _ _)
      (.cons (ends_tellOne_callback "second" 1 false _ _) (.nil _))
  exact .commits (s := ⟨false, [.purge [2]], [first, second]⟩) rfl told

theorem enacts_twoCalls : Enacts Eq (passingOver telling) ⟨idle [], []⟩ (.ended (.ok ()))
    ⟨bothTold, []⟩ := by
  -- The joined call dooms the scope around it, which is rolled back.
  have joined : Enacts Eq (.calls true .zero (.waits 0) fun _ => .ends (.ok ()))
      ⟨idle [], [.body (inSecond ⟨false, [.purge [1]], []⟩)]⟩ (.ended (.ok ()))
      ⟨idle [], [.body (inSecond ⟨true, [.purge [1]], []⟩)]⟩ :=
    .timesOut none [] (.waits (rfl : idle [] = idle []) rfl rfl) (.nothing rfl)
      (.ends (.ok ()) _)
  have tells : Enacts Eq telling ⟨idle [], []⟩ (.ended (.ok ())) ⟨bothTold, []⟩ :=
    .returns none []
      (.stages (d := ⟨(), [.purge [2]]⟩) rfl
        (.listens (.ok ()) rfl (.listens (.ok ()) rfl (.ends (.ok ()) _))))
      closes_telling (.ends (.ok ()) _)
  exact .returns none [] (.stages (d := ⟨(), [.purge [1]]⟩) rfl joined)
    (.nothing rfl) tells

theorem all_or_nothing_of_twoCalls :
    (Nesting.start : Nesting Write PostCommit Unit).Sound ∧
    (passingOver telling).Unfolds none ⟨0, [], []⟩
      ⟨2, [.ends 1 true (.ok ()) (.ok ()), .listens 1 second, .listens 1 first,
          .stages 1 (.purge [2]), .calls false none 1, .ends 0 true (.ok ()) (.error .rolledBack),
          .ends 0 false (.error (.transactionTimeout .zero)) (.error (.transactionTimeout .zero)),
          .calls true (some 0) 0, .stages 0 (.purge [1]), .calls false none 0],
        [(some 1, .change (.purge [2])), (some 1, .tell first), (some 1, .tell second)]⟩
      (.ended (.ok ())) ∧
    (Mirrors [] .start ∧
      Enacts Eq (passingOver telling) ⟨idle [], []⟩ (.ended (.ok ())) ⟨bothTold, []⟩ ∧
      Done Eq [.change (.purge [2]), .tell first, .tell second] (idle []) bothTold) ∧
    Reaches
      ((endBody (inSecond ⟨false, [.purge [2]], [first, second]⟩) (.ok ())).run ⟨idle [], []⟩)
      (.give (.answer (.transaction (.ok ()) [])), ⟨bothTold, []⟩) ∧
    (poll .quiet).run ⟨idle [], [.body inNoTime, .body (inSecond .empty)]⟩ =
      (endBody inNoTime (.error (.transactionTimeout .zero))).run
        ⟨idle [], [.body (inSecond .empty)]⟩ := by
  obtain ⟨unfolds, -, -, enacted, -, gives, timesOut⟩ :=
    (passingOver telling).all_or_nothing Nesting.sound_start
  refine ⟨Nesting.sound_start, (unfolds _ _).mpr ⟨rfl, rfl⟩, ⟨rfl, enacts_twoCalls, ?_⟩,
    gives _ _ _ _ _ closes_telling, timesOut .quiet .quiet inNoTime _ _ ⟨idle [], _⟩ rfl rfl⟩
  obtain ⟨deeds, log, done⟩ := (enacted _ _ _ _ _ enacts_twoCalls .start rfl).2.done
  obtain rfl : deeds = _ := log.symm
  exact done

end RecurringWork
