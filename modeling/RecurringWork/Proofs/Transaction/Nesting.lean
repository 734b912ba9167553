import RecurringWork.Transaction
import RecurringWork.Time

/-!
# RecurringWork.Proofs.Transaction.Nesting

**Calls within calls.** A program that uses transactions is a tree (`Course`): a body stages
changes, registers listeners, calls further bodies and goes on with what they come to, whether
it likes it or not; it ends, or it waits until the time of some call around it is up. Running
such a tree needs no more than the calls whose bodies have not ended, the innermost first
(`Nesting.calls`). A call that has joined has nothing of its own there; what its body does goes
to the innermost scope around it.

A `Nesting` also keeps a record. Scopes are numbered as they are opened; the *trace* says what
has happened in which scope, and the *log* what has been done on behalf of which scope.
Nothing reads either of them while a program runs.
-/

namespace RecurringWork

variable {α β γ : Type}

/-- What is done when a scope commits. -/
inductive Deed (α β : Type)
  | change (a : α)
  | tell (listener : β)
  deriving DecidableEq, Repr

/-- What a scope does when it commits: all its changes, then it tells its listeners. -/
def Scope.deeds (s : Scope α β) : List (Deed α β) := s.staged.map .change ++ s.listeners.map .tell

/-- What happens to calls. -/
inductive Happening (α β γ : Type)
  /-- A call, asked to join or not. `around` is the innermost scope around it, and `scope` the
  one in which its body runs. -/
  | calls (joins : Bool) (around : Option Nat) (scope : Nat)
  | stages (scope : Nat) (change : α)
  | listens (scope : Nat) (listener : β)
  /-- A body has ended: that for which its scope was opened, or one that has joined it. -/
  | ends (scope : Nat) (own : Bool) (outcome result : Except Error γ)

/-- The scope that something happened in. -/
def Happening.scope : Happening α β γ → Nat
  | calls _ _ k | stages k _ | listens k _ | ends k _ _ _ => k

/-- The calls whose bodies have not ended, and what has happened so far. -/
structure Nesting (α β γ : Type) where
  /-- The innermost call first: its scope with its number, or nothing if it has joined. -/
  calls : List (Option (Nat × Scope α β))
  /-- How many scopes there have been. -/
  opened : Nat
  /-- The latest first. -/
  trace : List (Happening α β γ)
  /-- What has been done, for a scope or outside of any, in order. -/
  log : List (Option Nat × Deed α β)

namespace Nesting

/-- Nothing has happened yet. -/
def start : Nesting α β γ := ⟨[], 0, [], []⟩

/-- The innermost scope of some calls. -/
def innermost? : List (Option (Nat × Scope α β)) → Option (Nat × Scope α β)
  | [] => none
  | some scope :: _ => some scope
  | none :: rest => innermost? rest

/-- Calls with another state of the innermost scope. -/
def replace (s : Scope α β) : List (Option (Nat × Scope α β)) → List (Option (Nat × Scope α β))
  | [] => []
  | some (k, _) :: rest => some (k, s) :: rest
  | none :: rest => none :: replace s rest

/-- Stage a change. Outside of all transactions it is carried out at once. -/
def stage (n : Nesting α β γ) (a : α) : Nesting α β γ :=
  match innermost? n.calls with
  | some (k, s) =>
      { n with calls := replace (s.stage [a]) n.calls, trace := .stages k a :: n.trace }
  | none => { n with log := n.log ++ [(none, .change a)] }

/-- Register a listener. -/
def listen (n : Nesting α β γ) (b : β) : Except Error Unit × Nesting α β γ :=
  match innermost? n.calls with
  | some (k, s) =>
      (.ok (), { n with calls := replace (s.listen b) n.calls, trace := .listens k b :: n.trace })
  | none => (.error .noActiveTransaction, n)

/-- Begin a call. -/
def call (n : Nesting α β γ) (joins : Bool) : Nesting α β γ :=
  let around := innermost? n.calls
  match Scope.own? (around.map Prod.snd) joins with
  | some s =>
      { n with
        calls := some (n.opened, s) :: n.calls
        opened := n.opened + 1
        trace := .calls joins (around.map Prod.fst) n.opened :: n.trace }
  | none =>
      { n with
        calls := none :: n.calls
        trace := .calls joins (around.map Prod.fst) (around.elim 0 Prod.fst) :: n.trace }

/-- End the innermost call, whose body came to `outcome`. The answer is the result of the
call. -/
def close (n : Nesting α β γ) (outcome : Except Error γ) : Except Error γ × Nesting α β γ :=
  match n.calls with
  | [] => (outcome, n)
  | own :: rest =>
      let around := innermost? rest
      let e := Scope.close (own.map Prod.snd) outcome (around.map Prod.snd)
      (e.result,
        { n with
          calls := e.around.elim rest fun s => replace s rest
          trace := .ends ((own <|> around).elim 0 Prod.fst) own.isSome outcome e.result :: n.trace
          log := n.log ++ (e.committed.elim [] Scope.deeds).map fun d => (own.map Prod.fst, d) })

/-- Give up the innermost call, because the time of one around it is up. -/
def drop (n : Nesting α β γ) : Nesting α β γ := { n with calls := n.calls.tail }

end Nesting

/-! ### Programs -/

/-- A program with transactions, which ends with a value `γ` or an error. -/
inductive Course (α β γ : Type)
  | ends (outcome : Except Error γ)
  /-- It waits until the time of a call around it is up. The innermost has number zero. -/
  | waits (call : Nat)
  | stages (change : α) (next : Course α β γ)
  | listens (listener : β) (next : Except Error Unit → Course α β γ)
  /-- It goes on with what the call comes to. -/
  | calls (joins : Bool) (limit : Duration) (body : Course α β γ)
      (next : Except Error γ → Course α β γ)

/-- How a program comes to its end. -/
inductive Halt (γ : Type)
  | ended (outcome : Except Error γ)
  /-- The time of a call around it is up. -/
  | cutOff (call : Nat)

/-- Run a program among the calls around it. -/
def Course.perform : Course α β γ → Nesting α β γ → Nesting α β γ × Halt γ
  | ends outcome, n => (n, .ended outcome)
  | waits call, n => (n, .cutOff call)
  | stages a next, n => next.perform (n.stage a)
  | listens b next, n =>
      let (answer, n) := n.listen b
      (next answer).perform n
  | calls joins limit body next, n =>
      match body.perform (n.call joins) with
      | (n, .ended outcome) =>
          let (result, n) := n.close outcome
          (next result).perform n
      | (n, .cutOff 0) =>
          let (result, n) := n.close (.error (.transactionTimeout limit))
          (next result).perform n
      | (n, .cutOff (call + 1)) => (n.drop, .cutOff call)

section

variable {n : Nesting α β γ} {joins : Bool} {limit : Duration} {body : Course α β γ}
  {next : Except Error γ → Course α β γ}

theorem Course.perform_of_ended {outcome : Except Error γ}
    (halted : (body.perform (n.call joins)).2 = .ended outcome) :
    (calls joins limit body next).perform n =
      (next ((body.perform (n.call joins)).1.close outcome).1).perform
        ((body.perform (n.call joins)).1.close outcome).2 := by
  rw [perform]
  generalize body.perform (n.call joins) = run at halted ⊢
  obtain ⟨m, halt⟩ := run
  obtain rfl : halt = .ended outcome := halted
  rfl

theorem Course.perform_of_timedOut (halted : (body.perform (n.call joins)).2 = .cutOff 0) :
    (calls joins limit body next).perform n =
      (next ((body.perform (n.call joins)).1.close (.error (.transactionTimeout limit))).1).perform
        ((body.perform (n.call joins)).1.close (.error (.transactionTimeout limit))).2 := by
  rw [perform]
  generalize body.perform (n.call joins) = run at halted ⊢
  obtain ⟨m, halt⟩ := run
  obtain rfl : halt = .cutOff 0 := halted
  rfl

theorem Course.perform_of_cutOff {call : Nat}
    (halted : (body.perform (n.call joins)).2 = .cutOff (call + 1)) :
    (calls joins limit body next).perform n =
      ((body.perform (n.call joins)).1.drop, .cutOff call) := by
  rw [perform]
  generalize body.perform (n.call joins) = run at halted ⊢
  obtain ⟨m, halt⟩ := run
  obtain rfl : halt = .cutOff (call + 1) := halted
  rfl

end

end RecurringWork
