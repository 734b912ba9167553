import RecurringWork.Error

/-!
# RecurringWork.Transaction

**All or nothing.** Inside a transaction nothing is changed. What is to be changed is
*staged* in the scope of the transaction and carried out when it commits, in the
order in which it was staged; then whoever registered for it is told, in the order of
registration. A transaction that does not commit leaves no trace of either.

A body that runs inside another transaction can have a scope of its own or join the
scope around it. Joined, it stages there, and its failure dooms that scope: the body
around it may go on, but can no longer commit.

* `Scope` — what a transaction has gathered;
* `Scope.own?` — the scope that a call gets, unless it joins the one around it;
* `Scope.verdict` — what becomes of a scope when its body ends;
* `Scope.close` — what becomes of a call when its body ends.
-/

namespace RecurringWork

/-- What a transaction has gathered: changes `α` to be carried out and listeners `β`
to be told. -/
structure Scope (α β : Type) where
  /-- A joined body has failed. -/
  doomed : Bool
  staged : List α
  listeners : List β
  deriving Repr

namespace Scope

/-- A fresh scope. -/
def empty {α β : Type} : Scope α β := ⟨false, [], []⟩

/-- The scope with more changes to carry out. -/
def stage {α β : Type} (s : Scope α β) (changes : List α) : Scope α β :=
  { s with staged := s.staged ++ changes }

/-- The scope with one more listener. -/
def listen {α β : Type} (s : Scope α β) (listener : β) : Scope α β :=
  { s with listeners := s.listeners ++ [listener] }

/-- The scope after a joined body failed. -/
def doom {α β : Type} (s : Scope α β) : Scope α β := { s with doomed := true }

/-- What becomes of a scope whose body ended: it commits if the body succeeded and no
joined one failed. Otherwise it is given up; the body's own failure is the reason that
is told. -/
def verdict {α β γ : Type} (s : Scope α β) : Except Error γ → Except Error (γ × Scope α β)
  | .ok r => if s.doomed then .error .rolledBack else .ok (r, s)
  | .error e => .error e

/-- The scope that a call gets of its own; nothing if it joins the one around it. It does so if
it is asked to and that one can still commit. -/
def own? {α β : Type} (around : Option (Scope α β)) (joins : Bool) : Option (Scope α β) :=
  if joins && around.any (fun s => !s.doomed) then none else some empty

/-- What a call comes to when its body has ended. -/
structure Ending (α β γ : Type) where
  result : Except Error γ
  /-- The scope of its own that commits. -/
  committed : Option (Scope α β)
  /-- The scope around it. -/
  around : Option (Scope α β)

/-- End a call whose body has ended. With a scope of its own it commits that scope or gives it
up; a failure of a joined one dooms the scope around it. -/
def close {α β γ : Type} (own : Option (Scope α β)) (result : Except Error γ)
    (around : Option (Scope α β)) : Ending α β γ :=
  match own with
  | some s =>
      match s.verdict result with
      | .ok (r, s) => ⟨.ok r, some s, around⟩
      | .error e => ⟨.error e, none, around⟩
  | none =>
      match result with
      | .ok r => ⟨.ok r, none, around⟩
      | .error e => ⟨.error e, none, around.map doom⟩

@[simp] theorem doomed_stage {α β : Type} (s : Scope α β) (changes : List α) :
    (s.stage changes).doomed = s.doomed := rfl

@[simp] theorem staged_stage {α β : Type} (s : Scope α β) (changes : List α) :
    (s.stage changes).staged = s.staged ++ changes := rfl

/-- To stage nothing changes nothing. -/
@[simp] theorem stage_nil {α β : Type} (s : Scope α β) : s.stage [] = s := by
  simp [stage]

@[simp] theorem doomed_listen {α β : Type} (s : Scope α β) (listener : β) :
    (s.listen listener).doomed = s.doomed := rfl

/-- A doomed scope never commits. -/
theorem verdict_doom {α β γ : Type} (s : Scope α β) (r : Except Error γ) :
    ∃ e, s.doom.verdict r = .error e := by
  cases r <;> simp [verdict, doom]

/-- A scope commits exactly if its body succeeded and it is not doomed. -/
theorem verdict_eq_ok_iff {α β γ : Type} {s t : Scope α β} {r : Except Error γ} {a : γ} :
    s.verdict r = .ok (a, t) ↔ r = .ok a ∧ s.doomed = false ∧ s = t := by
  cases r with
  | error e => simp [verdict]
  | ok c => cases h : s.doomed <;> simp [verdict, h]

end Scope

end RecurringWork
