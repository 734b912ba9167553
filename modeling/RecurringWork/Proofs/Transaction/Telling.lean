import Mathlib.Logic.Relation
import Mathlib.Tactic.Common
import RecurringWork.Simulation.Run

/-!
# RecurringWork.Proofs.Transaction.Telling

**What a task does with transactions.** A task keeps the scope of a call in the frame of its body.
What it does to scopes it does to the innermost one (`record_run`, `listener_run`). At the end of
a call it closes the scope of the frame; if that is applied, it commits its writes and tells its
listeners (`endBody_run`).

Listeners are told one after the other (`Told`). A listener may come to its end with a value or
break off; the frame below it goes on with the next one in either case (`Told.reaches`).
-/

namespace RecurringWork.Simulation

open Act

/-! ### A task at work -/

theorem Act.run_bind {α β : Type} {act : Act α} {a : α} {t t' : Turn} (done : act.run t = (a, t'))
    (f : α → Act β) : (do f (← act) : Act β).run t = (f a).run t' := by
  rw [StateT.run_bind, done]
  rfl

/-- What a task does next, and what it leaves behind. -/
def Goes (x y : Control × Turn) : Prop := (advance x.1).run x.2 = y

/-- A task comes from one thing to another without waiting. -/
def Reaches : Control × Turn → Control × Turn → Prop := Relation.ReflTransGen Goes

/-- What is done by `act` comes to its end: with a value or broken off, and with the stack as it
was. -/
def Ends (act : Act Control) (stack : List Frame) (w w' : World) : Prop :=
  ∃ c, ((∃ v, c = .give v) ∨ c = .fault) ∧ Reaches (act.run ⟨w, stack⟩) (c, ⟨w', stack⟩)

/-- Listeners are told one after the other, and each comes to its end. -/
inductive Told (reply : Answer) (stack : List Frame) : List PostCommit → World → World → Prop
  | nil (w : World) : Told reply stack [] w w
  | cons {hook : PostCommit} {rest : List PostCommit} {w w₁ w₂ : World}
      (one : Ends (tellOne hook) (.told rest reply :: stack) w w₁)
      (others : Told reply stack rest w₁ w₂) : Told reply stack (hook :: rest) w w₂

/-- **One that breaks off does not keep the others from being told**: however each listener comes
to its end, the next one is told, and after the last the answer is given. -/
theorem Told.reaches {reply : Answer} {stack : List Frame} {hooks : List PostCommit}
    {w w' : World} (told : Told reply stack hooks w w') :
    Reaches ((tell reply hooks).run ⟨w, stack⟩) (.give (.answer reply), ⟨w', stack⟩) := by
  induction told with
  | nil w => exact .refl
  | cons one others ih =>
      obtain ⟨c, ended, reached⟩ := one
      refine Relation.ReflTransGen.trans reached (Relation.ReflTransGen.head ?_ ih)
      rcases ended with ⟨v, rfl⟩ | rfl
      · rfl
      · rfl

/-! ### Scopes in the stack of a task -/

/-- A frame that is not that of a body is no matter for scopes. -/
theorem scopes_cons {f : Frame} (other : ∀ b, f ≠ .body b) (stack : List Frame)
    (s : Scope Write PostCommit) :
    scopeOf (f :: stack) = scopeOf stack ∧ withScope s (f :: stack) = f :: withScope s stack := by
  cases f with
  | body b => exact absurd rfl (other b)
  | _ => exact ⟨rfl, rfl⟩

/-- The stack of a task after the scope around it has been put back. -/
def restored (s : Option (Scope Write PostCommit)) (stack : List Frame) : List Frame :=
  s.elim stack fun s => withScope s stack

/-- To put back the scope that is there changes nothing. -/
theorem withScope_scopeOf {stack : List Frame} {s : Scope Write PostCommit}
    (around : scopeOf stack = some s) : withScope s stack = stack := by
  induction stack with
  | nil => rfl
  | cons f rest ih =>
      by_cases body : ∃ b, f = .body b
      · obtain ⟨⟨scope, limit, deadline, timer, failure, marked, done, steps⟩, rfl⟩ := body
        cases scope with
        | none => simp [withScope, ih around]
        | some t =>
            obtain rfl : t = s := Option.some.inj around
            simp [withScope]
      · push Not at body
        obtain ⟨below, changed⟩ := scopes_cons body rest s
        rw [changed, ih (below ▸ around)]

theorem restored_scopeOf (stack : List Frame) :
    restored (scopeOf stack) stack = stack := by
  cases around : scopeOf stack with
  | none => rfl
  | some s => exact withScope_scopeOf around

theorem listener_run (name : String) (reaction : Reaction Step) (w : World) (stack : List Frame) :
    (takeStep (.listener name reaction)).run ⟨w, stack⟩ =
      match scopeOf stack with
      | none => (.give (.answer (.failure (.error .noActiveTransaction))), ⟨w, stack⟩)
      | some s => (.give (.answer .nothing),
          ⟨w, withScope (s.listen (.callback name reaction)) stack⟩) := by
  rw [takeStep, run_scope]
  cases scopeOf stack <;> rfl

theorem record_run {ρ : Type} (d : Backlog.Draft ρ) (w : World) (stack : List Frame) :
    (Act.record d).run ⟨w, stack⟩ =
      let r := w.backlog.record (scopeOf stack) d
      (r.1, ⟨{ w with backlog := r.2.1 }, restored r.2.2 stack⟩) := by
  show (do
    setScope (w.backlog.record (scopeOf stack) d).2.2
    return (w.backlog.record (scopeOf stack) d).1 : Act _).run
      ⟨{ w with backlog := (w.backlog.record (scopeOf stack) d).2.1 }, stack⟩ = _
  dsimp only
  generalize w.backlog.record (scopeOf stack) d = r
  obtain ⟨answer, b, around⟩ := r
  cases around <;> rfl

theorem endBody_run (b : Body) (outcome : Except Error Unit) (w : World) (stack : List Frame) :
    (endBody b outcome).run ⟨w, stack⟩ =
      let e := Scope.close b.scope outcome (scopeOf stack)
      let reply := Answer.transaction (e.result.mapError .error) b.done
      match e.committed with
      | none => (.give (.answer reply), ⟨w, restored e.around stack⟩)
      | some s => (tell reply s.listeners).run
          ⟨{ w with backlog := w.backlog.commit s.staged }, restored e.around stack⟩ := by
  rw [endBody, run_scope]
  dsimp only
  generalize Scope.close b.scope outcome (scopeOf stack) = e
  obtain ⟨result, committed, around⟩ := e
  cases around <;> cases committed <;> rfl

end RecurringWork.Simulation
