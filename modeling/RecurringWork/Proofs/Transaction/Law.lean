import Mathlib.Tactic.Common
import RecurringWork.Proofs.Transaction.Nesting

/-!
# RecurringWork.Proofs.Transaction.Law

**What transactions promise**, said of what has happened and what has been done, and without
a scope (`Lawful`). Whatever was staged in a scope is carried out together or not at all. It
is carried out if the body that the scope was opened for has succeeded and so has every body
that has joined it (`Applied`); a failure counts even if somebody has passed over it
(`Spoiled`).

The law of a trace goes on to hold with whatever happens next: in a scope that is still in use
(`Lawful.inside`), or at its end (`Lawful.closes`).
-/

namespace RecurringWork

variable {α β γ : Type}

/-! ### What a trace says of a scope -/

namespace Happening

def staged? (k : Nat) : Happening α β γ → Option α
  | stages j a => if j = k then some a else none
  | _ => none

def listener? (k : Nat) : Happening α β γ → Option β
  | listens j b => if j = k then some b else none
  | _ => none

end Happening

/-- What was staged in a scope, by the body it was opened for or one that has joined it, in
order. -/
def stagedIn (t : List (Happening α β γ)) (k : Nat) : List α :=
  t.reverse.filterMap (Happening.staged? k)

/-- The listeners that were registered in a scope, in order. -/
def listenersIn (t : List (Happening α β γ)) (k : Nat) : List β :=
  t.reverse.filterMap (Happening.listener? k)

/-- A body that has joined a scope has failed, or its time was up. -/
def Spoiled (t : List (Happening α β γ)) (k : Nat) : Prop :=
  ∃ e result, .ends k false (.error e) result ∈ t

/-- The body that a scope was opened for has succeeded, and so have all that joined it. -/
def Applied (t : List (Happening α β γ)) (k : Nat) : Prop :=
  (∃ v result, .ends k true (.ok v) result ∈ t) ∧ ¬Spoiled t k

/-- What has been done for a scope, in order. -/
def doneFor (log : List (Option Nat × Deed α β)) (k : Nat) : List (Deed α β) :=
  (log.filter fun d => d.1 = some k).map Prod.snd

/-- **The law of transactions**, for what has happened and what has been done. -/
structure Lawful (t : List (Happening α β γ)) (log : List (Option Nat × Deed α β)) : Prop where
  /-- A call joins the innermost scope around it exactly if it is asked to and nothing has
  spoiled that scope so far. -/
  joining : ∀ later joins around scope earlier, t = later ++ .calls joins around scope :: earlier →
    (around = some scope ↔ joins = true ∧ ∃ k, around = some k ∧ ¬Spoiled earlier k)
  /-- Otherwise it gets a scope that nothing has happened in. -/
  opening : ∀ later joins around scope earlier, t = later ++ .calls joins around scope :: earlier →
    around ≠ some scope → ∀ h ∈ earlier, h.scope ≠ scope
  /-- A call that has joined comes to what its body comes to. -/
  joined : ∀ k outcome result, .ends k false outcome result ∈ t → result = outcome
  /-- A call with a scope of its own succeeds exactly if the scope is applied. -/
  own : ∀ k outcome result, .ends k true outcome result ∈ t →
    (∀ e, outcome = .error e → result = .error e) ∧
    (∀ v, outcome = .ok v → Applied t k → result = .ok v) ∧
    (∀ v, outcome = .ok v → ¬Applied t k → result = .error .rolledBack)
  /-- What was staged in a scope that is applied is done once, in order, and then its listeners
  are told, each once and in order. -/
  applied : ∀ k, Applied t k →
    doneFor log k = (stagedIn t k).map .change ++ (listenersIn t k).map .tell
  /-- Nothing else is ever done for a scope. -/
  discarded : ∀ k, ¬Applied t k → doneFor log k = []

/-! ### One happening more -/

@[simp] theorem stagedIn_cons (h : Happening α β γ) (t : List (Happening α β γ)) (k : Nat) :
    stagedIn (h :: t) k = stagedIn t k ++ (h.staged? k).toList := by
  cases found : h.staged? k <;> simp [stagedIn, found]

@[simp] theorem listenersIn_cons (h : Happening α β γ) (t : List (Happening α β γ)) (k : Nat) :
    listenersIn (h :: t) k = listenersIn t k ++ (h.listener? k).toList := by
  cases found : h.listener? k <;> simp [listenersIn, found]

theorem spoiled_cons {h : Happening α β γ} {t : List (Happening α β γ)} {k : Nat} :
    Spoiled (h :: t) k ↔ (∃ e result, h = .ends k false (.error e) result) ∨ Spoiled t k := by
  simp only [Spoiled, List.mem_cons, exists_or, eq_comm (b := h)]

theorem stagedIn_eq_nil {t : List (Happening α β γ)} {k : Nat} (new : ∀ h ∈ t, h.scope ≠ k) :
    stagedIn t k = [] := by
  refine List.filterMap_eq_nil_iff.mpr ?_
  intro h mem
  have other := new h (List.mem_reverse.mp mem)
  cases h <;> simp_all [Happening.staged?, Happening.scope]

theorem listenersIn_eq_nil {t : List (Happening α β γ)} {k : Nat} (new : ∀ h ∈ t, h.scope ≠ k) :
    listenersIn t k = [] := by
  refine List.filterMap_eq_nil_iff.mpr ?_
  intro h mem
  have other := new h (List.mem_reverse.mp mem)
  cases h <;> simp_all [Happening.listener?, Happening.scope]

/-- What happens in another scope is no matter. -/
theorem spoiled_cons_of_ne {h : Happening α β γ} {t : List (Happening α β γ)} {k : Nat}
    (other : h.scope ≠ k) : Spoiled (h :: t) k ↔ Spoiled t k := by
  rw [spoiled_cons, or_iff_right]
  rintro ⟨e, result, rfl⟩
  exact other rfl

theorem applied_cons_of_ne {h : Happening α β γ} {t : List (Happening α β γ)} {k : Nat}
    (other : h.scope ≠ k) : Applied (h :: t) k ↔ Applied t k := by
  have ended : (∃ v result, .ends k true (.ok v) result ∈ h :: t) ↔
      ∃ v result, .ends k true (.ok v) result ∈ t := by
    constructor
    · rintro ⟨v, result, mem⟩
      rcases List.mem_cons.mp mem with rfl | mem
      · exact absurd rfl other
      · exact ⟨v, result, mem⟩
    · rintro ⟨v, result, mem⟩
      exact ⟨v, result, List.mem_cons_of_mem _ mem⟩
  rw [Applied, Applied, ended, spoiled_cons_of_ne other]

theorem staged?_of_ne {h : Happening α β γ} {k : Nat} (other : h.scope ≠ k) :
    h.staged? k = none := by
  cases h <;> simp_all [Happening.staged?, Happening.scope]

theorem listener?_of_ne {h : Happening α β γ} {k : Nat} (other : h.scope ≠ k) :
    h.listener? k = none := by
  cases h <;> simp_all [Happening.listener?, Happening.scope]

@[simp] theorem doneFor_append (log : List (Option Nat × Deed α β))
    (more : List (Option Nat × Deed α β)) (k : Nat) :
    doneFor (log ++ more) k = doneFor log k ++ doneFor more k := by
  simp [doneFor]

/-- What holds of each call and what has happened before it goes on to hold if it holds of what
happens now. -/
theorem calls_cons {h : Happening α β γ} {t : List (Happening α β γ)}
    {P : Bool → Option Nat → Nat → List (Happening α β γ) → Prop}
    (now : ∀ joins around scope, h = .calls joins around scope → P joins around scope t)
    (old : ∀ later joins around scope earlier,
      t = later ++ .calls joins around scope :: earlier → P joins around scope earlier) :
    ∀ later joins around scope earlier,
      h :: t = later ++ .calls joins around scope :: earlier → P joins around scope earlier := by
  rintro (_ | ⟨g, later⟩) joins around scope earlier split
  · obtain ⟨rfl, rfl⟩ := List.cons.inj split
    exact now joins around scope rfl
  · obtain ⟨rfl, older⟩ := List.cons.inj split
    exact old later joins around scope earlier older

/-- The law goes on to hold when something happens in a scope whose own body has not ended. -/
theorem Lawful.inside {t : List (Happening α β γ)} {log : List (Option Nat × Deed α β)}
    (law : Lawful t log) {h : Happening α β γ}
    (running : ∀ outcome result, .ends h.scope true outcome result ∉ h :: t)
    (joining : ∀ joins around scope, h = .calls joins around scope →
      (around = some scope ↔ joins = true ∧ ∃ k, around = some k ∧ ¬Spoiled t k) ∧
      (around ≠ some scope → ∀ g ∈ t, g.scope ≠ scope))
    (joined : ∀ k outcome result, h = .ends k false outcome result → result = outcome) :
    Lawful (h :: t) log := by
  have unapplied : ¬Applied (h :: t) h.scope := by
    rintro ⟨⟨v, result, mem⟩, -⟩
    exact running _ _ mem
  have before : ¬Applied t h.scope := by
    rintro ⟨⟨v, result, mem⟩, -⟩
    exact running _ _ (List.mem_cons_of_mem _ mem)
  refine ⟨calls_cons (fun joins around scope now => (joining joins around scope now).1) law.joining,
    calls_cons (fun joins around scope now => (joining joins around scope now).2) law.opening,
    ?_, ?_, ?_, ?_⟩
  · intro k outcome result mem
    rcases List.mem_cons.mp mem with here | mem
    · exact joined k outcome result here.symm
    · exact law.joined k outcome result mem
  · intro k outcome result mem
    have other : h.scope ≠ k := by
      rintro rfl
      exact running _ _ mem
    rcases List.mem_cons.mp mem with rfl | mem
    · exact absurd rfl other
    · rw [applied_cons_of_ne other]
      exact law.own k outcome result mem
  · intro k applied
    have other : h.scope ≠ k := by
      rintro rfl
      exact unapplied applied
    rw [applied_cons_of_ne other] at applied
    simpa [staged?_of_ne other, listener?_of_ne other] using law.applied k applied
  · intro k discarded
    by_cases other : h.scope = k
    · subst other
      exact law.discarded _ before
    · rw [applied_cons_of_ne other] at discarded
      exact law.discarded k discarded

/-- A scope whose body ends is applied if the body has succeeded and nothing has spoiled it. -/
theorem applied_ends {t : List (Happening α β γ)} {k : Nat} (outcome result : Except Error γ)
    (running : ∀ outcome result, .ends k true outcome result ∉ t) :
    Applied (.ends k true outcome result :: t) k ↔ (∃ v, outcome = .ok v) ∧ ¬Spoiled t k := by
  have unspoiled : Spoiled (.ends k true outcome result :: t) k ↔ Spoiled t k := by
    simp [spoiled_cons]
  rw [Applied, unspoiled]
  refine and_congr_left fun _ => ?_
  constructor
  · rintro ⟨v, r, mem⟩
    rcases List.mem_cons.mp mem with here | old
    · cases here
      exact ⟨v, rfl⟩
    · exact absurd old (running _ _)
  · rintro ⟨v, rfl⟩
    exact ⟨v, result, List.mem_cons_self⟩

/-- The law goes on to hold when the body of a scope ends, if what is done then is what was
gathered in the scope, or nothing. -/
theorem Lawful.closes {t : List (Happening α β γ)} {log : List (Option Nat × Deed α β)}
    (law : Lawful t log) {k : Nat} (running : ∀ outcome result, .ends k true outcome result ∉ t)
    {outcome result : Except Error γ} {deeds : List (Deed α β)}
    (failed : ∀ e, outcome = .error e → result = .error e ∧ deeds = [])
    (committed : ∀ v, outcome = .ok v → ¬Spoiled t k → result = .ok v ∧
      deeds = (stagedIn t k).map .change ++ (listenersIn t k).map .tell)
    (rolledBack : ∀ v, outcome = .ok v → Spoiled t k →
      result = .error .rolledBack ∧ deeds = []) :
    Lawful (.ends k true outcome result :: t) (log ++ deeds.map fun d => (some k, d)) := by
  have applied := applied_ends outcome result running
  have elsewhere : ∀ j, k ≠ j →
      (Applied (.ends k true outcome result :: t) j ↔ Applied t j) := by
    intro j other
    exact applied_cons_of_ne other
  have nothing : doneFor log k = [] := by
    refine law.discarded k ?_
    rintro ⟨⟨v, r, mem⟩, -⟩
    exact running _ _ mem
  have here : doneFor (log ++ deeds.map fun d => (some k, d)) k = deeds := by
    rw [doneFor_append, nothing]
    simp [doneFor, List.filter_map, Function.comp_def]
  have there : ∀ j, k ≠ j →
      doneFor (log ++ deeds.map fun d => (some k, d)) j = doneFor log j := by
    intro j other
    simp [doneFor, List.filter_map, Function.comp_def, other]
  refine ⟨calls_cons (by simp) law.joining, calls_cons (by simp) law.opening, ?_, ?_, ?_, ?_⟩
  · intro j o r mem
    exact law.joined j o r (by simpa using mem)
  · intro j o r mem
    rcases List.mem_cons.mp mem with now | old
    · cases now
      rw [applied]
      refine ⟨fun e error => (failed e error).1, ?_, ?_⟩
      · rintro v ok ⟨-, unspoiled⟩
        exact (committed v ok unspoiled).1
      · intro v ok discarded
        refine (rolledBack v ok ?_).1
        by_contra unspoiled
        exact discarded ⟨⟨v, ok⟩, unspoiled⟩
    · have other : k ≠ j := by
        rintro rfl
        exact running _ _ old
      rw [elsewhere j other]
      exact law.own j o r old
  · intro j is_applied
    by_cases same : k = j
    · subst same
      obtain ⟨⟨v, ok⟩, unspoiled⟩ := applied.mp is_applied
      rw [here, (committed v ok unspoiled).2]
      simp [Happening.staged?, Happening.listener?]
    · rw [elsewhere j same] at is_applied
      rw [there j same, law.applied j is_applied]
      simp [Happening.staged?, Happening.listener?]
  · intro j discarded
    by_cases same : k = j
    · subst same
      rw [here]
      cases outcome with
      | error e => exact (failed e rfl).2
      | ok v =>
          refine (rolledBack v rfl ?_).2
          by_contra unspoiled
          exact discarded (applied.mpr ⟨⟨v, rfl⟩, unspoiled⟩)
    · rw [elsewhere j same] at discarded
      rw [there j same, law.discarded j discarded]

end RecurringWork
