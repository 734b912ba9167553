import RecurringWork.Simulation.Lifetime

/-!
# RecurringWork.Proofs.Cluster.Lifetimes

**Who lives.** A thing lives exactly if it belongs to some things each of which is rooted or
held by another of them (`World.isAlive_iff`). Going over all things again and again finds
the largest such collection: whatever sustains itself is never struck off
(`Sustained.subset_settled`), and what is left in the end sustains itself, because a round that
strikes nothing off is the last one and there are as many rounds as things
(`sustained_settled`).

So whoever holds at least what was held before lets nobody die (`Retains.isAlive`).
-/

namespace RecurringWork.Simulation.World

variable {u v w : World} {roots some alive : List Thing} {x : Thing}

/-- Each of some things is rooted or held by one of them. -/
def Sustained (w : World) (roots some : List Thing) : Prop :=
  ∀ x ∈ some, x ∈ roots ∨ ∃ y ∈ some, x ∈ w.heldBy y

/-- The things that one round leaves. -/
theorem mem_round : x ∈ (alive.filter fun t =>
      roots.contains t || (alive.flatMap w.heldBy).contains t) ↔
    x ∈ alive ∧ (x ∈ roots ∨ ∃ y ∈ alive, x ∈ w.heldBy y) := by
  simp only [List.mem_filter, Bool.or_eq_true, List.contains_iff_mem, List.mem_flatMap]

/-- What sustains itself is never struck off. -/
theorem Sustained.subset_settled (h : w.Sustained roots some) (fuel : Nat)
    (known : some ⊆ alive) : some ⊆ w.settled roots fuel alive := by
  induction fuel generalizing alive with
  | zero => exact known
  | succ fuel ih =>
      rw [settled]
      split
      · exact known
      · refine ih fun x mem => mem_round.mpr ⟨known mem, ?_⟩
        rcases h x mem with root | ⟨y, here, holds⟩
        · exact .inl root
        · exact .inr ⟨y, known here, holds⟩

theorem settled_subset (fuel : Nat) : w.settled roots fuel alive ⊆ alive := by
  induction fuel generalizing alive with
  | zero => exact List.Subset.refl _
  | succ fuel ih =>
      rw [settled]
      split
      · exact List.Subset.refl _
      · exact fun x mem => (mem_round.mp (ih mem)).1

/-- What is left in the end sustains itself, if there are enough rounds. -/
theorem sustained_settled {fuel : Nat} (enough : alive.length ≤ fuel) :
    w.Sustained roots (w.settled roots fuel alive) := by
  induction fuel generalizing alive with
  | zero =>
      obtain rfl : alive = [] := List.length_eq_zero_iff.mp (Nat.le_zero.mp enough)
      simp [settled, Sustained]
  | succ fuel ih =>
      rw [settled]
      split
      · next same =>
          -- Nobody has been struck off.
          intro x mem
          rw [← List.filter_sublist.eq_of_length same] at mem
          exact (mem_round.mp mem).2
      · next fewer =>
          refine ih ?_
          have shorter := List.length_filter_le
            (fun t => roots.contains t || (alive.flatMap w.heldBy).contains t) alive
          omega

/-- **A thing lives exactly if it belongs to things that hold each other and what is rooted.** -/
theorem isAlive_iff {frames : List Frame} : w.isAlive frames x = true ↔
    ∃ some, w.Sustained (w.rooted frames) some ∧ some ⊆ w.things ∧ x ∈ some := by
  rw [isAlive, List.contains_iff_mem]
  constructor
  · intro lives
    exact ⟨_, sustained_settled (Nat.le_refl _), settled_subset _, lives⟩
  · rintro ⟨some, sustained, known, mem⟩
    exact sustained.subset_settled _ known mem

/-- What a living thing holds lives. -/
theorem isAlive_of_held {frames : List Frame} {y : Thing} (lives : w.isAlive frames x = true)
    (held : y ∈ w.heldBy x) (known : y ∈ w.things) : w.isAlive frames y = true := by
  obtain ⟨some, sustained, there, mem⟩ := isAlive_iff.mp lives
  refine isAlive_iff.mpr ⟨y :: some, fun z here => ?_, List.cons_subset.mpr ⟨known, there⟩,
    List.mem_cons_self⟩
  rcases List.mem_cons.mp here with rfl | here
  · exact .inr ⟨x, List.mem_cons_of_mem _ mem, held⟩
  · exact (sustained z here).imp_right fun ⟨a, among, holds⟩ =>
      ⟨a, List.mem_cons_of_mem _ among, holds⟩

/-! ### Worlds in which more is held -/

/-- What there is in one world there is in the other, and whatever is held here is held there. -/
structure Retains (w v : World) : Prop where
  things : w.things ⊆ v.things
  heldBy : ∀ x, w.heldBy x ⊆ v.heldBy x
  rooted : ∀ frames, w.rooted frames ⊆ v.rooted frames

theorem Retains.refl (w : World) : w.Retains w :=
  ⟨List.Subset.refl _, fun _ => List.Subset.refl _, fun _ => List.Subset.refl _⟩

theorem Retains.trans (first : u.Retains v) (second : v.Retains w) : u.Retains w where
  things := List.Subset.trans first.things second.things
  heldBy := fun x => List.Subset.trans (first.heldBy x) (second.heldBy x)
  rooted := fun frames => List.Subset.trans (first.rooted frames) (second.rooted frames)

/-- More frames need more. -/
theorem rooted_subset {frames more : List Frame} (within : frames ⊆ more) :
    w.rooted frames ⊆ w.rooted more := by
  unfold rooted
  intro x mem
  simp only [List.mem_append, List.mem_flatMap] at mem ⊢
  rcases mem with root | ⟨f, here, needs⟩
  · exact .inl root
  · exact .inr ⟨f, within here, needs⟩

/-- **Whoever holds at least what was held before lets nobody die.** -/
theorem Retains.isAlive (h : w.Retains v) {frames more : List Frame} (within : frames ⊆ more)
    (lives : w.isAlive frames x = true) : v.isAlive more x = true := by
  obtain ⟨some, sustained, known, mem⟩ := isAlive_iff.mp lives
  refine isAlive_iff.mpr ⟨some, fun y here => ?_, List.Subset.trans known h.things, mem⟩
  rcases sustained y here with root | ⟨z, there, holds⟩
  · exact .inl (rooted_subset within (h.rooted frames root))
  · exact .inr ⟨z, there, h.heldBy z holds⟩

end RecurringWork.Simulation.World
